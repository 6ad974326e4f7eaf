import ComponentRegistry.Proofs.Crate.Visits
import ComponentRegistry.Proofs.Crate.Watching

/-! The search for the files of a crate, which keeps a list of what is still to come, compared with a
walk that calls itself for each module (`Disk.corpus_eq_explore`). The list is what is left to do of
all calls that have begun: to take turns until it is empty is to walk from each of its files, one
after another (`Sources.explore_of_run`). Each call has begun in a turn of its own, so that the calls
are nested no deeper than there are turns. -/

namespace ComponentRegistry

/-- What a walk through the modules of a crate has come to. -/
structure Exploration where
  /-- The paths of the files that have been visited. -/
  visited : List (Nat × FilePath)
  /-- All files that the walk has come to, the first one first. A file that it has come to more than
  once is there as often. -/
  arrivals : List ModuleFile
  found : Corpus

namespace Exploration

/-- The walk before it has come to any file. -/
def start : Exploration := ⟨[], [], ⟨[], []⟩⟩

/-- The walk comes to files that it does not visit again. -/
def pass (x : Exploration) (ms : List ModuleFile) : Exploration :=
  { x with arrivals := x.arrivals ++ ms }

end Exploration

namespace ModuleFile

/-- Of all files under one path only the first one. -/
def firstOfEach : List ModuleFile → List ModuleFile
  | [] => []
  | m :: ms => m :: (firstOfEach ms).filter (·.path.identity != m.path.identity)

theorem firstOfEach_sublist (ms : List ModuleFile) : (firstOfEach ms).Sublist ms := by
  induction ms with
  | nil => exact .slnil
  | cons m ms ih => exact (List.filter_sublist.trans ih).cons_cons m

theorem firstOfEach_append (ms others : List ModuleFile) :
    firstOfEach (ms ++ others) = firstOfEach ms ++
      (firstOfEach others).filter fun m => !(ms.map (·.path.identity)).contains m.path.identity := by
  induction ms with
  | nil => simp [firstOfEach]
  | cons m ms ih =>
    rw [List.cons_append, firstOfEach, ih, List.filter_append, List.filter_filter, firstOfEach,
      List.cons_append]
    congr 2
    refine List.filter_congr fun c _ => ?_
    rw [List.map_cons, List.contains_cons, Bool.not_or]
    rfl

theorem firstOfEach_append_of_mem {ms others : List ModuleFile}
    (h : ∀ m ∈ others, m.path.identity ∈ ms.map (·.path.identity)) :
    firstOfEach (ms ++ others) = firstOfEach ms := by
  rw [firstOfEach_append, List.filter_eq_nil_iff.mpr, List.append_nil]
  intro m hm
  simpa using h m ((firstOfEach_sublist others).subset hm)

theorem firstOfEach_append_of_not_mem {ms : List ModuleFile} {m : ModuleFile}
    (h : m.path.identity ∉ ms.map (·.path.identity)) :
    firstOfEach (ms ++ [m]) = firstOfEach ms ++ [m] := by
  rw [firstOfEach_append]
  simpa [firstOfEach] using h

end ModuleFile

namespace Sources

variable {s s₁ s₂ : Sources} {directory : FilePath} {n : Nat} {search : Search}
  {x : Exploration} {m : ModuleFile} {depth : Nat}

/-- The walk after it has read a file with this text, and before it goes on to its modules. -/
def arrive (directory : FilePath) (x : Exploration) (m : ModuleFile) (text : String) :
    Exploration where
  visited := m.path.identity :: x.visited
  arrivals := x.arrivals ++ [m]
  found := ⟨x.found.files ++ [directory.join m.path],
    x.found.nodes ++ (Outline.ofText m.path.key m.modulePath text).nodes⟩

/-- Visit a file, and then each of its modules that has a file, with all that it leads to. Nothing is
done if the file has been visited before. There is no result if the calls are nested more than `depth`
deep. -/
def explore (s : Sources) (directory : FilePath) (depth : Nat) (x : Exploration) (m : ModuleFile) :
    ExceptT CrateError Option Exploration :=
  match depth with
  | 0 => .mk none
  | depth + 1 =>
    if x.visited.contains m.path.identity then pure (x.pass [m])
    else match s.read (directory.join m.path) with
      | .error e => throw (.read (directory.join m.path) e)
      | .ok text =>
        (Outline.ofText m.path.key m.modulePath text).modules.foldlM (fun x decl =>
          match s.child? directory m decl with
          | some child => s.explore directory depth x child
          | none => pure x) (arrive directory x m text)

/-- Visit the root of a crate, and with it the whole crate. -/
def exploreCrate (s : Sources) (directory : FilePath) (depth : Nat) :
    ExceptT CrateError Option Exploration :=
  match rootNames.find? fun name => s.isFile (directory.push name) with
  | some name => s.explore directory depth .start (.root name)
  | none => throw (.noCrateRoot directory)

/-- A file to which a module leads that is declared in a file that is followed itself. -/
inductive Follows (s : Sources) (directory : FilePath) : ModuleFile → Prop
  | root {name : String} :
    (rootNames.find? fun name => s.isFile (directory.push name)) = some name →
    Follows s directory (.root name)
  | child {m child : ModuleFile} {text : String} {decl : ModuleDecl} :
    Follows s directory m → s.read (directory.join m.path) = .ok text →
    decl ∈ (Outline.ofText m.path.key m.modulePath text).modules →
    s.child? directory m decl = some child → Follows s directory child

theorem explore_of_visited (h : m.path.identity ∈ x.visited) :
    s.explore directory (depth + 1) x m = pure (x.pass [m]) := by
  rw [explore, if_pos (by simpa using h)]

theorem explore_of_error {e : FileError} (hfresh : m.path.identity ∉ x.visited)
    (hread : s.read (directory.join m.path) = .error e) :
    s.explore directory (depth + 1) x m = throw (.read (directory.join m.path) e) := by
  rw [explore, if_neg (by simpa using hfresh), hread]

/-- The calls for the modules of a file are those for the files that are found for them. -/
theorem explore_of_text {text : String} (hfresh : m.path.identity ∉ x.visited)
    (hread : s.read (directory.join m.path) = .ok text) :
    s.explore directory (depth + 1) x m =
      ((Outline.ofText m.path.key m.modulePath text).modules.filterMap
        (s.child? directory m)).foldlM (s.explore directory depth) (arrive directory x m text) := by
  rw [explore, if_neg (by simpa using hfresh), hread, List.foldlM_filterMap]
  dsimp only
  congr 1
  funext x decl
  cases s.child? directory m decl <;> rfl

/-- Files that have been visited are passed over. -/
theorem foldlM_explore_of_visited {ms : List ModuleFile}
    (h : ∀ m ∈ ms, m.path.identity ∈ x.visited) :
    ms.foldlM (s.explore directory (depth + 1)) x = pure (x.pass ms) := by
  induction ms generalizing x with
  | nil => simp [Exploration.pass]
  | cons m ms ih =>
    obtain ⟨hm, hms⟩ := List.forall_mem_cons.mp h
    have hrest : ms.foldlM (s.explore directory (depth + 1)) (x.pass [m]) =
        pure ((x.pass [m]).pass ms) := ih hms
    rw [List.foldlM_cons, explore_of_visited hm, pure_bind, hrest]
    simp [Exploration.pass]

/-- What comes to a result goes on to it if all that follows comes to the results that it had. -/
theorem bind_of_results {α β : Type} {first : ExceptT CrateError Option α}
    {f g : α → ExceptT CrateError Option β} {r : Except CrateError β}
    (hfg : ∀ {a r}, f a = .mk (some r) → g a = .mk (some r))
    (h : first >>= f = .mk (some r)) : first >>= g = .mk (some r) := by
  obtain ⟨result, hresult, h⟩ := Option.bind_eq_some_iff.mp h
  refine Option.bind_eq_some_iff.mpr ⟨result, hresult, ?_⟩
  cases result with
  | error e => exact h
  | ok a => exact hfg h

theorem foldlM_of_results {f g : Exploration → ModuleFile → ExceptT CrateError Option Exploration}
    (hfg : ∀ {x m r}, f x m = .mk (some r) → g x m = .mk (some r)) {ms : List ModuleFile}
    {r : Except CrateError Exploration} (h : ms.foldlM f x = .mk (some r)) :
    ms.foldlM g x = .mk (some r) := by
  induction ms generalizing x r with
  | nil => exact h
  | cons m ms ih =>
    rw [List.foldlM_cons] at h ⊢
    obtain ⟨result, hresult, h⟩ := Option.bind_eq_some_iff.mp h
    refine Option.bind_eq_some_iff.mpr ⟨result, hfg hresult, ?_⟩
    cases result with
    | error e => exact h
    | ok y => exact ih h

/-- A walk that has come to a result comes to the same one with calls nested deeper. -/
theorem explore_deeper {r : Except CrateError Exploration}
    (h : s.explore directory depth x m = .mk (some r)) :
    s.explore directory (depth + 1) x m = .mk (some r) := by
  induction depth generalizing x m r with
  | zero => cases h
  | succ depth ih =>
    by_cases hvisited : m.path.identity ∈ x.visited
    · rwa [explore_of_visited hvisited] at h ⊢
    · cases hread : s.read (directory.join m.path) with
      | error e => rwa [explore_of_error hvisited hread] at h ⊢
      | ok text =>
        rw [explore_of_text hvisited hread] at h ⊢
        exact foldlM_of_results ih h

/-- The walk has listed each file once, as it has first come to it. -/
structure Listed (s : Sources) (directory : FilePath) (x : Exploration) : Prop where
  visited : ∀ p, p ∈ x.visited ↔ p ∈ x.arrivals.map (·.path.identity)
  files : x.found.files = (ModuleFile.firstOfEach x.arrivals).map (directory.join ·.path)
  nodes : x.found.nodes = (ModuleFile.firstOfEach x.arrivals).flatMap (s.nodesIn directory)

theorem listed_start : s.Listed directory .start := ⟨by simp [Exploration.start], rfl, rfl⟩

theorem Listed.pass (h : s.Listed directory x) {ms : List ModuleFile}
    (hms : ∀ m ∈ ms, m.path.identity ∈ x.visited) :
    s.Listed directory (x.pass ms) := by
  have hpassed : ∀ m ∈ ms, m.path.identity ∈ x.arrivals.map (·.path.identity) :=
    fun m hm => (h.visited _).mp (hms m hm)
  refine ⟨fun p => ?_, ?_, ?_⟩
  · simp only [Exploration.pass, h.visited, List.map_append, List.mem_append]
    refine ⟨.inl, fun hp => hp.elim id fun hp => ?_⟩
    obtain ⟨m, hm, rfl⟩ := List.mem_map.mp hp
    exact hpassed m hm
  · rw [Exploration.pass, ModuleFile.firstOfEach_append_of_mem hpassed, h.files]
  · rw [Exploration.pass, ModuleFile.firstOfEach_append_of_mem hpassed, h.nodes]

theorem Listed.arrive (h : s.Listed directory x) {text : String}
    (hfresh : m.path.identity ∉ x.visited) (hread : s.read (directory.join m.path) = .ok text) :
    s.Listed directory (arrive directory x m text) := by
  have hnew : m.path.identity ∉ x.arrivals.map (·.path.identity) := fun hm =>
    hfresh ((h.visited _).mpr hm)
  have hnodes : s.nodesIn directory m = (Outline.ofText m.path.key m.modulePath text).nodes := by
    rw [nodesIn, hread]
  refine ⟨fun p => ?_, ?_, ?_⟩
  · simp [Sources.arrive, h.visited, or_comm]
  · simp only [Sources.arrive, ModuleFile.firstOfEach_append_of_not_mem hnew, h.files,
      List.map_append, List.map_cons, List.map_nil]
  · simp only [Sources.arrive, ModuleFile.firstOfEach_append_of_not_mem hnew, h.nodes,
      List.flatMap_append, List.flatMap_singleton, hnodes]

/-- Where the walk stands when the search stands there, too. -/
structure Meets (s : Sources) (directory : FilePath) (x : Exploration) (search : Search) : Prop where
  visited : x.visited = search.seen
  found : x.found = search.found
  listed : s.Listed directory x

/-- The files that a search passes over have been visited. -/
theorem Meets.passed (h : s.Meets directory x search) : ∃ passed,
    search.pending = passed ++ search.due ∧ ∀ m ∈ passed, m.path.identity ∈ x.visited := by
  refine ⟨search.pending.takeWhile fun m => search.seen.contains m.path.identity,
    List.takeWhile_append_dropWhile.symm, fun m hm => ?_⟩
  have hall := List.all_takeWhile (p := fun m : ModuleFile => search.seen.contains m.path.identity)
    (l := search.pending)
  simpa [h.visited] using List.all_eq_true.mp hall m hm

/-- To take turns until no files are pending is to walk from each of the pending files. -/
theorem explore_of_run (hdepth : n ≤ depth)
    (hend : ∀ final, s.run directory n search = .ok final → final.pending = [])
    (h : s.Meets directory x search) :
    match s.run directory n search with
    | .ok final => ∃ y, search.pending.foldlM (s.explore directory depth) x = pure y ∧
      s.Meets directory y final
    | .error e => search.pending.foldlM (s.explore directory depth) x = throw e := by
  induction n generalizing search x depth with
  | zero =>
    have hnil : search.pending = [] := hend search rfl
    rw [run_zero, hnil]
    exact ⟨x, rfl, h⟩
  | succ n ih =>
    obtain ⟨depth, rfl⟩ := Nat.exists_eq_add_of_lt hdepth
    obtain ⟨passed, hpending, hpassed⟩ := h.passed
    have hlisted := h.listed.pass hpassed
    rw [hpending, List.foldlM_append, foldlM_explore_of_visited hpassed, pure_bind]
    cases hdue : search.due with
    | nil =>
      rw [run_of_due_nil hdue]
      exact ⟨x.pass passed, rfl, h.visited, h.found, hlisted⟩
    | cons m rest =>
      have hfresh : m.path.identity ∉ (x.pass passed).visited :=
        show _ ∉ x.visited from h.visited ▸ fresh_of_due hdue
      rw [run_of_due_cons hdue] at hend ⊢
      rw [List.foldlM_cons]
      cases hread : s.read (directory.join m.path) with
      | error e =>
        rw [explore_of_error hfresh hread]
        rfl
      | ok text =>
        have hmeets : s.Meets directory (arrive directory (x.pass passed) m text)
            (s.after directory search m rest text) := by
          refine ⟨?_, ?_, hlisted.arrive hfresh hread⟩
          · simp only [Sources.arrive, after, Exploration.pass, h.visited]
          · simp only [Sources.arrive, after, Exploration.pass, h.found]
        rw [hread] at hend
        -- What the file leads to comes before what is pending, and its calls are nested in that one.
        have hwalk := ih (Nat.le_add_right n depth) hend hmeets
        have hnext : (s.after directory search m rest text).pending =
          (Outline.ofText m.path.key m.modulePath text).modules.filterMap (s.child? directory m) ++
            rest := rfl
        have hdeeper : ∀ {r y}, rest.foldlM (s.explore directory (n + depth)) y = .mk (some r) →
            rest.foldlM (s.explore directory (n + depth + 1)) y = .mk (some r) :=
          foldlM_of_results explore_deeper
        rw [hnext, List.foldlM_append] at hwalk
        rw [explore_of_text hfresh hread]
        dsimp only
        cases hrun : s.run directory n (s.after directory search m rest text) with
        | error e =>
          rw [hrun] at hwalk
          exact bind_of_results hdeeper hwalk
        | ok final =>
          rw [hrun] at hwalk
          obtain ⟨y, hy, hmeets⟩ := hwalk
          exact ⟨y, bind_of_results hdeeper hy, hmeets⟩

/-- A search visits only files that are followed. -/
theorem follows_of_visits (hpending : ∀ m ∈ search.pending, s.Follows directory m) :
    ∀ m ∈ s.visits directory n search, s.Follows directory m :=
  visits_induction hpending fun _ hm _ hread _ hdecl _ hc => .child hm hread hdecl hc

/-- Files that are not followed are not read: whatever text they have, the crate is the same. -/
theorem corpus_eq_of_follows (hfile : s₂.isFile = s₁.isFile)
    (hread : ∀ m, s₁.Follows directory m →
      s₂.read (directory.join m.path) = s₁.read (directory.join m.path)) :
    s₂.corpus directory n = s₁.corpus directory n := by
  have hstart : s₂.start? directory = s₁.start? directory := by rw [start?, start?, hfile]
  rw [corpus, corpus, hstart]
  cases hroot : s₁.start? directory with
  | none => rfl
  | some search =>
    obtain ⟨name, hname, rfl⟩ := Option.map_eq_some_iff.mp hroot
    have hpending : ∀ m ∈ [ModuleFile.root name], s₁.Follows directory m := fun m hm =>
      List.mem_singleton.mp hm ▸ .root hname
    dsimp only
    rw [run_congr_of_visits fun m hm => ⟨hread m (follows_of_visits hpending m hm), ?_⟩]
    intro p _
    rw [hfile]

/-- The whole search and the whole walk. -/
theorem exploreCrate_of_corpus (hdepth : n ≤ depth)
    (hend : ∀ {search final}, s.start? directory = some search →
      s.run directory n search = .ok final → final.pending = []) :
    match s.corpus directory n with
    | .ok corpus => ∃ y, s.exploreCrate directory depth = pure y ∧ y.found = corpus ∧
      s.Listed directory y
    | .error e => s.exploreCrate directory depth = throw e := by
  unfold corpus exploreCrate
  cases hname : rootNames.find? fun name => s.isFile (directory.push name) with
  | none =>
    have hstart : s.start? directory = none := by rw [start?, hname]; rfl
    rw [hstart]
  | some name =>
    have hstart : s.start? directory = some ⟨[], [.root name], ⟨[], []⟩⟩ := by
      rw [start?, hname]; rfl
    have hwalk := explore_of_run hdepth (fun _ => hend hstart) ⟨rfl, rfl, listed_start⟩
    rw [List.foldlM_cons] at hwalk
    rw [hstart]
    dsimp only
    cases hrun : s.run directory n ⟨[], [.root name], ⟨[], []⟩⟩ with
    | error e =>
      rw [hrun] at hwalk
      simpa [Except.map] using hwalk
    | ok final =>
      rw [hrun] at hwalk
      obtain ⟨y, hy, hmeets⟩ := hwalk
      exact ⟨y, by simpa using hy, hmeets.found, hmeets.listed⟩

end Sources

namespace Disk

/-- The search for the files of a crate is the walk that visits a file, and then all that its first
module leads to, before its second one; how deep its calls may be nested does not matter. Each file is
listed once, for the module as which the walk first comes to it, and files that no module on the way
leads to are not read. -/
theorem corpus_eq_explore (d : Disk) (directory : FilePath) :
    (∀ spare, match d.corpus directory with
      | .ok corpus => ∃ x, d.sources.exploreCrate directory (manyPaths + spare) = pure x ∧
        x.found = corpus ∧
        corpus.files = (ModuleFile.firstOfEach x.arrivals).map (directory.join ·.path) ∧
        corpus.nodes = (ModuleFile.firstOfEach x.arrivals).flatMap (d.sources.nodesIn directory)
      | .error e => d.sources.exploreCrate directory (manyPaths + spare) = throw e) ∧
    ∀ s : Sources, s.isFile = d.isFile →
      (∀ m, d.sources.Follows directory m →
        s.read (directory.join m.path) = d.readText (directory.join m.path)) →
      s.corpus directory manyPaths = d.corpus directory := by
  have hend : ∀ {search final}, d.sources.start? directory = some search →
      d.sources.run directory manyPaths search = .ok final → final.pending = [] := by
    intro search final hstart hrun
    obtain ⟨-, hseen, hfiles⟩ := reads_start hstart
    exact pending_eq_nil hseen hfiles hrun
  refine ⟨fun spare => ?_, fun s hfile hread => Sources.corpus_eq_of_follows hfile hread⟩
  have hwalk := Sources.exploreCrate_of_corpus (Nat.le_add_right manyPaths spare) hend
  change match d.sources.corpus directory manyPaths with | .ok _ => _ | .error _ => _
  cases hcorpus : d.sources.corpus directory manyPaths with
  | error e => simpa [hcorpus] using hwalk
  | ok corpus =>
    rw [hcorpus] at hwalk
    obtain ⟨x, hx, rfl, hlisted⟩ := hwalk
    exact ⟨x, hx, rfl, hlisted.files, hlisted.nodes⟩

end Disk

end ComponentRegistry
