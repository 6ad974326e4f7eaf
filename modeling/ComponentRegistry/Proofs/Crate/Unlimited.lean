import ComponentRegistry.Proofs.Crate.Ending
import ComponentRegistry.Proofs.Crate.Placement
import ComponentRegistry.Proofs.Disk.Reach
import ComponentRegistry.Proofs.Text.SnakeCase

/-! The search of a disk that looks up paths of any length. It comes to no path twice, but it may come
to the same file under longer and longer paths. It ends if and only if the paths do not lead up without
bound (`Disk.ends_unlimited_iff`), so that without such paths in attributes it always does. -/

namespace ComponentRegistry

open Grammar Lexer

/-- What is read of a disk that looks up paths of any length. -/
def Disk.unlimited (d : Disk) : Sources where
  isFile p := (d.reach? p).isSome
  read p := match d.reach? p with
    | none => .error .notFound
    | some contents => match String.fromUTF8? contents with
      | some text => .ok text
      | none => .error .invalidData

namespace Sources

variable {s : Sources} {directory : FilePath} {n k : Nat} {search : Search}

/-- The search comes to an end, be it that a file cannot be read. -/
def Ends (s : Sources) (directory : FilePath) (search : Search) : Prop :=
  ∃ n, (∃ e, s.run directory n search = .error e) ∨
    ∃ final, s.run directory n search = .ok final ∧ final.pending = []

theorem due_nil (h : search.pending = []) : search.due = [] := by
  rw [Search.due, h]
  rfl

/-- A search comes to an end, or it visits a file in every turn. -/
theorem ends_or_length_visits (n : Nat) (search : Search) :
    s.Ends directory search ∨ (s.visits directory n search).length = n := by
  induction n generalizing search with
  | zero => exact .inr rfl
  | succ n ih =>
    cases hdue : search.due with
    | nil => exact .inl ⟨1, .inr ⟨_, run_of_due_nil hdue, rfl⟩⟩
    | cons m rest =>
      cases hread : s.read (directory.join m.path) with
      | error e => exact .inl ⟨1, .inl ⟨_, by rw [run_of_due_cons hdue, hread]⟩⟩
      | ok text =>
        rcases ih (s.after directory search m rest text) with ⟨k, hk⟩ | hlength
        · refine .inl ⟨k + 1, ?_⟩
          rw [run_of_due_cons hdue, hread]
          exact hk
        · right
          rw [visits_of_due_cons hdue hread, List.length_cons, hlength]

/-- A search visits nothing more than until it has come to its end. -/
theorem visits_subset (h : (∃ e, s.run directory k search = .error e) ∨
      ∃ final, s.run directory k search = .ok final ∧ final.pending = []) (n : Nat) :
    s.visits directory n search ⊆ s.visits directory k search := by
  induction k generalizing n search with
  | zero =>
    rcases h with ⟨e, h⟩ | ⟨final, h, hend⟩
    · cases h
    · obtain rfl := Except.ok.inj h
      simp [visits_of_due_nil (due_nil hend)]
  | succ k ih =>
    cases n with
    | zero => simp [visits]
    | succ n =>
      cases hdue : search.due with
      | nil => simp [visits_of_due_nil hdue]
      | cons m rest =>
        rw [run_of_due_cons hdue] at h
        cases hread : s.read (directory.join m.path) with
        | error e => simp [visits, hdue, hread]
        | ok text =>
          rw [hread] at h
          rw [visits_of_due_cons hdue hread, visits_of_due_cons hdue hread]
          exact List.cons_subset_cons m (ih h n)

/-- A search ends if and only if the paths that it visits are finitely many. -/
theorem ends_iff_finite : s.Ends directory search ↔
    {x | ∃ n, ∃ m ∈ s.visits directory n search, m.path.identity = x}.Finite := by
  constructor
  · rintro ⟨k, hk⟩
    refine ((s.visits directory k search).map (·.path.identity)).finite_toSet.subset ?_
    rintro x ⟨n, m, hm, rfl⟩
    exact List.mem_map.mpr ⟨m, visits_subset hk n hm, rfl⟩
  · intro hfinite
    refine (ends_or_length_visits (hfinite.toFinset.card + 1) search).resolve_right fun hlength => ?_
    have hsubset : ((s.visits directory (hfinite.toFinset.card + 1) search).map
        (·.path.identity)).toFinset ⊆ hfinite.toFinset := by
      intro x hx
      obtain ⟨m, hm, rfl⟩ := List.mem_map.mp (List.mem_toFinset.mp hx)
      exact hfinite.mem_toFinset.mpr ⟨_, m, hm, rfl⟩
    have hcard := Finset.card_le_card hsubset
    rw [List.toFinset_card_of_nodup nodup_visits.1, List.length_map, hlength] at hcard
    omega

end Sources

/-! Paths that do not lead up. -/

namespace FilePath

variable {p base : FilePath} {segments : List String} {name : String}

theorem not_mem_text (h : ∀ s ∈ p.segments, '\x00' ∉ s.toList) : '\x00' ∉ p.text.toList := by
  rw [text, String.toList_append, List.mem_append, not_or]
  refine ⟨by split <;> decide, fun hmem => ?_⟩
  have hslash : ∀ c ∈ "/".toList, c ≠ '\x00' := List.forall_mem_singleton.mpr (by decide)
  refine Text.forall_mem_intercalate hslash (fun s hs c hc => ?_) _ hmem rfl
  rintro rfl
  exact h s hs hc

theorem names_parent_subset (p : FilePath) : p.parent.names ⊆ p.names := by
  have htrim : ∀ segments : List String, trim segments ⊆ segments := by
    intro segments s hs
    exact List.mem_reverse.mp ((List.dropWhile_sublist _).subset (List.mem_reverse.mp hs))
  have hempty : empty.names = [] := by decide
  intro s hs
  unfold parent parent? at hs
  split at hs
  next =>
    split at hs <;> simp [hempty] at hs
  next body hbody =>
    rw [Option.getD_some, names_eq_filter, List.mem_filter] at hs
    obtain ⟨hs, hcounts⟩ := hs
    rw [names_eq_filter, List.mem_filter, ← lead_append_body]
    refine ⟨?_, hcounts⟩
    unfold ofSegments at hs
    dsimp only at hs
    split at hs
    · obtain rfl := List.mem_singleton.mp hs
      rw [not_counts_empty] at hcounts
      cases hcounts
    · rcases List.mem_append.mp hs with hs | hs
      · exact List.mem_append_left _ hs
      · exact List.mem_append_right _ (htrim _ (List.dropLast_subset _ (htrim _ hs)))

end FilePath

open FilePath

namespace ModuleFile

/-- The path does not lead up, and a file that does not own its directory has the name of a module. -/
structure Level (m : ModuleFile) : Prop where
  noStepUp : ".." ∉ m.path.names
  named : m.ownsDirectory = false → ∃ name, IsName name ∧ m.path.fileName? = some (name ++ ".rs")

variable {m c : ModuleFile} {decl : ModuleDecl}

theorem Level.directory (h : m.Level) {start : FilePath} (hstart : m.directory? = some start) :
    ".." ∉ start.names := by
  have hparent : ".." ∉ m.path.parent.names := fun hup => h.noStepUp (names_parent_subset _ hup)
  unfold directory? at hstart
  split at hstart
  next =>
    obtain rfl := Option.some.inj hstart
    exact hparent
  next howns =>
    obtain ⟨name, hname, hfile⟩ := h.named (by simpa using howns)
    obtain ⟨-, hne, hup⟩ := counts_of_isName hname
    rw [stem?, hfile, Option.map_some, stemOf_append_rs hne] at hstart
    obtain rfl := Option.some.inj hstart
    rw [names_push]
    simp [hparent, Ne.symm hup]

theorem noStepUp_foldl_push {inline : List String} (hinline : ∀ name ∈ inline, IsName name)
    {start : FilePath} (hstart : ".." ∉ start.names) : ".." ∉ (inline.foldl push start).names := by
  induction inline generalizing start with
  | nil => exact hstart
  | cons name inline ih =>
    obtain ⟨hname, hinline⟩ := List.forall_mem_cons.mp hinline
    refine ih hinline ?_
    rw [names_push]
    simp [hstart, Ne.symm (counts_of_isName hname).2.2]

/-- A file that does not stand above another one leads to such files, but for paths in attributes. -/
theorem Level.candidate (h : m.Level)
    (hdecl : IsName decl.name ∧ ∀ name ∈ decl.inline, IsName name)
    (hpath : ∀ path, decl.path = some path → ".." ∉ (FilePath.ofText path).names)
    (hc : c ∈ m.candidates decl) : c.Level := by
  unfold candidates at hc
  cases hstart : m.directory? with
  | none => simp [hstart] at hc
  | some start =>
    have hdirectory := noStepUp_foldl_push hdecl.2 (h.directory hstart)
    rw [hstart] at hc
    cases hgiven : decl.path with
    | some path =>
      simp only [hgiven, List.mem_singleton] at hc
      subst hc
      refine ⟨?_, fun howns => Bool.noConfusion howns⟩
      have hbase : ".." ∉ (if decl.inline.isEmpty then m.path.parent
          else decl.inline.foldl push start).names := by
        split
        · exact fun hup => h.noStepUp (names_parent_subset _ hup)
        · exact hdirectory
      rw [names_join, List.mem_append, not_or]
      refine ⟨?_, hpath path hgiven⟩
      split
      · exact List.not_mem_nil
      · exact hbase
    | none =>
      simp only [hgiven, List.mem_cons, List.not_mem_nil, or_false] at hc
      obtain ⟨hcounts, hup⟩ := counts_append_rs decl.name
      rcases hc with rfl | rfl
      · refine ⟨?_, fun _ => ⟨decl.name, hdecl.1, fileName?_push hcounts hup _⟩⟩
        rw [names_push]
        simp [hdirectory, Ne.symm hup]
      · refine ⟨?_, fun howns => Bool.noConfusion howns⟩
        rw [names_push, names_push]
        simp [hdirectory, Ne.symm (counts_of_isName hdecl.1).2.2]

end ModuleFile

/-- No attribute gives a path that leads up for a module that has a file. -/
def Sources.Stepless (s : Sources) (directory : FilePath) (search : Search) : Prop :=
  ∀ n, ∀ m ∈ s.visits directory n search, ∀ decl ∈ s.modulesIn directory m,
    (s.child? directory m decl).isSome = true →
    ∀ path, decl.path = some path → ".." ∉ (FilePath.ofText path).names

namespace Disk

variable {d : Disk} {root : FilePath} {search : Search}

theorem isFile_of_visits (hstart : d.unlimited.start? root = some search) (n : Nat) :
    ∀ m ∈ d.unlimited.visits root n search, d.unlimited.isFile (root.join m.path) = true := by
  obtain ⟨name, hname, rfl⟩ := Option.map_eq_some_iff.mp hstart
  refine Sources.visits_induction (fun m hm => ?_) fun _ _ _ _ _ _ _ hchild =>
    Sources.isFile_of_child? hchild
  obtain rfl := List.mem_singleton.mp hm
  exact List.find?_some (p := fun name => d.unlimited.isFile (root.push name)) hname

theorem level_of_visits (hstart : d.unlimited.start? root = some search)
    (hsteps : d.unlimited.Stepless root search) (n : Nat) :
    ∀ m ∈ d.unlimited.visits root n search, m.Level := by
  obtain ⟨name, hname, rfl⟩ := Option.map_eq_some_iff.mp hstart
  refine Sources.visits_induction (fun m hm => ?_) fun {m} hm hlevel text hread decl hdecl child
    hchild => ?_
  · obtain rfl := List.mem_singleton.mp hm
    have hroots : ∀ name ∈ rootNames, ".." ∉ (ofName name).names := by decide
    exact ⟨hroots name (List.mem_of_find?_eq_some hname), nofun⟩
  · refine hlevel.candidate (Outline.isName_of_modules hdecl) ?_ (List.mem_of_find?_eq_some hchild)
    exact hsteps n m hm decl (by rwa [Sources.modulesIn, hread]) (by simp [hchild])

/-- If the paths lead up no further than a bound, there are finitely many of them. -/
theorem ends_of_bound (hstart : d.unlimited.start? root = some search) (bound : Nat)
    (hbound : ∀ n, ∀ m ∈ d.unlimited.visits root n search, m.path.names.count ".." ≤ bound) :
    d.unlimited.Ends root search := by
  obtain ⟨depth, hdepth⟩ := d.exists_depth
  refine Sources.ends_iff_finite.mpr ((finite_identities d.alphabet
    (max d.workingDirectory.length depth + 2 * (root.names.count ".." + bound) + 1)).subset ?_)
  rintro x ⟨n, m, hm, rfl⟩
  have hup := hbound n m hm
  obtain ⟨hall, hlength⟩ := names_of_reach? hdepth (isFile_of_visits hstart n m hm)
  rw [names_join] at hall hlength
  rw [List.count_append, List.length_append] at hlength
  have hbefore : (if m.path.absolute then [] else root.names).count ".." ≤ root.names.count ".." := by
    split <;> simp
  exact ⟨m.path, rfl, by omega, fun s hs => hall s (List.mem_append_right _ hs)⟩

/-- A search of a disk that looks up paths of any length ends if and only if its paths lead up no
further than some bound, and so if no path in an attribute leads up. On a disk that refuses long paths
every search ends. -/
theorem ends_unlimited_iff (hstart : d.unlimited.start? root = some search) :
    (d.unlimited.Ends root search ↔ ∃ bound, ∀ n, ∀ m ∈ d.unlimited.visits root n search,
      m.path.names.count ".." ≤ bound) ∧
    (d.unlimited.Stepless root search → d.unlimited.Ends root search) ∧
    ∀ search' final, d.sources.start? root = some search' →
      d.sources.run root manyPaths search' = .ok final → final.pending = [] := by
  refine ⟨⟨?_, fun ⟨bound, hbound⟩ => ends_of_bound hstart bound hbound⟩, fun hsteps => ?_,
    fun search' final hstart' hrun => ?_⟩
  · rintro ⟨k, hk⟩
    obtain ⟨bound, hbound⟩ := exists_bound (fun m : ModuleFile => m.path.names.count "..")
      (d.unlimited.visits root k search)
    exact ⟨bound, fun n m hm => hbound m (Sources.visits_subset hk n hm)⟩
  · refine ends_of_bound hstart 0 fun n m hm => Nat.le_zero.mpr ?_
    exact List.count_eq_zero.mpr (level_of_visits hstart hsteps n m hm).noStepUp
  · obtain ⟨-, hseen, hfiles⟩ := reads_start hstart'
    exact pending_eq_nil hseen hfiles hrun

/-- A crate with a file that an attribute names by a path up and down again. -/
def sidewaysPath : Disk :=
  Build.addFile (Build.addFile .empty "/src/lib.rs" "#[path=\"../src/a.rs\"]mod a;") "/src/a.rs"
    "struct A;"

theorem ends_unlimited_sidewaysPath : ∃ search,
    sidewaysPath.unlimited.start? (.ofText "/src") = some search ∧
    sidewaysPath.unlimited.Ends (.ofText "/src") search ∧
    ∃ bound, ∀ n, ∀ m ∈ sidewaysPath.unlimited.visits (.ofText "/src") n search,
      m.path.names.count ".." ≤ bound := by
  have hstart : sidewaysPath.unlimited.start? (.ofText "/src") =
      some ⟨[], [.root "lib.rs"], ⟨[], []⟩⟩ := by
    have hroot : (rootNames.find? fun name => sidewaysPath.unlimited.isFile
        ((FilePath.ofText "/src").push name)) = some "lib.rs" := by decide +kernel
    rw [Sources.start?, hroot]
    rfl
  have hends : sidewaysPath.unlimited.Ends (.ofText "/src") ⟨[], [.root "lib.rs"], ⟨[], []⟩⟩ := by
    have hpending : (sidewaysPath.unlimited.run (.ofText "/src") 2
        ⟨[], [.root "lib.rs"], ⟨[], []⟩⟩).toOption.map (·.pending) = some [] := by decide +kernel
    cases hrun : sidewaysPath.unlimited.run (.ofText "/src") 2 ⟨[], [.root "lib.rs"], ⟨[], []⟩⟩ with
    | error e => simp [hrun, Except.toOption] at hpending
    | ok final =>
      rw [hrun] at hpending
      exact ⟨2, .inr ⟨final, hrun, Option.some.inj hpending⟩⟩
  exact ⟨_, hstart, hends, (ends_unlimited_iff hstart).1.mp hends⟩

/-- A file that names itself by a path up and down again. -/
def selfNamingText : String := "#[path=\"../src/lib.rs\"]mod a;"

/-- A crate of this single file. -/
def selfNaming : Disk := Build.addFile .empty "/src/lib.rs" selfNamingText

/-- The segments up and down again, as many times as the file has been come to. -/
def backAndForth : Nat → List String
  | 0 => []
  | n + 1 => backAndForth n ++ ["..", "src"]

theorem mem_backAndForth (n : Nat) : ∀ s ∈ backAndForth n, s ∈ ["..", "src"] := by
  induction n with
  | zero => nofun
  | succ n ih => exact List.forall_mem_append.mpr ⟨ih, fun _ hs => hs⟩

theorem counts_backAndForth (n : Nat) : ∀ s ∈ backAndForth n, counts s = true := fun s hs =>
  (by decide : ∀ s ∈ ["..", "src"], counts s = true) s (mem_backAndForth n s hs)

theorem length_backAndForth (n : Nat) : (backAndForth n).length = 2 * n := by
  induction n with
  | zero => rfl
  | succ n ih =>
    rw [backAndForth, List.length_append, ih]
    rfl

/-- What the file is taken for after `n` turns. -/
def selfNamed (n : Nat) : ModuleFile :=
  ⟨⟨false, backAndForth n ++ ["lib.rs"]⟩, List.replicate n "a", true⟩

theorem length_identity_selfNamed (n : Nat) : (selfNamed n).path.identity.1 = 2 * n + 1 := by
  have hcounts : ∀ s ∈ backAndForth n ++ ["lib.rs"], counts s = true :=
    counts_append (counts_backAndForth n) (by decide)
  have hlead : (selfNamed n).path.lead = [] := lead_of_counts hcounts
  have hnames : (selfNamed n).path.names = backAndForth n ++ ["lib.rs"] := by
    rw [names_eq_filter]
    exact List.filter_eq_self.mpr hcounts
  rw [identity, normal, hlead, hnames, List.nil_append, List.length_append, length_backAndForth]
  rfl

/-- Going up and down leads to where it has started from. -/
theorem enter_backAndForth (n : Nat) : selfNaming.enter ["src"] (backAndForth n) = .ok ["src"] := by
  induction n with
  | zero => rfl
  | succ n ih =>
    have hturn : selfNaming.enter ["src"] ["..", "src"] = .ok ["src"] := by decide +kernel
    rw [backAndForth, enter_append, ih]
    exact hturn

theorem reach?_selfNamed (n : Nat) :
    selfNaming.reach? ((FilePath.ofText "/src").join (selfNamed n).path) =
      selfNaming.reach? (.ofText "/src/lib.rs") := by
  have hdown : selfNaming.enter [] ["src"] = .ok ["src"] := by decide +kernel
  have hnames : ∀ s ∈ ["..", "src", "lib.rs"], '\x00' ∉ s.toList := by decide
  have hsegments : ((FilePath.ofText "/src").join (selfNamed n).path).segments =
      ("src" :: backAndForth n) ++ ["lib.rs"] := rfl
  have hdirect : (FilePath.ofText "/src/lib.rs").segments = ["src"] ++ ["lib.rs"] := by decide
  refine reach?_congr hsegments hdirect (not_mem_text fun s hs => hnames s ?_) (by decide) ?_
  · rw [hsegments] at hs
    rcases List.mem_append.mp hs with hs | hs
    · rcases List.mem_cons.mp hs with rfl | hs
      · decide
      · exact List.mem_append_left ["lib.rs"] (mem_backAndForth n s hs)
    · exact List.mem_append_right ["..", "src"] hs
  · calc selfNaming.enter [] ("src" :: backAndForth n)
        = selfNaming.enter ["src"] (backAndForth n) := by rw [enter_cons, hdown]; rfl
      _ = .ok ["src"] := enter_backAndForth n
      _ = selfNaming.enter [] ["src"] := hdown.symm

theorem read_selfNamed (n : Nat) :
    selfNaming.unlimited.read ((FilePath.ofText "/src").join (selfNamed n).path) =
      .ok selfNamingText := by
  have hread : selfNaming.unlimited.read (.ofText "/src/lib.rs") = .ok selfNamingText := by
    decide +kernel
  simpa only [unlimited, reach?_selfNamed] using hread

/-- The modules that a text declares do not depend on where it stands. -/
theorem modules_ofText (file : String) (modulePath : List String) (text : String) :
    (Outline.ofText file modulePath text).modules = (Outline.ofText "" [] text).modules := by
  unfold Outline.ofText
  split <;> rfl

theorem modules_selfNaming (file : String) (modulePath : List String) :
    (Outline.ofText file modulePath selfNamingText).modules =
      [⟨"a", [], some "../src/lib.rs"⟩] := by
  rw [modules_ofText]
  decide +kernel

theorem candidates_selfNamed (n : Nat) :
    (selfNamed n).candidates ⟨"a", [], some "../src/lib.rs"⟩ = [selfNamed (n + 1)] := by
  have hparent : (selfNamed n).path.parent = ofSegments false (backAndForth n) :=
    parent_of_counts (counts_backAndForth n) (by decide)
  have hdirectory : (selfNamed n).directory? = some (ofSegments false (backAndForth n)) := by
    rw [← hparent]
    rfl
  have hgiven : FilePath.ofText "../src/lib.rs" = ⟨false, ["..", "src", "lib.rs"]⟩ := by decide
  rw [ModuleFile.candidates, hdirectory]
  simp only [List.isEmpty_nil, if_true, hparent, hgiven, join_ofSegments (counts_backAndForth n)]
  simp [selfNamed, backAndForth, List.replicate_succ']

/-- In each turn the file is come upon by a longer path. -/
theorem run_selfNaming (n : Nat) {k : Nat} {search : Search}
    (hpending : search.pending = [selfNamed k]) (hseen : ∀ x ∈ search.seen, x.1 ≤ 2 * k) :
    ∃ final, selfNaming.unlimited.run (.ofText "/src") n search = .ok final ∧
      final.pending = [selfNamed (k + n)] := by
  induction n generalizing k search with
  | zero => exact ⟨search, rfl, hpending⟩
  | succ n ih =>
    have hlength := length_identity_selfNamed k
    have hfresh : (selfNamed k).path.identity ∉ search.seen := fun hmem => by
      have := hseen _ hmem
      omega
    have hdue : search.due = [selfNamed k] := by
      rw [Search.due, hpending, List.dropWhile_cons_of_neg (by simpa using hfresh)]
    have hchild : selfNaming.unlimited.child? (.ofText "/src") (selfNamed k)
        ⟨"a", [], some "../src/lib.rs"⟩ = some (selfNamed (k + 1)) := by
      have hfile : selfNaming.unlimited.isFile
          ((FilePath.ofText "/src").join (selfNamed (k + 1)).path) = true := by
        have hfile : (selfNaming.reach? (.ofText "/src/lib.rs")).isSome = true := by decide +kernel
        rwa [← reach?_selfNamed (k + 1)] at hfile
      rw [Sources.child?, candidates_selfNamed]
      exact List.find?_cons_of_pos hfile
    rw [Sources.run_of_due_cons hdue, read_selfNamed, Nat.add_comm n, ← Nat.add_assoc]
    refine ih ?_ fun x hx => ?_
    · simp [Sources.after, modules_selfNaming, hchild]
    · rcases List.mem_cons.mp hx with rfl | hx
      · omega
      · have := hseen x hx
        omega

theorem not_ends_selfNaming : ∃ search,
    selfNaming.unlimited.start? (.ofText "/src") = some search ∧
    ¬ selfNaming.unlimited.Ends (.ofText "/src") search := by
  have hroot : (rootNames.find? fun name => selfNaming.unlimited.isFile
      ((FilePath.ofText "/src").push name)) = some "lib.rs" := by decide +kernel
  refine ⟨⟨[], [selfNamed 0], ⟨[], []⟩⟩, by rw [Sources.start?, hroot]; rfl, ?_⟩
  rintro ⟨n, hend⟩
  have hturns : ∃ final,
      selfNaming.unlimited.run (.ofText "/src") n ⟨[], [selfNamed 0], ⟨[], []⟩⟩ = .ok final ∧
      final.pending = [selfNamed (0 + n)] := run_selfNaming n rfl nofun
  obtain ⟨final, hrun, hpending⟩ := hturns
  rw [hrun] at hend
  rcases hend with ⟨e, he⟩ | ⟨last, hlast, hnone⟩
  · cases he
  · obtain rfl := Except.ok.inj hlast
    simp [hpending] at hnone

end Disk

end ComponentRegistry
