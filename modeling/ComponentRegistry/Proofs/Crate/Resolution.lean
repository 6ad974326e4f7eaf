import ComponentRegistry.Proofs.Crate.DepthFirst
import ComponentRegistry.Proofs.Crate.TestBuilds

/-! Where modules without body are looked for. In a nest of modules with body, the search looks where the
language does, but for the paths that attributes give for these (`Disk.child?_eq_places`): it takes them
for their names alone. -/

namespace ComponentRegistry

open Grammar Lexer Text Outline FilePath

namespace Outline.Block

/-- The path that an attribute gives for a module with body. -/
def path? (b : Block) : Option String := b.attributes.findSome? pathValue?

/-- The module with nothing but its name. -/
def bare (b : Block) : Block := ⟨[], b.name⟩

/-- The directory for what stands in a module, if the module stands in one with this directory. -/
def enter (directory : FilePath) (b : Block) : FilePath :=
  match b.path? with
  | some path => directory.join (.ofText path)
  | none => directory.push b.name.text

theorem enter_of_none {b : Block} (h : b.path? = none) (directory : FilePath) :
    enter directory b = directory.push b.name.text := by
  rw [enter, h]

end Outline.Block

theorem Outline.names_bare (nest : List Block) : names (nest.map Block.bare) = names nest := by
  rw [names, List.map_map]
  rfl

/-- Modules without paths each add their name. -/
theorem Outline.foldl_enter {nest : List Block} (h : ∀ b ∈ nest, b.path? = none)
    (directory : FilePath) :
    nest.foldl Block.enter directory = (names nest).foldl push directory := by
  induction nest generalizing directory with
  | nil => rfl
  | cons b nest ih =>
    obtain ⟨hb, hnest⟩ := List.forall_mem_cons.mp h
    rw [List.foldl_cons, Block.enter_of_none hb]
    exact ih hnest _

namespace ModuleFile

variable {m : ModuleFile} {nest : List Block} {name : String} {path : Option String}

/-- The directory for the modules of a file: its own one if it owns that, else the one beside it that has
its name. -/
def start (m : ModuleFile) : FilePath :=
  if m.ownsDirectory then m.path.parent else m.path.parent.push (m.path.stem?.getD "")

/-- The directory for what stands in a nest of modules, the outermost first. The path of the first one
starts from the directory of the file, even if the file does not own it. -/
def nestDirectory (m : ModuleFile) : List Block → FilePath
  | [] => m.start
  | b :: nest =>
    nest.foldl Block.enter (b.enter (if b.path?.isSome then m.path.parent else m.start))

/-- The files that a module without body in a nest may stand in. -/
def places (m : ModuleFile) (nest : List Block) (name : String) (path : Option String) :
    List ModuleFile :=
  let directory := m.nestDirectory nest
  let modulePath := m.modulePath ++ names nest ++ [name]
  match path with
  | some path =>
    let base := if nest.isEmpty then m.path.parent else directory
    [⟨base.join (.ofText path), modulePath, true⟩]
  | none => [
      ⟨directory.push (name ++ ".rs"), modulePath, false⟩,
      ⟨(directory.push name).push "mod.rs", modulePath, true⟩]

theorem nestDirectory_of_none (h : ∀ b ∈ nest, b.path? = none) :
    m.nestDirectory nest = (names nest).foldl push m.start := by
  cases nest with
  | nil => rfl
  | cons b nest =>
    obtain ⟨hb, hnest⟩ := List.forall_mem_cons.mp h
    rw [nestDirectory, foldl_enter hnest, Block.enter_of_none hb, hb]
    rfl

theorem nestDirectory_bare (m : ModuleFile) (nest : List Block) :
    m.nestDirectory (nest.map Block.bare) = (names nest).foldl push m.start := by
  rw [nestDirectory_of_none, names_bare]
  intro b hb
  obtain ⟨_, -, rfl⟩ := List.mem_map.mp hb
  rfl

/-- Without paths on the modules with body, nothing but their names counts. -/
theorem places_bare (h : ∀ b ∈ nest, b.path? = none) :
    m.places (nest.map Block.bare) name path = m.places nest name path := by
  unfold places
  rw [nestDirectory_bare, nestDirectory_of_none h, names_bare, List.isEmpty_map]

theorem candidates_eq_places (h : m.directory? = some m.start) :
    m.candidates ⟨name, names nest, path⟩ = m.places (nest.map Block.bare) name path := by
  have hempty : (names nest).isEmpty = nest.isEmpty := List.isEmpty_map
  unfold candidates places
  rewrite [h, nestDirectory_bare, names_bare, List.isEmpty_map, ← hempty]
  rfl

/-- The file of a module owns its directory if an attribute gives its path, or if it is the one with
the name of modules in a directory. -/
theorem ownsDirectory_of_places {c : ModuleFile} (hc : c ∈ m.places nest name path)
    (hmod : name ≠ "mod") :
    c.ownsDirectory = true ↔ path.isSome = true ∨ c.path.fileName? = some "mod.rs" := by
  cases path with
  | some path =>
    obtain rfl := List.mem_singleton.mp hc
    simp
  | none =>
    rcases List.mem_cons.mp hc with rfl | hc
    · obtain ⟨hcounts, hup⟩ := counts_append_rs name
      have hsplit : "mod.rs" = "mod" ++ ".rs" := rfl
      have hne : name ++ ".rs" ≠ "mod.rs" := fun h =>
        hmod ((String.append_left_inj _).mp (h.trans hsplit))
      simp [fileName?_push hcounts hup, hne]
    · obtain rfl := List.mem_singleton.mp hc
      simp [fileName?_push (show counts "mod.rs" = true by decide)]

/-- A file that does not own its directory has the name of a module. -/
theorem directory?_eq_of_candidates {decl : ModuleDecl} (hname : decl.name ≠ "") {c : ModuleFile}
    (hc : c ∈ m.candidates decl) : c.directory? = some c.start := by
  have hcases : c.ownsDirectory = true ∨ ∃ directory : FilePath,
      c.path = directory.push (decl.name ++ ".rs") := by
    unfold candidates at hc
    split at hc
    next => cases hc
    next =>
      dsimp only at hc
      split at hc
      next =>
        obtain rfl := List.mem_singleton.mp hc
        exact .inl rfl
      next =>
        rcases List.mem_cons.mp hc with rfl | hc
        · exact .inr ⟨_, rfl⟩
        · obtain rfl := List.mem_singleton.mp hc
          exact .inl rfl
  rcases hcases with howns | ⟨directory, hpath⟩
  · rw [directory?, start, if_pos howns, if_pos howns]
  · obtain ⟨hcounts, hup⟩ := counts_append_rs decl.name
    have hstem : c.path.stem? = some decl.name := by
      rw [stem?, hpath, fileName?_push hcounts hup, Option.map_some, stemOf_append_rs hname]
    rw [directory?, start, hstem]
    split <;> rfl

end ModuleFile

namespace Sources

variable {s : Sources} {directory : FilePath} {n : Nat} {search final : Search} {m c : ModuleFile}

/-- A file that is followed has a directory for its modules. -/
theorem Follows.directory?_eq (h : s.Follows directory m) : m.directory? = some m.start := by
  cases h with
  | root => rfl
  | child _ _ hdecl hchild =>
    have hname := (counts_of_isName (Outline.isName_of_modules hdecl).1).2.1
    exact ModuleFile.directory?_eq_of_candidates hname (List.mem_of_find?_eq_some hchild)

/-- What the search has come to at the end are the files that it has visited. -/
theorem mem_seen_of_run (h : s.run directory n search = .ok final) {x : Nat × FilePath}
    (hx : x ∈ final.seen) :
    x ∈ search.seen ∨ ∃ m ∈ s.visits directory n search, m.path.identity = x := by
  induction n generalizing search with
  | zero =>
    obtain rfl := Except.ok.inj h
    exact .inl hx
  | succ n ih =>
    rcases run_succ_cases h with ⟨-, rfl⟩ | ⟨m, rest, text, hdue, hread, hrun⟩
    · exact .inl hx
    · rw [visits_of_due_cons hdue hread]
      rcases ih hrun with hseen | ⟨m', hm', hidentity⟩
      · rcases List.mem_cons.mp hseen with rfl | hseen
        · exact .inr ⟨m, List.mem_cons_self, rfl⟩
        · exact .inl hseen
      · exact .inr ⟨m', List.mem_cons_of_mem _ hm', hidentity⟩

/-- A file that is found for a module of a visited file has been come to at the end. -/
theorem identity_mem_seen_of_visits (hrun : s.run directory n search = .ok final)
    (hend : final.pending = []) (hm : m ∈ s.visits directory n search) {text : String}
    (hread : s.read (directory.join m.path) = .ok text) {decl : ModuleDecl}
    (hdecl : decl ∈ (Outline.ofText m.path.key m.modulePath text).modules)
    (hc : s.child? directory m decl = some c) : c.path.identity ∈ final.seen := by
  induction n generalizing search with
  | zero => simp [visits] at hm
  | succ n ih =>
    rcases run_succ_cases hrun with ⟨hdue, rfl⟩ | ⟨first, rest, first_text, hdue, hfirst, hrest⟩
    · simp [visits_of_due_nil hdue] at hm
    · rw [visits_of_due_cons hdue hfirst] at hm
      rcases List.mem_cons.mp hm with rfl | hm
      · obtain rfl := Except.ok.inj (hread.symm.trans hfirst)
        exact identity_child?_mem_seen hrest hend hdecl hc
      · exact ih hrest hm

end Sources

namespace Disk

variable {d : Disk} {root : FilePath} {corpus : Corpus} {m : ModuleFile}

theorem follows_of_visited : ∀ m ∈ d.visited root, d.sources.Follows root m :=
  visited_induction (fun _ hroot => .root hroot)
    fun _ hm _ hread _ hdecl _ hchild => .child hm hread hdecl hchild

/-- A file that is found for a module of a visited file is visited, if perhaps as another module. -/
theorem exists_visited_of_child (h : d.corpus root = .ok corpus) (hm : m ∈ d.visited root)
    {text : String} (hread : d.sources.read (root.join m.path) = .ok text) {decl : ModuleDecl}
    (hdecl : decl ∈ (Outline.ofText m.path.key m.modulePath text).modules) {c : ModuleFile}
    (hc : d.sources.child? root m decl = some c) :
    ∃ m' ∈ d.visited root, m'.path.identity = c.path.identity := by
  obtain ⟨search, final, hstart, hrun, -⟩ := corpus_eq_ok h
  obtain ⟨-, hseen, hfiles⟩ := reads_start hstart
  rw [visited_eq hstart] at hm ⊢
  have hend := pending_eq_nil hseen hfiles hrun
  have hmem := Sources.identity_mem_seen_of_visits hrun hend hm hread hdecl hc
  refine (Sources.mem_seen_of_run hrun hmem).resolve_left ?_
  simp [hseen]

/-- Each module without body is looked for where the language looks for it, if the modules with body
around it had no attributes: the first of these places at which there is a file is followed. For modules
with body whose paths are not given by attributes, this is where the language looks. -/
theorem child?_eq_places (h : d.corpus root = .ok corpus) (hm : m ∈ d.visited root) {text : String}
    (hread : d.sources.read (root.join m.path) = .ok text) {items : List Item}
    (hitems : SourceFile.items? text = some items) {position : List Nat} {nest : List Block}
    {attributes : List Attribute} {name : Name} {spelling : Spelling}
    (hstands : Stands items position nest (.submodule attributes name none spelling))
    (hregular : (∀ b ∈ nest, ¬TestOnly b.attributes) ∧ ¬TestOnly attributes) :
    let path := attributes.findSome? pathValue?
    let child? := d.sources.child? root m ⟨name.text, names nest, path⟩
    ⟨name.text, names nest, path⟩ ∈ d.sources.modulesIn root m ∧
    (m.ownsDirectory = false → m.path.stem?.isSome = true) ∧
    child? = (m.places (nest.map Block.bare) name.text path).find? (d.isFile <| root.join ·.path) ∧
    ((∀ b ∈ nest, b.path? = none) →
      child? = (m.places nest name.text path).find? (d.isFile <| root.join ·.path)) ∧
    ∀ c, child? = some c → (∃ m' ∈ d.visited root, m'.path.identity = c.path.identity) ∧
      (name.text ≠ "mod" →
        (c.ownsDirectory = true ↔ path.isSome = true ∨ c.path.fileName? = some "mod.rs")) := by
  intro path child?
  have hdecl : ⟨name.text, names nest, path⟩ ∈
      (Outline.ofText m.path.key m.modulePath text).modules := mem_modules_ofText_iff.mpr
    ⟨items, position, nest, attributes, name, spelling, hitems, hstands, hregular.1, hregular.2, rfl⟩
  have hstart : m.directory? = some m.start := (follows_of_visited m hm).directory?_eq
  have hchild : child? = (m.places (nest.map Block.bare) name.text path).find?
      (d.isFile <| root.join ·.path) := by
    rw [← ModuleFile.candidates_eq_places hstart]
    rfl
  refine ⟨?_, fun howns => ?_, hchild, fun hpaths => ?_, fun c hc => ⟨?_, fun hmod => ?_⟩⟩
  · rwa [Sources.modulesIn, hread]
  · rw [ModuleFile.directory?, howns] at hstart
    obtain ⟨stem, hstem, -⟩ := Option.map_eq_some_iff.mp hstart
    rw [hstem]
    rfl
  · rw [hchild, ModuleFile.places_bare hpaths]
  · exact exists_visited_of_child h hm hread hdecl hc
  · rw [hchild] at hc
    exact ModuleFile.ownsDirectory_of_places (List.mem_of_find?_eq_some hc) hmod

/-- A text that is a module with body, and another one in it. -/
def isNested (outer : String) (outerPath : Option String) (inner : String) (path : Option String) :
    List Item → Bool
  | [.submodule attributes name (some [.submodule attributes' name' none _]) _] =>
    name.text == outer && !attributes.any isTestOnly && attributes.findSome? pathValue? == outerPath &&
      name'.text == inner && !attributes'.any isTestOnly && attributes'.findSome? pathValue? == path
  | _ => false

theorem stands_of_isNested {outer inner : String} {outerPath path : Option String}
    {items : List Item} (h : isNested outer outerPath inner path items = true) :
    ∃ b attributes name spelling, Stands items [0, 0] [b] (.submodule attributes name none spelling) ∧
      (b.name.text = outer ∧ b.path? = outerPath ∧ ¬TestOnly b.attributes) ∧
      name.text = inner ∧ attributes.findSome? pathValue? = path ∧ ¬TestOnly attributes := by
  unfold isNested at h
  split at h
  next attributes name attributes' name' spelling text =>
    simp only [Bool.and_eq_true, beq_iff_eq, Bool.not_eq_true'] at h
    obtain ⟨⟨⟨⟨⟨houter, htest⟩, hpath⟩, hinner⟩, htest'⟩, hpath'⟩ := h
    have hregular : ∀ {attributes : List Attribute}, attributes.any isTestOnly = false →
        ¬TestOnly attributes := fun hno htest => by simp [testOnly_iff.mpr htest] at hno
    refine ⟨⟨attributes, name⟩, attributes', name', spelling, ?_, ⟨houter, hpath, hregular htest⟩,
      hinner, hpath', hregular htest'⟩
    exact ⟨0, [0], _, rfl, rfl, .inside rfl .self⟩
  next => cases h

def pathInsideText : String := "mod m\x7b#[path=\"q.rs\"]mod a;\x7d"

/-- A crate with a module in another one, for which an attribute gives a path. -/
def pathInside : Disk :=
  Build.addFile (Build.addFile .empty "/src/lib.rs" pathInsideText) "/src/m/q.rs" "struct A;"

theorem child?_pathInside : ∃ b : Block, b.path? = none ∧ b.name.text = "m" ∧
    let m := ModuleFile.root "lib.rs"
    let places := m.places [b] "a" (some "q.rs")
    m ∈ pathInside.visited (.ofText "/src") ∧
    pathInside.sources.child? (.ofText "/src") m ⟨"a", ["m"], some "q.rs"⟩ =
      places.find? (pathInside.isFile <| (FilePath.ofText "/src").join ·.path) ∧
    places = [⟨.ofText "m/q.rs", ["m", "a"], true⟩] := by
  have hm : ModuleFile.root "lib.rs" ∈ pathInside.visited (.ofText "/src") := by decide +kernel
  have hread : pathInside.sources.read ((FilePath.ofText "/src").join (.ofName "lib.rs")) =
      .ok pathInsideText := by decide +kernel
  have htext : (SourceFile.items? pathInsideText).any (isNested "m" none "a" (some "q.rs")) = true := by
    decide +kernel
  obtain ⟨items, hitems, hnested⟩ := (Option.any_eq_true ..).mp htext
  obtain ⟨b, attributes, name, spelling, hstands, ⟨hb, hnone, hregular⟩, hname, hpath, hregular'⟩ :=
    stands_of_isNested hnested
  obtain ⟨corpus, hcorpus, -⟩ : ∃ corpus, pathInside.corpus (.ofText "/src") = .ok corpus ∧
      ((Session.start {}).after [.run corpus.nodes]).accepted.members = [] :=
    exists_of_accepted (by decide +kernel)
  obtain ⟨-, -, -, hplaces, -⟩ := child?_eq_places hcorpus hm hread hitems hstands
    ⟨List.forall_mem_singleton.mpr hregular, hregular'⟩
  have hchild := hplaces (List.forall_mem_singleton.mpr hnone)
  have hnames : names [b] = ["m"] := congrArg (fun name => [name]) hb
  rw [hname, hnames, hpath] at hchild
  have hdirectory : (ModuleFile.root "lib.rs").nestDirectory [b] = .ofText "m" := by
    rw [ModuleFile.nestDirectory_of_none (List.forall_mem_singleton.mpr hnone), hnames]
    decide +kernel
  refine ⟨b, hnone, hb, hm, hchild, ?_⟩
  rw [ModuleFile.places, hdirectory, hnames]
  show [(⟨(FilePath.ofText "m").join (.ofText "q.rs"), ["m", "a"], true⟩ : ModuleFile)] = _
  decide +kernel

def pathAroundText : String := "#[path=\"p\"]mod m{mod a;}"

/-- A crate with a module in another one, for which an attribute gives a path to that one. -/
def pathAround : Disk := Build.addFile (Build.addFile .empty "/src/lib.rs" pathAroundText)
  "/src/p/a.rs" "#[Component]struct A;"

/-- The language follows the module to the directory that the attribute names, and the search passes it
over. -/
theorem child?_pathAround : ∃ items b attributes name spelling,
    SourceFile.items? pathAroundText = some items ∧
    Stands items [0, 0] [b] (.submodule attributes name none spelling) ∧ b.path? = some "p" ∧
    let m := ModuleFile.root "lib.rs"
    let path := attributes.findSome? pathValue?
    m ∈ pathAround.visited (.ofText "/src") ∧
    (m.places [b] name.text path).find? (pathAround.isFile <| (FilePath.ofText "/src").join ·.path) =
      some ⟨.ofText "p/a.rs", ["m", "a"], false⟩ ∧
    pathAround.sources.child? (.ofText "/src") m ⟨name.text, names [b], path⟩ = none ∧
    pathAround.corpus (.ofText "/src") = .ok ⟨[.ofText "/src/lib.rs"], []⟩ := by
  have htext : (SourceFile.items? pathAroundText).any (isNested "m" (some "p") "a" none) = true := by
    decide +kernel
  obtain ⟨items, hitems, hnested⟩ := (Option.any_eq_true ..).mp htext
  obtain ⟨b, attributes, name, spelling, hstands, ⟨hb, hpath, -⟩, hname, hnone, -⟩ :=
    stands_of_isNested hnested
  have hnames : names [b] = ["m"] := congrArg (fun name => [name]) hb
  refine ⟨items, b, attributes, name, spelling, hitems, hstands, hpath, by decide +kernel, ?_, ?_,
    by decide +kernel⟩
  · have hdirectory : (ModuleFile.root "lib.rs").nestDirectory [b] = .ofText "p" := by
      rw [ModuleFile.nestDirectory, List.foldl_nil, Block.enter, hpath]
      show (ModuleFile.root "lib.rs").path.parent.join (.ofText "p") = _
      decide +kernel
    rw [hname, hnone, ModuleFile.places, hdirectory, hnames]
    decide +kernel
  · rw [hname, hnames, hnone]
    decide +kernel

end Disk

end ComponentRegistry
