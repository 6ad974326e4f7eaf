import ComponentRegistry.Proofs.Crate.Placement
import ComponentRegistry.Proofs.Generation.Origins

/-! Modules of test builds. Whatever is accepted of a crate has a route from its root on which no module
is one of test builds, with or without body (`Disk.accepted_outside_tests`). The attribute counts only
on modules. -/

namespace ComponentRegistry

open Grammar Outline

namespace Sources

variable {s : Sources} {directory : FilePath} {m : ModuleFile}

/-- Declarations lead from the root of a crate to a file, through these modules, the outermost
first. -/
inductive Route (s : Sources) (directory : FilePath) : ModuleFile → List Block → Prop
  | root {name : String} :
    (rootNames.find? fun name => s.isFile (directory.push name)) = some name →
    Route s directory (.root name) []
  | declared {m child : ModuleFile} {passed nest : List Block} {text : String} {items : List Item}
    {position : List Nat} {attributes : List Attribute} {name : Name} {spelling : Spelling} :
    Route s directory m passed → s.read (directory.join m.path) = .ok text →
    SourceFile.items? text = some items →
    Stands items position nest (.submodule attributes name none spelling) →
    s.child? directory m ⟨name.text, names nest, attributes.findSome? pathValue?⟩ = some child →
    Route s directory child (passed ++ nest ++ [⟨attributes, name⟩])

/-- A route to a file outside of all modules of test builds. -/
def Regular (s : Sources) (directory : FilePath) (m : ModuleFile) : Prop :=
  ∃ passed, s.Route directory m passed ∧ ∀ b ∈ passed, ¬TestOnly b.attributes

/-- The search goes on only to modules that are none of test builds. -/
theorem Regular.child {text : String} {decl : ModuleDecl} {child : ModuleFile}
    (h : s.Regular directory m) (hread : s.read (directory.join m.path) = .ok text)
    (hdecl : decl ∈ (Outline.ofText m.path.key m.modulePath text).modules)
    (hchild : s.child? directory m decl = some child) : s.Regular directory child := by
  obtain ⟨passed, hroute, hpassed⟩ := h
  obtain ⟨items, position, nest, attributes, name, spelling, hitems, hstands, hnest, hregular, rfl⟩ :=
    mem_modules_ofText_iff.mp hdecl
  refine ⟨_, hroute.declared hread hitems hstands hchild, fun b hb => ?_⟩
  rcases List.mem_append.mp hb with hb | hb
  · rcases List.mem_append.mp hb with hb | hb
    · exact hpassed b hb
    · exact hnest b hb
  · obtain rfl := List.mem_singleton.mp hb
    exact hregular

end Sources

namespace Disk

variable {d : Disk} {root : FilePath} {corpus : Corpus}

theorem regular_of_visited : ∀ m ∈ d.visited root, d.sources.Regular root m :=
  visited_induction (fun _ hroot => ⟨[], .root hroot, by simp⟩)
    fun _ hm _ hread _ hdecl _ hchild => hm.child hread hdecl hchild

/-- Each component that is accepted of a crate is a declaration in a file of it. To each of these files
there is a route on which no module is one of test builds, and its declarations are just those that stand
in no module of test builds with body. A session that has made passes before must not have observed two
declarations that it cannot tell apart. -/
theorem accepted_outside_tests (h : d.corpus root = .ok corpus) (config : Config) (calls : List Call)
    (hcalls : calls = [] ∨ DistinctPrints (calls.flatMap Call.observed ++ corpus.nodes)) :
    (∀ c ∈ ((Session.start config).after (calls ++ [.run corpus.nodes])).accepted.members,
      ∃ m ∈ d.visited root, ∃ node ∈ d.sources.nodesIn root m, node.descriptor? = some c) ∧
    ∀ m ∈ d.visited root, ∃ passed text, d.sources.Route root m passed ∧
      (∀ b ∈ passed, ¬TestOnly b.attributes) ∧ d.sources.read (root.join m.path) = .ok text ∧
      match SourceFile.items? text with
      | none => d.sources.nodesIn root m = [⟨⟨m.path.key, 0⟩, m.modulePath, text⟩]
      | some items => ∃ spots : List Spot,
        (spots.map Spot.position).Pairwise (· < ·) ∧
        (∀ p, p ∈ spots ↔ Stands items p.position p.nest p.item ∧ isDeclaration p.item = true ∧
          ∀ b ∈ p.nest, ¬TestOnly b.attributes) ∧
        d.sources.nodesIn root m = spots.zipIdx.map fun (p, ordinal) =>
          ⟨⟨m.path.key, ordinal⟩, m.modulePath ++ names p.nest, Tree.text p.item.text⟩ := by
  obtain ⟨-, hnodes⟩ := found_of_corpus h
  refine ⟨fun c hc => ?_, fun m hm => ?_⟩
  · obtain ⟨node, hnode, known, hknown, hprint, hdescriptor⟩ := Session.accepted_run config calls _ hc
    have hmem : known ∈ corpus.nodes := by
      rcases hcalls with rfl | hdistinct
      · exact hknown
      · exact hdistinct.eq hknown (List.mem_append_right _ hnode) hprint ▸ hnode
    obtain ⟨m, hm, hin⟩ := List.mem_flatMap.mp (hnodes ▸ hmem)
    exact ⟨m, hm, known, hin, hdescriptor⟩
  · obtain ⟨passed, hroute, hpassed⟩ := regular_of_visited m hm
    obtain ⟨text, hread⟩ := read_of_visited h hm
    refine ⟨passed, text, hroute, hpassed, hread, ?_⟩
    have hin : d.sources.nodesIn root m = (Outline.ofText m.path.key m.modulePath text).nodes := by
      rw [Sources.nodesIn, hread]
    rw [hin, Outline.ofText]
    cases SourceFile.items? text with
    | none => rfl
    | some items => exact nodes_eq_spots ..

theorem exists_of_accepted {ds : List Descriptor} (h : ((d.corpus root).map fun corpus =>
      ((Session.start {}).after [.run corpus.nodes]).accepted.members) = .ok ds) :
    ∃ corpus, d.corpus root = .ok corpus ∧
      ((Session.start {}).after [.run corpus.nodes]).accepted.members = ds := by
  cases hcorpus : d.corpus root with
  | error e =>
    rw [hcorpus] at h
    cases h
  | ok corpus =>
    rw [hcorpus] at h
    exact ⟨corpus, rfl, Except.ok.inj h⟩

/-- A crate with modules of test builds: one with body, one without, and one in another file. -/
def testModules : Disk :=
  Build.addFile (Build.addFile (Build.addFile (Build.addFile .empty "/src/lib.rs"
    "mod a{#![cfg(test)]mod x;#[Component]struct A;}#[cfg(test)]mod b;mod c;") "/src/b.rs"
    "#[Component]struct B;") "/src/a/x.rs" "#[Component]struct X;") "/src/c.rs"
    "#[cfg(test)]mod d{#[Component]struct D;}#[Component]struct C;"

theorem accepted_testModules : ∃ corpus, testModules.corpus (.ofText "/src") = .ok corpus ∧
    ((Session.start {}).after [.run corpus.nodes]).accepted.members = [⟨"C", ["c"], false⟩] ∧
    ∃ m ∈ testModules.visited (.ofText "/src"), ∃ node ∈ testModules.sources.nodesIn (.ofText "/src") m,
      node.descriptor? = some ⟨"C", ["c"], false⟩ := by
  obtain ⟨corpus, hcorpus, hmembers⟩ : ∃ corpus, testModules.corpus (.ofText "/src") = .ok corpus ∧
      ((Session.start {}).after [.run corpus.nodes]).accepted.members = [⟨"C", ["c"], false⟩] :=
    exists_of_accepted (by decide +kernel)
  refine ⟨corpus, hcorpus, hmembers, (accepted_outside_tests hcorpus {} [] (.inl rfl)).1 _ ?_⟩
  rw [List.nil_append, hmembers]
  exact List.mem_cons_self

/-- A declaration with the attribute of test builds. -/
def isTestDeclaration : Item → Bool
  | .declaration attributes _ _ _ _ => attributes.any isTestOnly
  | _ => false

def testStructText : String := "#[cfg(test)]#[Component]struct A;"

/-- A component that is declared for test builds, in no module of them. -/
def testStruct : Disk := Build.addFile .empty "/src/lib.rs" testStructText

/-- The attribute of a declaration itself does not keep it from being accepted. -/
theorem accepted_testStruct : ∃ corpus, testStruct.corpus (.ofText "/src") = .ok corpus ∧
    (∃ attributes kind name generic spelling, SourceFile.items? testStructText =
      some [.declaration attributes kind name generic spelling] ∧ TestOnly attributes) ∧
    ((Session.start {}).after [.run corpus.nodes]).accepted.members = [⟨"A", [], false⟩] := by
  obtain ⟨corpus, hcorpus, hmembers⟩ : ∃ corpus, testStruct.corpus (.ofText "/src") = .ok corpus ∧
      ((Session.start {}).after [.run corpus.nodes]).accepted.members = [⟨"A", [], false⟩] :=
    exists_of_accepted (by decide +kernel)
  refine ⟨corpus, hcorpus, ?_, hmembers⟩
  have htest : (SourceFile.items? testStructText).map (·.map isTestDeclaration) = some [true] := by
    decide +kernel
  obtain ⟨items, hitems, htest⟩ := Option.map_eq_some_iff.mp htest
  obtain ⟨item, rfl, hitem⟩ := List.map_eq_singleton_iff.mp htest
  cases item with
  | declaration attributes kind name generic spelling =>
    exact ⟨attributes, kind, name, generic, spelling, hitems, testOnly_iff.mp hitem⟩
  | submodule | other => cases hitem

end Disk

end ComponentRegistry
