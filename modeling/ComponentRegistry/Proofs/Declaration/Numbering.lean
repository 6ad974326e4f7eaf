import ComponentRegistry.Proofs.Declaration.Spots

/-! The outline of a source file, read off the places of its items. One list of places, in the order of
the text, holds all declarations and all modules without body outside of test builds; the declarations
among them are numbered, and the modules are listed as they stand (`Outline.ofText_numbers`). What stands
in a module of test builds does not count. -/

namespace ComponentRegistry

open Grammar

namespace Outline

/-- The attribute is `path`, with a literal text as its value. -/
def GivesPath (a : Attribute) (path : String) : Prop :=
  a.path.is "path" = true ∧
    ∃ text, a.value = .value [.leaf (.literal text)] ∧ Literal.stringValue? text = some path

theorem pathValue?_eq_some {a : Attribute} {path : String} :
    pathValue? a = some path ↔ GivesPath a path := by
  unfold pathValue? GivesPath
  split
  next text hvalue =>
    rw [hvalue]
    split
    next hname => simp [hname]
    next hname => simp [hname]
  next hother =>
    refine ⟨nofun, ?_⟩
    rintro ⟨-, text, hvalue, -⟩
    exact absurd hvalue (hother text)

/-- The first path that attributes give, if any. -/
inductive FirstPath (attributes : List Attribute) : Option String → Prop
  | some {before after : List Attribute} {a : Attribute} {path : String} :
    attributes = before ++ a :: after → GivesPath a path →
    (∀ b ∈ before, ∀ other, ¬GivesPath b other) → FirstPath attributes (some path)
  | none : (∀ a ∈ attributes, ∀ path, ¬GivesPath a path) → FirstPath attributes none

theorem firstPath_findSome? (attributes : List Attribute) :
    FirstPath attributes (attributes.findSome? pathValue?) := by
  have hnone : ∀ {a : Attribute}, pathValue? a = Option.none → ∀ path, ¬GivesPath a path := by
    intro a ha path hpath
    rw [pathValue?_eq_some.mpr hpath] at ha
    cases ha
  cases hpath : attributes.findSome? pathValue? with
  | none => exact .none fun a ha => hnone (List.findSome?_eq_none_iff.mp hpath a ha)
  | some path =>
    obtain ⟨before, a, after, rfl, ha, hbefore⟩ := List.findSome?_eq_some_iff.mp hpath
    exact .some rfl (pathValue?_eq_some.mp ha) fun b hb => hnone (hbefore b hb)

/-- The spot is that of a module without body with this name, in these modules, and its first path. -/
def Declares (p : Spot) (decl : ModuleDecl) : Prop :=
  ∃ attributes name text, p.item = .submodule attributes name none text ∧
    decl.name = name.text ∧ decl.inline = names p.nest ∧ FirstPath attributes decl.path

/-- The outline numbers the declarations among these spots and lists the modules among them, and the
spots are those that are kept of some items, in the order of the text. -/
structure Numbers (file : String) (modulePath : List String) (items : List Item) (spots : List Spot)
    (outline : Outline) : Prop where
  ordered : (spots.map Spot.position).Pairwise (· < ·)
  mem (p : Spot) : p ∈ spots ↔ Stands items p.position p.nest p.item ∧ p.Kept
  nodes : outline.nodes = (spots.filter (isDeclaration ·.item)).zipIdx.map fun (p, ordinal) =>
    ⟨⟨file, ordinal⟩, modulePath ++ names p.nest, Tree.text p.item.text⟩
  modules : List.Forall₂ Declares (spots.filter (!isDeclaration ·.item)) outline.modules

theorem forall₂_modules {spots : List Spot} (h : ∀ p ∈ spots, p.Kept) :
    List.Forall₂ Declares (spots.filter (!isDeclaration ·.item))
      ((spots.map (Spot.reached [])).filterMap Reached.module?) := by
  induction spots with
  | nil => exact .nil
  | cons p spots ih =>
    obtain ⟨hp, hspots⟩ := List.forall_mem_cons.mp h
    obtain ⟨position, nest, item⟩ := p
    cases item with
    | declaration => exact ih hspots
    | other => exact ih hspots
    | submodule attributes name body text =>
      obtain ⟨rfl, -⟩ := hp.item _ _ _ _ rfl
      exact .cons ⟨attributes, name, text, rfl, rfl, rfl, firstPath_findSome? attributes⟩ (ih hspots)

theorem numbers_ofItems (file : String) (modulePath : List String) (items : List Item) :
    ∃ spots, Numbers file modulePath items spots (ofItems file modulePath items) := by
  obtain ⟨spots, hspots, hreached⟩ := reached_eq_spots items
  refine ⟨spots, hspots.ordered, hspots.mem, ?_, ?_⟩
  · simp only [ofItems, hreached, filterMap_item?, List.zipIdx_map, List.map_map]
    rfl
  · rw [ofItems, hreached]
    exact forall₂_modules fun p hp => ((hspots.mem p).mp hp).2

/-- The items differ in what stands in modules of test builds, at most. -/
inductive SameOutsideTests : List Item → List Item → Prop
  | nil : SameOutsideTests [] []
  | keep {item : Item} {rest rest' : List Item} : SameOutsideTests rest rest' →
    SameOutsideTests (item :: rest) (item :: rest')
  | inside {attributes : List Attribute} {name : Name} {text text' : Spelling}
    {body body' rest rest' : List Item} : SameOutsideTests body body' →
    SameOutsideTests rest rest' →
    SameOutsideTests (.submodule attributes name (some body) text :: rest)
      (.submodule attributes name (some body') text' :: rest')
  | test {attributes attributes' : List Attribute} {name name' : Name} {text text' : Spelling}
    {body body' : Option (List Item)} {rest rest' : List Item} : TestOnly attributes →
    TestOnly attributes' → SameOutsideTests rest rest' →
    SameOutsideTests (.submodule attributes name body text :: rest)
      (.submodule attributes' name' body' text' :: rest')

theorem reachedBy_of_testOnly {attributes : List Attribute} (h : TestOnly attributes)
    (inline : List String) (name : Name) (body : Option (List Item)) (text : Spelling) :
    reachedBy inline (.submodule attributes name body text) = [] := by
  cases body <;> rw [reachedBy, if_pos (testOnly_iff.mpr h)]

theorem reached_congr {items items' : List Item} (h : SameOutsideTests items items')
    (inline : List String) : reached inline items = reached inline items' := by
  induction h generalizing inline with
  | nil => rfl
  | keep _ ih => rw [reached, reached, ih]
  | inside _ _ ihBody ih => rw [reached, reached, reachedBy, reachedBy, ih, ihBody]
  | test htest htest' _ ih =>
    rw [reached, reached, reachedBy_of_testOnly htest, reachedBy_of_testOnly htest', ih]

/-- The outline of a source file numbers its declarations outside of modules of test builds from zero
on, in the order of the text, each in the module of the file and the modules with body around it, and
lists its modules without body in the same order. It does not depend on what stands in modules of test
builds. -/
theorem ofText_numbers {text : String} {items : List Item} (h : SourceFile.items? text = some items)
    (file : String) (modulePath : List String) :
    (∃ spots, Numbers file modulePath items spots (ofText file modulePath text)) ∧
    ∀ {text' items'}, SourceFile.items? text' = some items' → SameOutsideTests items items' →
      ofText file modulePath text' = ofText file modulePath text := by
  have htext : ofText file modulePath text = ofItems file modulePath items := by rw [ofText, h]
  refine ⟨htext ▸ numbers_ofItems file modulePath items, fun {text' items'} h' hsame => ?_⟩
  have htext' : ofText file modulePath text' = ofItems file modulePath items' := by rw [ofText, h']
  simp only [htext, htext', ofItems, reached_congr hsame]

/-- A file is a single module of test builds. -/
def isTestModule : List Item → Bool
  | [.submodule attributes _ _ _] => attributes.any isTestOnly
  | _ => false

theorem sameOutsideTests_of_isTestModule {items items' : List Item}
    (h : isTestModule items = true) (h' : isTestModule items' = true) :
    SameOutsideTests items items' := by
  unfold isTestModule at h h'
  split at h
  next =>
    split at h'
    next => exact .test (testOnly_iff.mp h) (testOnly_iff.mp h') .nil
    next => cases h'
  next => cases h

/-- A file with a module in which something of each kind stands. -/
def nestedText : String :=
  "struct A;mod r#m\x7bfn f();#[cfg(test)]mod t\x7bstruct T;mod u;\x7d#[path]#[path=\"p.rs\"]mod a;"
    ++ "enum B\x7b\x7d\x7dmod b;"

theorem ofText_numbers_nested :
    (∃ items spots, SourceFile.items? nestedText = some items ∧
      Numbers "lib.rs" ["x"] items spots (ofText "lib.rs" ["x"] nestedText)) ∧
    (ofText "lib.rs" ["x"] nestedText).nodes.map (fun node => (node.key, node.modulePath)) =
      [(⟨"lib.rs", 0⟩, ["x"]), (⟨"lib.rs", 1⟩, ["x", "m"]), (⟨"lib.rs", 2⟩, ["x", "m"])] ∧
    (ofText "lib.rs" ["x"] nestedText).modules = [⟨"a", ["m"], some "p.rs"⟩, ⟨"b", [], none⟩] ∧
    ofText "lib.rs" [] "#[cfg(test)]mod t\x7bstruct T;mod u;\x7d" =
      ofText "lib.rs" [] "#[cfg(test)]mod t\x7b\x7d" := by
  refine ⟨?_, by decide +kernel, by decide +kernel, ?_⟩
  · obtain ⟨items, hitems⟩ := Option.isSome_iff_exists.mp
      (show (SourceFile.items? nestedText).isSome = true by decide +kernel)
    obtain ⟨⟨spots, hspots⟩, -⟩ := ofText_numbers hitems "lib.rs" ["x"]
    exact ⟨items, spots, hitems, hspots⟩
  · have htest : ∀ text ∈ ["#[cfg(test)]mod t\x7bstruct T;mod u;\x7d", "#[cfg(test)]mod t\x7b\x7d"],
        (SourceFile.items? text).any isTestModule = true := by decide +kernel
    obtain ⟨full, hfull, hfullTest⟩ := (Option.any_eq_true ..).mp (htest _ List.mem_cons_self)
    obtain ⟨bare, hbare, hbareTest⟩ :=
      (Option.any_eq_true ..).mp (htest _ (List.mem_cons_of_mem _ List.mem_cons_self))
    exact (ofText_numbers hbare "lib.rs" []).2 hfull
      (sameOutsideTests_of_isTestModule hbareTest hfullTest)

end Outline

end ComponentRegistry
