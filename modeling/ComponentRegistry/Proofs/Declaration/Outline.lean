import ComponentRegistry.Proofs.Declaration.Spots
import ComponentRegistry.Proofs.Grammar.ModuleNames

/-! The outline of a source file. Each declaration of it is that of an item at a place of its own, in
the modules that this one stands in (`Outline.ofText_places`), and the modules without body have names
that can be written (`Outline.isName_of_modules`). -/

namespace ComponentRegistry

open Grammar Lexer

/-- An item holds another one at a position, which is inside these of its modules. -/
inductive Grammar.Item.Holds : Item → List Nat → List String → Item → Prop
  | self {item : Item} : Holds item [] [] item
  | inside {attributes : List Attribute} {name : Name} {body : List Item} {text : Spelling} {i : Nat}
    {next found : Item} {position : List Nat} {around : List String} : body[i]? = some next →
    Holds next position around found →
    Holds (.submodule attributes name (some body) text) (i :: position) (name.text :: around) found

namespace Outline

/-- An item of a file, where it stands, and the modules with body around it. -/
structure Place where
  position : List Nat
  around : List String
  item : Item

/-- The items of a list that start at a number have the place. -/
def HavePlace (start : Nat) (items : List Item) (p : Place) : Prop :=
  ∃ i position item, p.position = (start + i) :: position ∧ items[i]? = some item ∧
    item.Holds position p.around p.item

theorem holds_of_encloses {item found : Item} {position : List Nat} {nest : List Block}
    (h : item.Encloses position nest found) : item.Holds position (names nest) found := by
  induction h with
  | self => exact .self
  | inside hnext _ ih => exact .inside hnext ih

/-- The declarations of a file are those of items in it, in their order, each in the module of the
file and the modules with body around the item. -/
theorem ofText_places {file text : String} {modulePath : List String} {items : List Item}
    (h : SourceFile.items? text = some items) : ∃ places : List Place,
    (places.map Place.position).Pairwise (· < ·) ∧ (∀ p ∈ places, HavePlace 0 items p) ∧
    (ofText file modulePath text).nodes = places.zipIdx.map fun (p, ordinal) =>
      ⟨⟨file, ordinal⟩, modulePath ++ p.around, Tree.text p.item.text⟩ := by
  obtain ⟨spots, hordered, hspots, hnodes⟩ := nodes_eq_spots file modulePath items
  refine ⟨spots.map fun p => ⟨p.position, names p.nest, p.item⟩, ?_, fun _ hp => ?_, ?_⟩
  · rw [List.map_map]
    exact hordered
  · obtain ⟨p, hmem, rfl⟩ := List.mem_map.mp hp
    obtain ⟨⟨i, rest, item, hposition, hitem, hencloses⟩, -⟩ := (hspots p).mp hmem
    exact ⟨i, rest, item, by rw [Nat.zero_add]; exact hposition, hitem, holds_of_encloses hencloses⟩
  · simp only [ofText, h, hnodes, List.zipIdx_map, List.map_map]
    rfl

mutual

theorem isName_of_reachedBy {inline : List String} (hinline : ∀ name ∈ inline, IsName name)
    {item : Item} (hitem : item.Named) {decl : ModuleDecl}
    (h : .declared decl ∈ reachedBy inline item) :
    IsName decl.name ∧ ∀ name ∈ decl.inline, IsName name := by
  cases hitem with
  | declaration => simp [reachedBy] at h
  | other => simp [reachedBy] at h
  | @submodule attributes name body text hname hbody =>
    cases body with
    | none =>
      rw [reachedBy] at h
      split at h
      · cases h
      · obtain rfl := Reached.declared.inj (List.mem_singleton.mp h)
        exact ⟨hname, hinline⟩
    | some body =>
      rw [reachedBy] at h
      split at h
      · cases h
      · refine isName_of_reached (fun other hother => ?_) (hbody body rfl) h
        rcases List.mem_append.mp hother with hother | hother
        · exact hinline other hother
        · exact List.mem_singleton.mp hother ▸ hname

theorem isName_of_reached {inline : List String} (hinline : ∀ name ∈ inline, IsName name)
    {items : List Item} (hitems : ∀ item ∈ items, item.Named) {decl : ModuleDecl}
    (h : .declared decl ∈ reached inline items) :
    IsName decl.name ∧ ∀ name ∈ decl.inline, IsName name := by
  cases items with
  | nil => cases h
  | cons item rest =>
    rw [reached] at h
    rcases List.mem_append.mp h with h | h
    · exact isName_of_reachedBy hinline (hitems item List.mem_cons_self) h
    · exact isName_of_reached hinline (fun i hi => hitems i (List.mem_cons_of_mem _ hi)) h

end

/-- A module without body, and those with body around it, have names that can be written. -/
theorem isName_of_modules {file text : String} {modulePath : List String} {decl : ModuleDecl}
    (h : decl ∈ (ofText file modulePath text).modules) :
    IsName decl.name ∧ ∀ name ∈ decl.inline, IsName name := by
  unfold ofText at h
  split at h
  next items hitems =>
    obtain ⟨x, hx, hdecl⟩ := List.mem_filterMap.mp h
    cases x with
    | item => cases hdecl
    | declared found =>
      obtain rfl := Option.some.inj hdecl
      exact isName_of_reached (by simp) (SourceFile.named_items? hitems) hx
  next => cases h

end Outline

end ComponentRegistry
