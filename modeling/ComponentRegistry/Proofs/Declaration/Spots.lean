import ComponentRegistry.Declaration.Outline
import ComponentRegistry.Proofs.Grammar.ReadNames

/-! Where the items of a source file stand, and inside which modules with body. The walk through a file
reaches each item that stands outside of all modules of test builds, and nothing else
(`Outline.reached_eq_spots`). -/

namespace ComponentRegistry

open Grammar

namespace Outline

/-- A module with body, without what stands in it. -/
structure Block where
  attributes : List Attribute
  name : Name

/-- One of the attributes is `cfg` with nothing but the word `test`. -/
def TestOnly (attributes : List Attribute) : Prop :=
  ∃ a ∈ attributes, a.path.is "cfg" = true ∧
    ∃ delimiter, a.value = .list delimiter [.leaf (.word false "test")]

theorem readAll_name_eq_some {trees : List Tree} : (readAll (fun _ => Reader.name) trees).toOption =
    some ⟨false, "test"⟩ ↔ trees = [.leaf (.word false "test")] := by
  constructor
  · intro h
    unfold readAll Reader.runAll at h
    split at h
    next n hread =>
      obtain rfl := Option.some.inj h
      exact (Reader.name_word hread).1
    next => cases h
    next => cases h
  · rintro rfl
    rfl

/-- The attributes that the walk looks for are those of test builds. -/
theorem testOnly_iff {attributes : List Attribute} :
    attributes.any isTestOnly = true ↔ TestOnly attributes := by
  rw [List.any_eq_true]
  refine exists_congr fun a => and_congr_right fun _ => ?_
  rw [isTestOnly, Bool.and_eq_true]
  refine and_congr_right fun _ => ?_
  cases a.value with
  | none => simp
  | value trees => simp
  | list delimiter trees => simp [readAll_name_eq_some]

end Outline

/-- An item holds another one at a position, inside these of its modules. -/
inductive Grammar.Item.Encloses : Item → List Nat → List Outline.Block → Item → Prop
  | self {item : Item} : Encloses item [] [] item
  | inside {attributes : List Attribute} {name : Name} {body : List Item} {text : Spelling} {i : Nat}
    {next found : Item} {position : List Nat} {nest : List Outline.Block} : body[i]? = some next →
    Encloses next position nest found →
    Encloses (.submodule attributes name (some body) text) (i :: position)
      (⟨attributes, name⟩ :: nest) found

namespace Outline

/-- The items of a file hold an item at a position, inside these modules. -/
def Stands (items : List Item) (position : List Nat) (nest : List Block) (found : Item) : Prop :=
  ∃ i rest item, position = i :: rest ∧ items[i]? = some item ∧ item.Encloses rest nest found

def names (nest : List Block) : List String := nest.map (·.name.text)

/-- An item of a file, where it stands, and the modules with body around it. -/
structure Spot where
  position : List Nat
  nest : List Block
  item : Item

namespace Spot

/-- The spot as one inside an item with this number. -/
def within (i : Nat) (p : Spot) : Spot := { p with position := i :: p.position }

/-- The spot as one inside a module. -/
def inBlock (b : Block) (p : Spot) : Spot := { p with nest := b :: p.nest }

/-- What the walk makes of an item in a module `inline`. -/
def reached (inline : List String) (p : Spot) : Reached :=
  match p.item with
  | .submodule attributes name _ _ =>
    .declared ⟨name.text, inline ++ names p.nest, attributes.findSome? pathValue?⟩
  | .declaration _ _ _ _ text => .item (inline ++ names p.nest) text
  | .other text => .item (inline ++ names p.nest) text

/-- There is something to reach, and no module of test builds around it. -/
structure Kept (p : Spot) : Prop where
  nest : ∀ b ∈ p.nest, ¬TestOnly b.attributes
  item : ∀ attributes name body text, p.item = .submodule attributes name body text →
    body = none ∧ ¬TestOnly attributes

theorem kept_within {i : Nat} {p : Spot} : (p.within i).Kept ↔ p.Kept :=
  ⟨fun h => ⟨h.nest, h.item⟩, fun h => ⟨h.nest, h.item⟩⟩

theorem kept_inBlock {b : Block} {p : Spot} :
    (p.inBlock b).Kept ↔ ¬TestOnly b.attributes ∧ p.Kept := by
  refine ⟨fun h => ?_, fun h => ⟨List.forall_mem_cons.mpr ⟨h.1, h.2.nest⟩, h.2.item⟩⟩
  obtain ⟨hb, hnest⟩ := List.forall_mem_cons.mp h.nest
  exact ⟨hb, hnest, h.item⟩

theorem reached_inBlock (inline : List String) (b : Block) (p : Spot) :
    (p.inBlock b).reached inline = p.reached (inline ++ [b.name.text]) := by
  unfold reached
  simp [inBlock, names]

/-- An item that is no module with body holds nothing but itself. -/
theorem mem_self_iff {item : Item} {p : Spot}
    (h : ∀ {position nest found}, item.Encloses position nest found →
      position = [] ∧ nest = [] ∧ found = item) :
    p ∈ [(⟨[], [], item⟩ : Spot)] ↔ item.Encloses p.position p.nest p.item := by
  obtain ⟨position, nest, found⟩ := p
  rw [List.mem_singleton]
  constructor
  · rintro ⟨⟩
    exact .self
  · intro hencloses
    obtain ⟨rfl, rfl, rfl⟩ := h hencloses
    rfl

/-- What stands in a module with body has the module around it. -/
theorem encloses_inBlock {attributes : List Attribute} {name : Name} {body : List Item}
    {text : Spelling} {p : Spot} (hp : p.Kept) :
    (Item.submodule attributes name (some body) text).Encloses p.position p.nest p.item ↔
      ∃ q : Spot, Stands body q.position q.nest q.item ∧ q.inBlock ⟨attributes, name⟩ = p := by
  obtain ⟨position, nest, found⟩ := p
  constructor
  · intro h
    cases h with
    | self => cases (hp.item _ _ _ _ rfl).1
    | @inside _ _ _ _ i next _ rest nest hnext hrest =>
      exact ⟨⟨i :: rest, nest, found⟩, ⟨i, rest, next, rfl, hnext, hrest⟩, rfl⟩
  · rintro ⟨q, ⟨i, rest, next, hposition, hnext, hrest⟩, ⟨⟩⟩
    rw [hposition]
    exact .inside hnext hrest

end Spot

/-- These are the spots with a property that are kept, in the order of the text. -/
structure Enumerates (spots : List Spot) (P : List Nat → List Block → Item → Prop) : Prop where
  ordered : (spots.map Spot.position).Pairwise (· < ·)
  mem (p : Spot) : p ∈ spots ↔ P p.position p.nest p.item ∧ p.Kept

theorem enumerates_nil {P : List Nat → List Block → Item → Prop}
    (h : ∀ p : Spot, P p.position p.nest p.item → ¬p.Kept) : Enumerates [] P :=
  ⟨.nil, fun p => ⟨nofun, fun hp => absurd hp.2 (h p hp.1)⟩⟩

theorem enumerates_self {item : Item} (hkept : (⟨[], [], item⟩ : Spot).Kept)
    (h : ∀ {position nest found}, item.Encloses position nest found →
      position = [] ∧ nest = [] ∧ found = item) : Enumerates [⟨[], [], item⟩] item.Encloses := by
  refine ⟨List.pairwise_singleton .., fun p => ?_⟩
  rw [Spot.mem_self_iff h]
  refine ⟨fun hp => ⟨hp, ?_⟩, And.left⟩
  obtain ⟨position, nest, found⟩ := p
  obtain ⟨rfl, rfl, rfl⟩ := h hp
  exact hkept

variable {spots first later : List Spot} {attributes : List Attribute} {name : Name}
  {body rest : List Item} {text : Spelling} {item : Item} {start : Nat}

theorem Enumerates.inBlock (h : Enumerates spots (Stands body)) (hb : ¬TestOnly attributes) :
    Enumerates (spots.map (Spot.inBlock ⟨attributes, name⟩))
      (Item.submodule attributes name (some body) text).Encloses := by
  refine ⟨by rw [List.map_map]; exact h.ordered, fun p => ?_⟩
  rw [List.mem_map]
  constructor
  · rintro ⟨q, hq, rfl⟩
    obtain ⟨hstands, hkept⟩ := (h.mem q).mp hq
    have hkept := (Spot.kept_inBlock (b := ⟨attributes, name⟩)).mpr ⟨hb, hkept⟩
    exact ⟨(Spot.encloses_inBlock hkept).mpr ⟨q, hstands, rfl⟩, hkept⟩
  · rintro ⟨hencloses, hkept⟩
    obtain ⟨q, hstands, rfl⟩ := (Spot.encloses_inBlock hkept).mp hencloses
    exact ⟨q, (h.mem q).mpr ⟨hstands, (Spot.kept_inBlock.mp hkept).2⟩, rfl⟩

/-- Nothing is kept of a module of test builds. -/
theorem not_kept_of_testOnly {body : Option (List Item)} (htest : TestOnly attributes) {p : Spot}
    (hp : (Item.submodule attributes name body text).Encloses p.position p.nest p.item) :
    ¬p.Kept := by
  intro hkept
  obtain ⟨position, nest, found⟩ := p
  cases hp with
  | self => exact (hkept.item _ _ _ _ rfl).2 htest
  | inside => exact hkept.nest _ List.mem_cons_self htest

/-- As `Stands`, if the first item has the number `start`. -/
def StandsFrom (start : Nat) (items : List Item) (position : List Nat) (nest : List Block)
    (found : Item) : Prop :=
  ∃ i rest item, position = (start + i) :: rest ∧ items[i]? = some item ∧
    item.Encloses rest nest found

theorem standsFrom_zero (items : List Item) : StandsFrom 0 items = Stands items := by
  funext position nest found
  simp [StandsFrom, Stands]

theorem Enumerates.cons (hfirst : Enumerates first item.Encloses)
    (hlater : Enumerates later (StandsFrom (start + 1) rest)) :
    Enumerates (first.map (Spot.within start) ++ later) (StandsFrom start (item :: rest)) := by
  constructor
  case ordered =>
    rw [List.map_append, List.map_map, List.pairwise_append, List.pairwise_map]
    refine ⟨(List.pairwise_map.mp hfirst.ordered).imp .cons, hlater.ordered,
      fun before hbefore after hafter => ?_⟩
    obtain ⟨p, -, rfl⟩ := List.mem_map.mp hbefore
    obtain ⟨q, hq, rfl⟩ := List.mem_map.mp hafter
    obtain ⟨⟨i, position, next, hposition, -, -⟩, -⟩ := (hlater.mem q).mp hq
    rw [hposition]
    exact .rel (by omega)
  case mem =>
    intro p
    rw [List.mem_append, List.mem_map]
    constructor
    · rintro (⟨q, hq, rfl⟩ | hp)
      · obtain ⟨hencloses, hkept⟩ := (hfirst.mem q).mp hq
        exact ⟨⟨0, q.position, item, rfl, rfl, hencloses⟩, Spot.kept_within.mpr hkept⟩
      · obtain ⟨⟨i, position, next, hposition, hnext, hencloses⟩, hkept⟩ := (hlater.mem p).mp hp
        exact ⟨⟨i + 1, position, next, by rw [hposition]; congr 1; omega, hnext, hencloses⟩, hkept⟩
    · rintro ⟨⟨i, position, next, hposition, hnext, hencloses⟩, hkept⟩
      obtain ⟨_, nest, found⟩ := p
      obtain rfl := hposition
      cases i with
      | zero =>
        obtain rfl := Option.some.inj hnext
        exact .inl ⟨⟨position, nest, found⟩, (hfirst.mem _).mpr ⟨hencloses, ⟨hkept.1, hkept.2⟩⟩, rfl⟩
      | succ i =>
        refine .inr ((hlater.mem _).mpr ⟨⟨i, position, next, ?_, hnext, hencloses⟩, hkept⟩)
        show _ :: _ = _ :: _
        congr 1
        omega

mutual

theorem spots_reachedBy (inline : List String) (item : Item) : ∃ spots : List Spot,
    Enumerates spots item.Encloses ∧ reachedBy inline item = spots.map (Spot.reached inline) := by
  cases item with
  | declaration attributes kind name generic text =>
    refine ⟨[⟨[], [], .declaration attributes kind name generic text⟩], enumerates_self
      ⟨nofun, nofun⟩ fun h => by cases h; exact ⟨rfl, rfl, rfl⟩, ?_⟩
    simp [reachedBy, Spot.reached, names]
  | other text =>
    refine ⟨[⟨[], [], .other text⟩], enumerates_self
      ⟨nofun, nofun⟩ fun h => by cases h; exact ⟨rfl, rfl, rfl⟩, ?_⟩
    simp [reachedBy, Spot.reached, names]
  | submodule attributes name body text =>
    cases body with
    | none =>
      rw [reachedBy]
      split
      next htest => exact ⟨[], enumerates_nil fun p => not_kept_of_testOnly (testOnly_iff.mp htest), rfl⟩
      next htest =>
        have hkept : (⟨[], [], .submodule attributes name none text⟩ : Spot).Kept := by
          refine ⟨nofun, ?_⟩
          rintro _ _ _ _ ⟨⟩
          exact ⟨rfl, mt testOnly_iff.mpr htest⟩
        refine ⟨[⟨[], [], .submodule attributes name none text⟩],
          enumerates_self hkept fun h => by cases h; exact ⟨rfl, rfl, rfl⟩, ?_⟩
        simp [Spot.reached, names]
    | some body =>
      rw [reachedBy]
      split
      next htest => exact ⟨[], enumerates_nil fun p => not_kept_of_testOnly (testOnly_iff.mp htest), rfl⟩
      next htest =>
        obtain ⟨spots, hspots, hreached⟩ := spots_reached (inline ++ [name.text]) 0 body
        rw [standsFrom_zero] at hspots
        refine ⟨_, hspots.inBlock (mt testOnly_iff.mpr htest), ?_⟩
        rw [hreached, List.map_map]
        exact List.map_congr_left fun p _ => (Spot.reached_inBlock inline ⟨attributes, name⟩ p).symm

theorem spots_reached (inline : List String) (start : Nat) (items : List Item) :
    ∃ spots : List Spot, Enumerates spots (StandsFrom start items) ∧
      reached inline items = spots.map (Spot.reached inline) := by
  cases items with
  | nil => exact ⟨[], enumerates_nil (by rintro p ⟨i, rest, item, -, hnone, -⟩; cases hnone), rfl⟩
  | cons item rest =>
    obtain ⟨first, hfirst, hreached⟩ := spots_reachedBy inline item
    obtain ⟨later, hlater, hreached'⟩ := spots_reached inline (start + 1) rest
    refine ⟨_, hfirst.cons hlater, ?_⟩
    rw [reached, hreached, hreached', List.map_append, List.map_map]
    rfl

end

/-- The walk through a file reaches what is kept of it, in the order of the text. -/
theorem reached_eq_spots (items : List Item) : ∃ spots : List Spot,
    Enumerates spots (Stands items) ∧ reached [] items = spots.map (Spot.reached []) := by
  obtain ⟨spots, hspots, hreached⟩ := spots_reached [] 0 items
  exact ⟨spots, standsFrom_zero items ▸ hspots, hreached⟩

/-- The item is no module. -/
def isDeclaration : Item → Bool
  | .submodule .. => false
  | _ => true

variable {file : String} {modulePath : List String} {items : List Item}

/-- The items that a walk comes upon are those of its spots that are no modules. -/
theorem filterMap_item? (spots : List Spot) :
    (spots.map (Spot.reached [])).filterMap Reached.item? =
      (spots.filter (isDeclaration ·.item)).map fun p => (names p.nest, p.item.text) := by
  rw [List.filterMap_map, ← List.filterMap_eq_map, List.filterMap_filter]
  refine List.filterMap_congr fun p _ => ?_
  obtain ⟨position, nest, item⟩ := p
  cases item <;> rfl

/-- The declarations of a file are those of the items that stand outside of all modules of test
builds and are no modules, in the order of the text. -/
theorem nodes_eq_spots (file : String) (modulePath : List String) (items : List Item) :
    ∃ spots : List Spot,
    (spots.map Spot.position).Pairwise (· < ·) ∧
    (∀ p, p ∈ spots ↔ Stands items p.position p.nest p.item ∧ isDeclaration p.item = true ∧
      ∀ b ∈ p.nest, ¬TestOnly b.attributes) ∧
    (ofItems file modulePath items).nodes = spots.zipIdx.map fun (p, ordinal) =>
      ⟨⟨file, ordinal⟩, modulePath ++ names p.nest, Tree.text p.item.text⟩ := by
  obtain ⟨spots, hspots, hreached⟩ := reached_eq_spots items
  refine ⟨spots.filter (isDeclaration ·.item), ?_, fun p => ?_, ?_⟩
  · exact hspots.ordered.sublist (List.filter_sublist.map _)
  · rw [List.mem_filter, hspots.mem]
    constructor
    · rintro ⟨⟨hstands, hkept⟩, hdeclaration⟩
      exact ⟨hstands, hdeclaration, hkept.nest⟩
    · rintro ⟨hstands, hdeclaration, hnest⟩
      refine ⟨⟨hstands, hnest, fun _ _ _ _ hitem => ?_⟩, hdeclaration⟩
      rw [hitem] at hdeclaration
      cases hdeclaration
  · simp only [ofItems, hreached, filterMap_item?, List.zipIdx_map, List.map_map]
    rfl

/-- The modules without body of a file are those that stand outside of all modules of test builds and
are none themselves. -/
theorem mem_modules_iff {decl : ModuleDecl} : decl ∈ (ofItems file modulePath items).modules ↔
    ∃ position nest attributes name text,
      Stands items position nest (.submodule attributes name none text) ∧
      (∀ b ∈ nest, ¬TestOnly b.attributes) ∧ ¬TestOnly attributes ∧
      decl = ⟨name.text, names nest, attributes.findSome? pathValue?⟩ := by
  obtain ⟨spots, hspots, hreached⟩ := reached_eq_spots items
  rw [ofItems, hreached]
  dsimp only
  rw [List.mem_filterMap]
  constructor
  · rintro ⟨_, hx, hdecl⟩
    obtain ⟨⟨position, nest, item⟩, hp, rfl⟩ := List.mem_map.mp hx
    obtain ⟨hstands, hkept⟩ := (hspots.mem _).mp hp
    cases item with
    | declaration => cases hdecl
    | other => cases hdecl
    | submodule attributes name body text =>
      obtain ⟨rfl, hregular⟩ := hkept.item _ _ _ _ rfl
      obtain rfl := Option.some.inj hdecl
      exact ⟨position, nest, attributes, name, text, hstands, hkept.nest, hregular, rfl⟩
  · rintro ⟨position, nest, attributes, name, text, hstands, hnest, hregular, rfl⟩
    have hkept : (⟨position, nest, .submodule attributes name none text⟩ : Spot).Kept := by
      refine ⟨hnest, ?_⟩
      rintro _ _ _ _ ⟨⟩
      exact ⟨rfl, hregular⟩
    exact ⟨_, List.mem_map_of_mem ((hspots.mem _).mpr ⟨hstands, hkept⟩), rfl⟩

theorem mem_modules_ofText_iff {text : String} {decl : ModuleDecl} :
    decl ∈ (ofText file modulePath text).modules ↔
      ∃ items position nest attributes name spelling, SourceFile.items? text = some items ∧
        Stands items position nest (.submodule attributes name none spelling) ∧
        (∀ b ∈ nest, ¬TestOnly b.attributes) ∧ ¬TestOnly attributes ∧
        decl = ⟨name.text, names nest, attributes.findSome? pathValue?⟩ := by
  rw [ofText]
  split
  next items hitems =>
    rw [mem_modules_iff, hitems]
    constructor
    · rintro ⟨position, nest, attributes, name, spelling, h⟩
      exact ⟨items, position, nest, attributes, name, spelling, rfl, h⟩
    · rintro ⟨_, position, nest, attributes, name, spelling, ⟨⟩, h⟩
      exact ⟨position, nest, attributes, name, spelling, h⟩
  next hnone => simp [hnone]

end Outline

end ComponentRegistry
