import ComponentRegistry.Proofs.Grammar.AlikeItems
import ComponentRegistry.Proofs.Token.Lexed

/-! The modules of a source file have names that can be written (`SourceFile.named_items?`): each is a
word of the text, as a reader goes on from an end of its trees or from the inside of a bracket. -/

namespace ComponentRegistry

open Lexer

namespace Tree

variable {trees rest inner : List Tree}

/-- All words of the trees, also in their brackets, can be written. -/
def Worded (trees : List Tree) : Prop :=
  ∀ token, .token token ∈ lexemesOfAll trees → WordOk token

theorem worded_of_ofText? {text : String} (h : Tree.ofText? text = some trees) :
    Worded trees := by
  obtain ⟨lexemes, hlexemes, hnest⟩ := Option.bind_eq_some_iff.mp h
  have hall : lexemesOfAll trees = lexemes := by
    simpa [lexemesBefore, lexemesOfAll] using lexemesOfAll_nest? hnest
  rw [Worded, hall]
  exact wordOk_of_lexemesIn? hlexemes

theorem Worded.suffix (h : Worded trees) (hrest : rest <:+ trees) : Worded rest := by
  obtain ⟨taken, rfl⟩ := hrest
  intro token htoken
  rw [Worded, lexemesOfAll_append] at h
  exact h token (List.mem_append_right _ htoken)

theorem Worded.inside {delimiter : Delimiter} (h : Worded (.group delimiter inner :: rest)) :
    Worded inner := by
  intro token htoken
  refine h token (List.mem_append_left _ ?_)
  simp [lexemesOf, htoken]

theorem Worded.isName {raw : Bool} {name : String} (h : Worded (.leaf (.word raw name) :: rest)) :
    IsName name :=
  IsWord.isName (h (.word raw name) (by simp [lexemesOfAll, lexemesOf]))

end Tree

namespace Grammar

/-- The modules in an item have names that can be written. -/
inductive Item.Named : Item → Prop
  | declaration {attributes : List Attribute} {kind : TypeKind} {name : Name} {generic : Bool}
    {text : Spelling} : Named (.declaration attributes kind name generic text)
  | submodule {attributes : List Attribute} {name : Name} {body : Option (List Item)}
    {text : Spelling} : IsName name.text → (∀ items ∈ body, ∀ item ∈ items, Named item) →
    Named (.submodule attributes name body text)
  | other {text : Spelling} : Named (.other text)

namespace Reader

-- The answer for a long reader is a large term.
set_option synthInstance.maxSize 1000000

variable {α β : Type} {n : Nat} {r : Rules} {trees rest : List Tree} {x : Reader α}

/-- The items that a reader takes from few trees have modules with names. -/
class Names (n : Nat) (x : Reader Item) : Prop where
  named : ∀ {trees item rest}, Tree.sizeAll trees < n → Tree.Worded trees →
    x trees = .ok (item, rest) → item.Named

theorem Names.bind_of {f : α → Reader Item} (hx : Alike n false x x)
    (hf : ∀ {trees value rest}, Tree.sizeAll trees < n → Tree.Worded trees →
      x trees = .ok (value, rest) → Names n (f value)) : Names n (x >>= f) where
  named hsize hworded h := by
    obtain ⟨value, rest, hread, h⟩ := exists_of_bind h
    have hrest := hx.suffix hsize hread
    exact (hf hsize hworded hread).named
      (Nat.lt_of_le_of_lt (Tree.sizeAll_le_of_suffix hrest) hsize) (hworded.suffix hrest) h

theorem Names.andThen {f : α → Reader Item} [hx : Alike n false x x]
    (hf : ∀ value, Names n (f value)) : Names n (x >>= f) :=
  .bind_of hx fun {_ value _} _ _ _ => hf value

instance Names.bind {f : α → Reader Item} [Alike n false x x] [hf : ∀ value, Names n (f value)] :
    Names n (x >>= f) := .andThen hf

instance Names.bind_pair {x : Reader (α × β)} {f : α × β → Reader Item} [Alike n false x x]
    [hf : ∀ first second, Names n (f (first, second))] : Names n (x >>= f) :=
  .andThen fun value => hf value.1 value.2

instance Names.ite {c : Prop} [Decidable c] {x y : Reader Item} [h : Names n x] [h' : Names n y] :
    Names n (if c then x else y) := by
  split
  · exact h
  · exact h'

theorem Names.pure {item : Item} (h : item.Named) : Names n (pure item) :=
  ⟨fun _ _ hread => (Prod.mk.inj (Except.ok.inj hread)).1 ▸ h⟩

instance names_pure_declaration {attributes : List Attribute} {kind : TypeKind} {name : Name}
    {generic : Bool} {text : Spelling} :
    Names n (Pure.pure (.declaration attributes kind name generic text)) := .pure .declaration

instance names_pure_other {text : Spelling} : Names n (Pure.pure (.other text)) := .pure .other

instance names_fail (failure : Failure) : Names n (fail failure) := ⟨nofun⟩

instance names_expected (wanted : List String) : Names n (expected wanted) := ⟨nofun⟩

instance names_expectedOf (alternatives : List (Look × String)) :
    Names n (expectedOf alternatives) := by
  unfold expectedOf; infer_instance

instance names_verbatim (start : List Tree) : Names n (verbatim start) := by
  unfold verbatim; infer_instance

instance names_spelled (attributes : List Attribute) {parts : List (Reader Spelling)}
    [Alike n false (cat parts) (cat parts)] : Names n (spelled attributes parts) := by
  unfold spelled; infer_instance

variable [Rules.Alike n r r] {start : List Tree} {attributes : List Attribute} {visible : Spelling}

instance names_declaration (kind : TypeKind) :
    Names n (declaration r attributes visible kind) := by
  unfold declaration; cases kind <;> infer_instance

instance names_functionItem : Names n (functionItem r start attributes visible) := by
  unfold functionItem; infer_instance

instance names_importItem : Names n (importItem r start attributes visible) := by
  unfold importItem; infer_instance

instance names_staticItem : Names n (staticItem r start attributes visible) := by
  unfold staticItem; infer_instance

instance names_constItem : Names n (constItem r start attributes visible) := by
  unfold constItem; infer_instance

instance names_typeItem : Names n (typeItem r start attributes visible) := by
  unfold typeItem; infer_instance

instance names_implItem : Names n (implItem r start attributes visible) := by
  unfold implItem; infer_instance

instance names_externItem : Names n (externItem r attributes visible) := by
  unfold externItem; infer_instance

instance names_macroDefinition : Names n (macroDefinition start) := by
  unfold macroDefinition; dsimp only; infer_instance

/-- Items to the end of a file or body. -/
def moduleItems (r : Rules) : Reader (List Item) :=
  loop (fun items => do
    if ← atEnd then return .inr items
    return .inl (items ++ [← r.item])) []

/-- A module after its name. -/
def submoduleRest (r : Rules) (attributes : List Attribute) (head : Spelling) (name : Name) :
    Reader Item := do
  if ← peek (Look.op ";") then
    return .submodule attributes name none (head ++ name.spelling ++ (← op ";"))
  if !(← peek (Look.group .brace)) then expectedOf [opChoice ";", groupChoice .brace]
  let (inner, items) ← inside .brace do
    let inner ← innerAttributes r
    let items ← moduleItems r
    return (inner, items)
  return .submodule (attributes ++ inner) name (some items)
    (head ++ name.spelling ++ [.group .brace (innerSpelling inner ++ items.flatMap Item.text)])

theorem submodule_eq (r : Rules) (attributes : List Attribute) (visible : Spelling) :
    submodule r attributes visible = (do
      let head ← cat [optWord "unsafe", word "mod"]
      if ← peek (Look.word "try") then
        submoduleRest r attributes (outerSpelling attributes ++ visible ++ head) (← anyName)
      else submoduleRest r attributes (outerSpelling attributes ++ visible ++ head) (← name)) := rfl

variable [Names n r.item]

instance alike_moduleItems : Alike n false (moduleItems r) (moduleItems r) := by
  unfold moduleItems; infer_instance

theorem named_moduleItems {items : List Item} (hsize : Tree.sizeAll trees < n)
    (hworded : Tree.Worded trees) (h : moduleItems r trees = .ok (items, rest)) :
    ∀ item ∈ items, item.Named := by
  refine loop_induction (fun items rest => rest <:+ trees ∧ ∀ item ∈ items, item.Named)
    (fun items _ => ∀ item ∈ items, item.Named) (fun {items middle next rest} hinv hread => ?_)
    (fun {items middle result rest} hinv hread => ?_) ⟨List.suffix_refl _, by simp⟩ h
  · obtain ⟨isEnd, _, hend, hread⟩ := exists_of_bind hread
    obtain ⟨rfl, rfl⟩ := Prod.mk.inj (Except.ok.inj hend)
    split at hread
    · cases hread
    · obtain ⟨item, after, hitem, hread⟩ := exists_of_bind hread
      obtain ⟨hnext, rfl⟩ := Prod.mk.inj (Except.ok.inj hread)
      obtain rfl := Sum.inl.inj hnext
      have hmiddle := Nat.lt_of_le_of_lt (Tree.sizeAll_le_of_suffix hinv.1) hsize
      have halike : Alike n false r.item r.item := inferInstance
      have hafter := halike.suffix hmiddle hitem
      refine ⟨hafter.trans hinv.1, fun i hi => ?_⟩
      rcases List.mem_append.mp hi with hi | hi
      · exact hinv.2 i hi
      · obtain rfl := List.mem_singleton.mp hi
        exact Names.named hmiddle (hworded.suffix hinv.1) hitem
  · obtain ⟨isEnd, _, hend, hread⟩ := exists_of_bind hread
    obtain ⟨rfl, rfl⟩ := Prod.mk.inj (Except.ok.inj hend)
    split at hread
    · obtain ⟨hresult, -⟩ := Prod.mk.inj (Except.ok.inj hread)
      exact Sum.inr.inj hresult ▸ hinv.2
    · obtain ⟨item, after, hitem, hread⟩ := exists_of_bind hread
      cases hread

/-- The items of a body stand inside its brackets. -/
theorem named_inside {delimiter : Delimiter} {value : List Attribute × List Item}
    (hsize : Tree.sizeAll trees < n) (hworded : Tree.Worded trees)
    (h : inside delimiter (do
      let inner ← innerAttributes r
      let items ← moduleItems r
      return (inner, items)) trees = .ok (value, rest)) :
    ∀ item ∈ value.2, item.Named := by
  unfold inside at h
  split at h
  next found content after =>
    have hcontent : Tree.sizeAll content < n := by
      simp only [Tree.sizeAll, Tree.size] at hsize
      omega
    split at h
    · split at h
      next read hread =>
        obtain ⟨inner, middle, hinner, hread⟩ := exists_of_bind hread
        obtain ⟨items, after, hitems, hread⟩ := exists_of_bind hread
        have halike : Alike n false (innerAttributes r) (innerAttributes r) := inferInstance
        have hmiddle := halike.suffix hcontent hinner
        obtain ⟨rfl, -⟩ := Prod.mk.inj (Except.ok.inj hread)
        obtain ⟨rfl, -⟩ := Prod.mk.inj (Except.ok.inj h)
        exact named_moduleItems (Nat.lt_of_le_of_lt (Tree.sizeAll_le_of_suffix hmiddle) hcontent)
          (hworded.inside.suffix hmiddle) hitems
      · cases h
      · cases h
    · cases h
  next => cases h

theorem names_submoduleRest {head : Spelling} {name : Name} (hname : IsName name.text) :
    Names n (submoduleRest r attributes head name) := by
  have body : Names n (do
      let (inner, items) ← inside .brace do
        let inner ← innerAttributes r
        let items ← moduleItems r
        return (inner, items)
      return .submodule (attributes ++ inner) name (some items)
        (head ++ name.spelling ++ [.group .brace (innerSpelling inner ++ items.flatMap Item.text)])) :=
    .bind_of inferInstance fun hsize hworded hread =>
      .pure (.submodule hname fun items hitems =>
        Option.some.inj hitems ▸ named_inside hsize hworded hread)
  unfold submoduleRest
  refine .andThen fun isEnd => ?_
  split
  · exact .andThen fun _ => .pure (.submodule hname nofun)
  refine .andThen fun isBrace => ?_
  split
  · exact .andThen fun _ => body
  · exact body

instance names_submodule : Names n (submodule r attributes visible) := by
  rw [submodule_eq]
  refine .andThen fun head => .andThen fun isTry => ?_
  split
  · refine .bind_of inferInstance fun _ hworded hread => names_submoduleRest ?_
    rw [anyName_word hread] at hworded
    exact hworded.isName
  · refine .bind_of inferInstance fun _ hworded hread => names_submoduleRest ?_
    rw [(name_word hread).1] at hworded
    exact hworded.isName

instance names_unsafeItem : Names n (unsafeItem r start attributes visible) := by
  unfold unsafeItem; infer_instance

instance names_item : Names n (item r) := by
  unfold item; dsimp only; infer_instance

end Reader

/-- The readers of any depth leave an end of the list, and their items have modules with names. -/
theorem Rules.names_upTo (n depth : Nat) :
    Rules.Alike n (upTo depth) (upTo depth) ∧ Reader.Names n (upTo depth).item := by
  induction depth with
  | zero =>
    have none {α : Type} : Reader.Alike n false (Reader.fail .tooDeep : Reader α)
      (Reader.fail .tooDeep) := inferInstance
    exact ⟨by constructor <;> intros <;> exact none, Reader.names_fail .tooDeep⟩
  | succ depth ih =>
    have := ih.1
    have := ih.2
    have hitem : Reader.Names n (Reader.item (upTo depth)) := Reader.names_item
    exact ⟨ih.1.step, hitem⟩

namespace SourceFile

theorem reader_eq (r : Rules) :
    reader r = (do let _ ← Reader.innerAttributes r; Reader.moduleItems r) := rfl

/-- The modules of a source file have names that can be written. -/
theorem named_items? {text : String} {items : List Item} (h : items? text = some items) :
    ∀ item ∈ items, item.Named := by
  obtain ⟨trees, htrees, hread⟩ := ofText?_eq_some h
  obtain ⟨hrules, hnames⟩ : Rules.Alike (Tree.sizeAll trees + 1) (.forTrees trees) (.forTrees trees) ∧
      Reader.Names (Tree.sizeAll trees + 1) (Rules.forTrees trees).item := Rules.names_upTo _ _
  rw [reader_eq] at hread
  obtain ⟨inner, middle, hinner, hread⟩ := Reader.exists_of_bind hread
  have halike : Reader.Alike (Tree.sizeAll trees + 1) false
    (Reader.innerAttributes (.forTrees trees)) (Reader.innerAttributes (.forTrees trees)) :=
    inferInstance
  have hmiddle := halike.suffix (Nat.lt_succ_self _) hinner
  exact Reader.named_moduleItems (Nat.lt_succ_of_le (Tree.sizeAll_le_of_suffix hmiddle))
    ((Tree.worded_of_ofText? htrees).suffix hmiddle) hread

end SourceFile

end Grammar

end ComponentRegistry
