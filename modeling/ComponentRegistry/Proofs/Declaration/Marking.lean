import ComponentRegistry.Declaration.Marking
import ComponentRegistry.Proofs.Grammar.AlikeItems
import ComponentRegistry.Proofs.Grammar.Running
import ComponentRegistry.Proofs.Token.Lexed

/-! The marker before an item. As an attribute it adds no error exactly where discovery finds the
item with the marker before it (`Marking.mark_eq_append`): the attributes are read one after another,
and what follows them does not depend on them. -/

namespace ComponentRegistry

open Grammar

/-! The attribute is read first. -/

/-- The marker as it is written before an item. -/
def Marking.attribute : Attribute := ⟨false, ⟨false, [⟨false, marker⟩]⟩, .none⟩

namespace Lexer

theorem lexemesIn?_step {fuel : Nat} {cs rest : List Char} {lexemes more : List Lexeme}
    (hstep : step? cs = some (lexemes, rest)) (h : lexemesIn? fuel rest = some more) :
    lexemesIn? (fuel + 1) cs = some (lexemes ++ more) := by
  cases cs with
  | nil => cases hstep
  | cons c cs => simp [lexemesIn?, hstep, h]

theorem lexemesIn?_mono {fuel more : Nat} {cs : List Char} {lexemes : List Lexeme}
    (h : lexemesIn? fuel cs = some lexemes) (hle : fuel ≤ more) :
    lexemesIn? more cs = some lexemes := by
  induction fuel generalizing more cs lexemes with
  | zero =>
    cases cs with
    | nil => simpa [lexemesIn?] using h
    | cons => cases h
  | succ fuel ih =>
    cases cs with
    | nil => simpa [lexemesIn?] using h
    | cons c cs =>
      rw [lexemesIn?] at h
      obtain ⟨⟨found, rest⟩, hstep, h⟩ := Option.bind_eq_some_iff.mp h
      obtain ⟨later, hlater, h⟩ := Option.bind_eq_some_iff.mp h
      obtain rfl := Option.some.inj h
      obtain ⟨k, rfl⟩ := Nat.exists_eq_add_of_le' (Nat.le_trans (Nat.succ_le_succ fuel.zero_le) hle)
      exact lexemesIn?_step hstep (ih hlater (Nat.le_of_succ_le_succ hle))

/-- Before a text the marker is cut into its own lexemes. -/
theorem lexemes?_marker {cs : List Char} {lexemes : List Lexeme} (h : lexemes? cs = some lexemes) :
    lexemes? ("#[Component] ".toList ++ cs) =
      some (lexemesOfAll Marking.attribute.spelling ++ lexemes) := by
  have hword : IsWord false "Component" := ⟨by decide +kernel, nofun⟩
  have hname : step? (wordChars false "Component" ++ ']' :: ' ' :: cs) =
      some ([.token (.word false "Component")], ']' :: ' ' :: cs) :=
    step?_word hword (closed_closing .bracket _).endsWord
  have hclosing := lexemesIn?_step (step?_bracket (c := ']') rfl rfl)
    (lexemesIn?_step (step?_blank cs) h)
  have hopening := lexemesIn?_step (step?_bracket (c := '[') rfl rfl)
    (lexemesIn?_step hname hclosing)
  have hhash := lexemesIn?_step (step?_mark (c := '#') (by decide) (by decide) rfl) hopening
  refine lexemesIn?_mono hhash ?_
  simp

theorem dropByteOrderMark_of_head {cs : List Char} (h : cs.head? ≠ some '\ufeff') :
    dropByteOrderMark cs = cs := by
  unfold dropByteOrderMark
  split
  · exact absurd rfl h
  · rfl

theorem nest?_append {lexemes : List Lexeme} {before trees : List Tree}
    (h : nest? [] [] lexemes = some trees) :
    nest? [] [] (lexemesOfAll before ++ lexemes) = some (before ++ trees) := by
  have hall := nest?_lexemesOfAll (before ++ trees) [] [] []
  rw [lexemesOfAll_append, lexemesOfAll_nest? h] at hall
  simpa [lexemesBefore, lexemesOfAll, nest?] using hall

end Lexer

namespace Marking

open Lexer

/-- The marker is read as its attribute. -/
theorem ofText?_marker {item : String} {trees : List Tree} (h : Tree.ofText? item = some trees)
    (hstart : item.toList.head? ≠ some '\ufeff') :
    Tree.ofText? ("#[Component] " ++ item) = some (attribute.spelling ++ trees) := by
  rw [Tree.ofText?, dropByteOrderMark_of_head hstart] at h
  obtain ⟨lexemes, hlexemes, hnest⟩ := Option.bind_eq_some_iff.mp h
  rw [Tree.ofText?, String.toList_append, dropByteOrderMark_of_head (by simp), treesOf?,
    lexemes?_marker hlexemes]
  exact nest?_append hnest

end Marking

namespace Grammar.Reader

variable {α σ ρ : Type} {r : Rules} {trees : List Tree}

theorem outerAttribute_shorter {a : Attribute} {rest : List Tree}
    (h : outerAttribute r trees = .ok (a, rest)) : rest.length < trees.length := by
  obtain ⟨text, middle, hop, h⟩ := exists_of_bind h
  obtain ⟨tree, rfl⟩ := TakesOne.takes h
  exact Nat.lt_of_lt_of_le (Nat.lt_succ_self _) (marks?_suffix (marks?_of_op hop)).1.length_le

/-- A loop needs no more fuel than there are trees if each step but the last one takes a tree. -/
theorem loopIn_congr {step : σ → Reader (σ ⊕ ρ)}
    (hstep : ∀ {state next trees rest}, step state trees = .ok (.inl next, rest) →
      rest.length < trees.length)
    {fuel fuel' : List Tree} {state : σ} (h : trees.length ≤ fuel.length)
    (h' : trees.length ≤ fuel'.length) :
    loopIn step fuel state trees = loopIn step fuel' state trees := by
  induction fuel generalizing fuel' state trees with
  | nil =>
    rw [loopIn_apply, loopIn_apply]
    cases hread : step state trees with
    | error => rfl
    | ok found =>
      obtain ⟨next | result, rest⟩ := found
      · exact absurd (hstep hread) (Nat.not_lt_of_le (Nat.le_trans h (Nat.zero_le _)))
      · rfl
  | cons tree fuel ih =>
    rw [loopIn_apply, loopIn_apply]
    cases hread : step state trees with
    | error => rfl
    | ok found =>
      obtain ⟨next | result, rest⟩ := found
      · have hlt := hstep hread
        cases fuel' with
        | nil => exact absurd hlt (Nat.not_lt_of_le (Nat.le_trans h' (Nat.zero_le _)))
        | cons tree' fuel' =>
          rw [List.length_cons] at h h'
          exact ih (by omega) (by omega)
      · rfl

/-- One attribute more, if the look says so. -/
def collectStep (look : Look) (part : Reader Attribute) (found : List Attribute) :
    Reader (List Attribute ⊕ List Attribute) := do
  if ← peek look then return .inl (found ++ [← part])
  return .inr found

theorem collectStep_apply {look : Look} {part : Reader Attribute} {found : List Attribute} :
    collectStep look part found trees =
      if look trees then (part trees).map fun (a, rest) => (.inl (found ++ [a]), rest)
      else .ok (.inr found, trees) := by
  cases hlook : look trees with
  | false => simp [collectStep, hlook]
  | true => cases hread : part trees <;> simp [collectStep, hlook, hread, Except.map]

/-- What has been found stays at the front. -/
theorem loopIn_collect {look : Look} {part : Reader Attribute} {fuel : List Tree} (a : Attribute)
    {found : List Attribute} : loopIn (collectStep look part) fuel (a :: found) trees =
      (loopIn (collectStep look part) fuel found trees).map fun (later, rest) =>
        (a :: later, rest) := by
  induction fuel generalizing found trees with
  | nil =>
    rw [loopIn_apply, loopIn_apply, collectStep_apply, collectStep_apply]
    cases look trees with
    | false => rfl
    | true => cases part trees <;> rfl
  | cons tree fuel ih =>
    rw [loopIn_apply, loopIn_apply, collectStep_apply, collectStep_apply]
    cases look trees with
    | false => rfl
    | true => cases part trees with
      | error => rfl
      | ok read => exact ih

theorem attributeInside_marker : attributeInside r false [Tree.word marker] =
    .ok (Marking.attribute, []) := by
  simp [↓attributeInside, ↓attributePath, ↓namePath, Look.pathName, ↓optOp, ↓Reader.optional, keywords,
    marker, Marking.attribute]

theorem outerAttribute_marker :
    outerAttribute r (Marking.attribute.spelling ++ trees) = .ok (Marking.attribute, trees) := by
  show outerAttribute r (Tree.mark '#' false :: .group .bracket [Tree.word marker] :: trees) = _
  simp [↓outerAttribute, marks?, attributeInside_marker, -Tree.word]

theorem collectStep_shorter {look : Look} {found next : List Attribute} {rest : List Tree}
    (h : collectStep look (outerAttribute r) found trees = .ok (.inl next, rest)) :
    rest.length < trees.length := by
  rw [collectStep_apply] at h
  split at h
  · cases hread : outerAttribute r trees with
    | error => rw [hread] at h; cases h
    | ok read =>
      rw [hread] at h
      exact (Prod.mk.inj (Except.ok.inj h)).2 ▸ outerAttribute_shorter hread
  · cases h

/-- The marker is one attribute more before the others. -/
theorem outerAttributes_marker : outerAttributes r (Marking.attribute.spelling ++ trees) =
    (outerAttributes r trees).map fun (found, rest) => (Marking.attribute :: found, rest) := by
  have hstep : collectStep (Look.op "#") (outerAttribute r) []
      (Marking.attribute.spelling ++ trees) = .ok (.inl [Marking.attribute], trees) := by
    rw [collectStep_apply, outerAttribute_marker]
    rfl
  calc outerAttributes r (Marking.attribute.spelling ++ trees)
    _ = loopIn (collectStep (Look.op "#") (outerAttribute r)) (Marking.attribute.spelling ++ trees)
          [] (Marking.attribute.spelling ++ trees) := rfl
    _ = loopIn (collectStep (Look.op "#") (outerAttribute r))
          ((Marking.attribute.spelling ++ trees).drop 1) [Marking.attribute] trees := by
      rw [loopIn_apply, hstep]
      rfl
    _ = loopIn (collectStep (Look.op "#") (outerAttribute r)) trees [Marking.attribute] trees :=
      loopIn_congr collectStep_shorter (Nat.le_succ _) (Nat.le_refl _)
    _ = _ := loopIn_collect Marking.attribute

end Grammar.Reader

/-! What follows the attributes does not depend on them. -/

namespace Grammar

/-- The item declares a type. -/
def Item.isType : Item → Bool
  | .declaration .. => true
  | _ => false

def Item.isMarked (item : Item) : Bool := item.component?.isSome

namespace Reader

/-- Two readers do the same, and the item of the first is marked if that of the second declares a
type. -/
class Marks (x y : Reader Item) : Prop where
  same : Item.isMarked <$> x = Item.isType <$> y

-- The answer for a long reader is a large term.
set_option synthInstance.maxSize 1000000

variable {α β : Type} {r : Rules} {start start' : List Tree} {attributes : List Attribute}
  {visible : Spelling}

instance Marks.bind {x : Reader α} {f g : α → Reader Item} [h : ∀ value, Marks (f value) (g value)] :
    Marks (x >>= f) (x >>= g) where
  same := by
    rw [map_bind, map_bind]
    exact bind_congr fun value => (h value).same

instance Marks.bind_pair {x : Reader (α × β)} {f g : α × β → Reader Item}
    [h : ∀ first second, Marks (f (first, second)) (g (first, second))] :
    Marks (x >>= f) (x >>= g) := @Marks.bind _ _ _ _ fun value => h value.1 value.2

instance Marks.ite {c : Prop} [Decidable c] {x y x' y' : Reader Item} [h : Marks x y]
    [h' : Marks x' y'] : Marks (if c then x else x') (if c then y else y') := by
  split
  · exact h
  · exact h'

instance marks_declaration {kind : TypeKind} {name : Name} {generic : Bool} {text text' : Spelling} :
    Marks (pure (.declaration (Marking.attribute :: attributes) kind name generic text))
      (pure (.declaration attributes kind name generic text')) := ⟨rfl⟩

instance marks_submodule {attributes' : List Attribute} {name : Name} {body : Option (List Item)}
    {text text' : Spelling} : Marks (pure (.submodule attributes' name body text))
      (pure (.submodule attributes name body text')) := ⟨rfl⟩

instance marks_other {text text' : Spelling} : Marks (pure (.other text)) (pure (.other text')) :=
  ⟨rfl⟩

instance marks_fail (failure : Failure) : Marks (fail failure) (fail failure) := ⟨rfl⟩

instance marks_expected (wanted : List String) : Marks (expected wanted) (expected wanted) := ⟨rfl⟩

instance marks_expectedOf (alternatives : List (Look × String)) :
    Marks (expectedOf alternatives) (expectedOf alternatives) := by
  unfold expectedOf; infer_instance

instance marks_verbatim : Marks (verbatim start) (verbatim start') := ⟨rfl⟩

instance marks_spelled {attributes' : List Attribute} {parts : List (Reader Spelling)} :
    Marks (spelled attributes' parts) (spelled attributes parts) := by
  unfold spelled; infer_instance

instance marks_declared (kind : TypeKind) :
    Marks (declaration r (Marking.attribute :: attributes) visible kind)
      (declaration r attributes visible kind) := by
  unfold declaration; cases kind <;> infer_instance

section Other

variable {attributes' : List Attribute}

instance marks_functionItem : Marks (functionItem r start attributes' visible)
    (functionItem r start' attributes visible) := by
  unfold functionItem; infer_instance

instance marks_importItem : Marks (importItem r start attributes' visible)
    (importItem r start' attributes visible) := by
  unfold importItem; infer_instance

instance marks_staticItem : Marks (staticItem r start attributes' visible)
    (staticItem r start' attributes visible) := by
  unfold staticItem; infer_instance

instance marks_constItem : Marks (constItem r start attributes' visible)
    (constItem r start' attributes visible) := by
  unfold constItem; infer_instance

instance marks_typeItem : Marks (typeItem r start attributes' visible)
    (typeItem r start' attributes visible) := by
  unfold typeItem; infer_instance

instance marks_submoduleItem : Marks (submodule r attributes' visible)
    (submodule r attributes visible) := by
  unfold submodule; dsimp only; infer_instance

instance marks_implItem : Marks (implItem r start attributes' visible)
    (implItem r start' attributes visible) := by
  unfold implItem; infer_instance

instance marks_externItem : Marks (externItem r attributes' visible)
    (externItem r attributes visible) := by
  unfold externItem; infer_instance

instance marks_unsafeItem : Marks (unsafeItem r start attributes' visible)
    (unsafeItem r start' attributes visible) := by
  unfold unsafeItem; infer_instance

instance marks_macroDefinition : Marks (macroDefinition start) (macroDefinition start') := by
  unfold macroDefinition; dsimp only; infer_instance

end Other

/-- An item after its attributes and its visibility. -/
def attributed (r : Rules) (start : List Tree) (attributes : List Attribute)
    (visible : Spelling) : Reader Item := do
  let union := Look.both (Look.word "union") (Look.second Look.name)
  let auto := Look.both (Look.word "auto") (Look.second (Look.word "trait"))
  let implements := Look.either (Look.word "impl")
    (Look.but (Look.word "default") (Look.second (Look.op "!")))
  if ← peek (Look.signature false) then functionItem r start attributes visible
  else if ← peek (Look.word "extern") then externItem r attributes visible
  else if ← peek (Look.word "use") then importItem r start attributes visible
  else if ← peek (Look.word "static") then staticItem r start attributes visible
  else if ← peek (Look.word "const") then constItem r start attributes visible
  else if ← peek (Look.word "unsafe") then unsafeItem r start attributes visible
  else if ← peek (Look.word "mod") then submodule r attributes visible
  else if ← peek (Look.word "type") then typeItem r start attributes visible
  else if ← peek (Look.word "struct") then declaration r attributes visible .struct
  else if ← peek (Look.word "enum") then declaration r attributes visible .enumeration
  else if ← peek union then declaration r attributes visible .union
  else if ← peek (Look.either (Look.word "trait") auto) then
    spelled attributes [pure visible, traitItem r]
  else if ← peek implements then implItem r start attributes visible
  else if ← peek (Look.word "macro") then macroDefinition start
  else if visible.isEmpty && (← peek Look.macroPath) then
    spelled attributes [macroCall true]
  else expectedOf (itemChoices !visible.isEmpty)

theorem item_eq (r : Rules) : item r = (do
    let start ← get
    let attributes ← outerAttributes r
    let visible ← visibility
    attributed r start attributes visible) := rfl

instance marks_attributed : Marks (attributed r start (Marking.attribute :: attributes) visible)
    (attributed r start' attributes visible) := by
  unfold attributed; dsimp only; infer_instance

theorem Marks.map_eq {x y : Reader Item} (h : Marks x y) (trees : List Tree) :
    (x trees).map (Prod.map Item.isMarked id) = (y trees).map (Prod.map Item.isType id) := by
  have hsame := congrFun h.same trees
  rw [map_apply, map_apply] at hsame
  cases hx : x trees <;> cases hy : y trees <;> simp_all [Except.map, Prod.ext_iff]

/-- With the marker before it an item is read as without, and is marked if it declares a type. -/
theorem item_marker (trees : List Tree) :
    (item r (Marking.attribute.spelling ++ trees)).map (Prod.map Item.isMarked id) =
      (item r trees).map (Prod.map Item.isType id) := by
  rw [item_eq, bind_apply, bind_apply, get_apply, get_apply]
  dsimp only
  rw [bind_apply, bind_apply, outerAttributes_marker]
  cases outerAttributes r trees with
  | error => rfl
  | ok found =>
    have hmarks : Marks
        (visibility >>= attributed r (Marking.attribute.spelling ++ trees)
          (Marking.attribute :: found.1))
        (visibility >>= attributed r trees found.1) := inferInstance
    exact hmarks.map_eq found.2

theorem runAll_map {x y : Reader α} {p q : α → β} {trees others : List Tree}
    (h : (x trees).map (Prod.map p id) = (y others).map (Prod.map q id)) :
    (runAll x trees).map p = (runAll y others).map q := by
  unfold runAll
  cases hx : x trees with
  | error =>
    cases hy : y others with
    | error => simpa [hx, hy, Except.map] using h
    | ok => simp [hx, hy, Except.map] at h
  | ok found =>
    cases hy : y others with
    | error => simp [hx, hy, Except.map] at h
    | ok found' =>
      obtain ⟨value, rest⟩ := found
      obtain ⟨value', rest'⟩ := found'
      obtain ⟨hvalue, rfl⟩ : p value = q value' ∧ rest = rest' := by
        simpa [hx, hy, Except.map] using h
      cases rest with
      | nil => exact congrArg Except.ok hvalue
      | cons => rfl

end Reader

theorem readAll_marker (trees : List Tree) :
    (readAll Reader.item (Marking.attribute.spelling ++ trees)).map Item.isMarked =
      (readAll Reader.item trees).map Item.isType := by
  have hsize : Tree.sizeAll trees ≤ Tree.sizeAll (Marking.attribute.spelling ++ trees) :=
    Tree.sizeAll_le_of_suffix (List.suffix_append ..)
  have hdeeper : Reader.runAll (Reader.item (Rules.forTrees (Marking.attribute.spelling ++ trees)))
      trees = readAll Reader.item trees := runAll_upTo (fun halike => halike.step.item) (by omega)
  rw [← hdeeper]
  exact Reader.runAll_map (Reader.item_marker trees)

end Grammar

namespace Marking

variable {arguments item : List Tree}

theorem misuse?_eq_none : misuse? arguments item = none ↔
    arguments = [] ∧ (readAll Reader.item item).map Item.isType = .ok true := by
  unfold misuse?
  cases arguments with
  | cons => simp
  | nil =>
    cases readAll Reader.item item with
    | error => simp [Except.map]
    | ok found => cases found <;> simp [Except.map, Item.isType]

theorem isMarked_iff {node : Node} {trees : List Tree}
    (h : Tree.ofText? node.content = some trees) :
    node.isMarked = true ↔ (readAll Reader.item trees).map Item.isMarked = .ok true := by
  unfold Node.isMarked Node.component? Item.ofText? Grammar.ofText?
  rw [h]
  cases hread : readAll Reader.item trees <;> simp [hread, Except.map, Except.toOption, Item.isMarked]

/-- The item is left as it is. An error follows it unless it has no arguments and discovery finds
the item with the marker before it. -/
theorem mark_eq_append {arguments item : String} {argumentTrees itemTrees : List Tree}
    (harguments : Tree.ofText? arguments = some argumentTrees)
    (hitem : Tree.ofText? item = some itemTrees) (hstart : item.toList.head? ≠ some '\ufeff')
    {node : Node} (hnode : node.content = "#[Component] " ++ item) :
    ∃ error, mark argumentTrees itemTrees = itemTrees ++ error ∧
      markText? arguments item = some (Tree.text (itemTrees ++ error)) ∧
      (error = [] ∨ ∃ message, error = compileError message) ∧
      (error = [] ↔ argumentTrees = [] ∧ node.isMarked = true) := by
  have hmarked := ofText?_marker hitem hstart
  rw [← hnode] at hmarked
  have htext : markText? arguments item = some (Tree.text (mark argumentTrees itemTrees)) := by
    rw [markText?, harguments, hitem]
    rfl
  have hnone : misuse? argumentTrees itemTrees = none ↔
      argumentTrees = [] ∧ node.isMarked = true := by
    rw [misuse?_eq_none, ← readAll_marker, isMarked_iff hmarked]
  cases hmisuse : misuse? argumentTrees itemTrees with
  | none =>
    have hmark : mark argumentTrees itemTrees = itemTrees ++ [] := by rw [mark, hmisuse]
    exact ⟨[], hmark, hmark ▸ htext, .inl rfl, iff_of_true rfl (hnone.mp hmisuse)⟩
  | some misuse =>
    have hmark : mark argumentTrees itemTrees = itemTrees ++ compileError misuse.message := by
      rw [mark, hmisuse]
    refine ⟨_, hmark, hmark ▸ htext, .inr ⟨_, rfl⟩, iff_of_false nofun fun h => ?_⟩
    rw [hnone.mpr h] at hmisuse
    cases hmisuse

/-- A generic structure gets no error, a function gets one. -/
theorem mark_structureAndFunction :
    (∃ trees, Tree.ofText? "pub struct A<T>(T);" = some trees ∧ mark [] trees = trees) ∧
    ∃ trees, Tree.ofText? "fn a() {}" = some trees ∧ mark [] trees ≠ trees := by
  have harguments : Tree.ofText? "" = some [] := rfl
  refine ⟨?_, ?_⟩
  · have hsome : (Tree.ofText? "pub struct A<T>(T);").isSome = true := by decide +kernel
    obtain ⟨trees, htrees⟩ := Option.isSome_iff_exists.mp hsome
    have hnode : (⟨⟨"lib.rs", 0⟩, [], "#[Component] pub struct A<T>(T);"⟩ : Node).content =
        "#[Component] " ++ "pub struct A<T>(T);" := rfl
    obtain ⟨error, hmark, -, -, herror⟩ := mark_eq_append harguments htrees (by decide) hnode
    refine ⟨trees, htrees, ?_⟩
    rw [hmark, herror.mpr ⟨rfl, by decide +kernel⟩, List.append_nil]
  · have hsome : (Tree.ofText? "fn a() {}").isSome = true := by decide +kernel
    obtain ⟨trees, htrees⟩ := Option.isSome_iff_exists.mp hsome
    have hnode : (⟨⟨"lib.rs", 0⟩, [], "#[Component] fn a() {}"⟩ : Node).content =
        "#[Component] " ++ "fn a() {}" := rfl
    obtain ⟨error, hmark, -, -, herror⟩ := mark_eq_append harguments htrees (by decide) hnode
    refine ⟨trees, htrees, fun hsame => ?_⟩
    rw [hmark, List.append_right_eq_self] at hsame
    have hmarked := (herror.mp hsame).2
    revert hmarked
    decide +kernel

end Marking

end ComponentRegistry
