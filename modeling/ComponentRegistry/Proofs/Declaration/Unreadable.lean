import ComponentRegistry.Proofs.Declaration.Layout
import ComponentRegistry.Proofs.Declaration.Marking
import ComponentRegistry.Proofs.Grammar.Function
import ComponentRegistry.Proofs.Grammar.ModuleNames

/-! A text that is no source file declares no component (`Outline.ofText_unreadable`). A file is read
without byte order mark and interpreter, and after its inner attributes; a single item is read as it
stands. What is dropped in front of a file is never the start of an item, though, so a text that is an
item is a file as well, with this item only (`SourceFile.items?_of_item`). -/

namespace ComponentRegistry

open Grammar Lexer

namespace Lexer

/-- No lexeme starts with a byte order mark. -/
theorem dropByteOrderMark_of_treesOf? {cs : List Char} {trees : List Tree}
    (h : treesOf? cs = some trees) : dropByteOrderMark cs = cs := by
  cases cs with
  | nil => rfl
  | cons c cs =>
    refine dropByteOrderMark_of_ne ?_ cs
    rintro rfl
    simp [treesOf?, lexemes?, lexemesIn?, step?_byteOrderMark] at h

/-- The token that starts a text is its first tree. -/
theorem head_of_lexemesOfAll {token : Token} {trees : List Tree} {more : List Lexeme}
    (h : lexemesOfAll trees = .token token :: more) :
    ∃ rest, trees = .leaf token :: rest ∧ lexemesOfAll rest = more := by
  cases trees with
  | nil => cases h
  | cons tree rest =>
    cases tree with
    | leaf token' =>
      obtain ⟨htoken, hmore⟩ := List.cons.inj h
      cases htoken
      exact ⟨rest, rfl, hmore⟩
    | group => cases h

/-- The two marks that start a text are its first trees. -/
theorem marks_of_treesOf? {rest : List Char} {trees : List Tree}
    (h : treesOf? ('#' :: '!' :: rest) = some trees) :
    ∃ joint more, trees = .leaf (.mark '#' true) :: .leaf (.mark '!' joint) :: more := by
  rw [treesOf?] at h
  obtain ⟨lexemes, hlexemes, hnest⟩ := Option.bind_eq_some_iff.mp h
  have hmarks : Comes ('#' :: '!' :: rest) _ rest :=
    .step (step?_sharp rest) (.step (step?_bang rest) .refl)
  obtain ⟨later, rfl, -⟩ := hmarks.lexes_iff.mp (lexes_of_lexemesIn? hlexemes)
  obtain ⟨others, rfl, hothers⟩ := head_of_lexemesOfAll (lexemesOfAll_nest? hnest)
  obtain ⟨more, rfl, -⟩ := head_of_lexemesOfAll hothers
  exact ⟨_, more, rfl⟩

end Lexer

namespace Grammar

namespace Reader

variable {r : Rules} {trees : List Tree}

theorem mark_of_op {marks : String} {c : Char} (hmarks : marks.toList = [c])
    (h : Look.op marks trees = true) : ∃ joint rest, trees = .leaf (.mark c joint) :: rest := by
  obtain ⟨rest, h⟩ := Option.isSome_iff_exists.mp h
  rw [hmarks] at h
  unfold marks? at h
  split at h <;> simp_all

theorem outerAttribute_of_outerAttributes {found : List Attribute × List Tree}
    (hlook : Look.op "#" trees = true) (h : outerAttributes r trees = .ok found) :
    ∃ first, outerAttribute r trees = .ok first := by
  have hloop : loopIn (collectStep (Look.op "#") (outerAttribute r)) trees [] trees = .ok found := h
  rw [loopIn_apply, collectStep_apply, if_pos hlook] at hloop
  cases hfirst : outerAttribute r trees with
  | error => rw [hfirst] at hloop; cases hloop
  | ok first => exact ⟨first, rfl⟩

/-- The marks of an inner attribute start no attribute of an item. -/
theorem startsInner_of_item {found : Item × List Tree} (h : item r trees = .ok found) :
    startsInner trees = false := by
  obtain ⟨_, _, hstart, h⟩ := exists_of_bind h
  obtain ⟨rfl, rfl⟩ := Prod.mk.inj (Except.ok.inj hstart)
  obtain ⟨attributes, rest, hattributes, -⟩ := exists_of_bind h
  by_contra hinner
  rw [Bool.not_eq_false, startsInner, Bool.and_eq_true] at hinner
  obtain ⟨joint, others, rfl⟩ := mark_of_op rfl hinner.1
  obtain ⟨joint', more, rfl⟩ := mark_of_op rfl hinner.2
  obtain ⟨first, hfirst⟩ := outerAttribute_of_outerAttributes hinner.1 hattributes
  have hbrackets : outerAttribute r (.leaf (.mark '#' joint) :: .leaf (.mark '!' joint') :: more) =
      .error (.expected [groupName .bracket] false) := rfl
  cases hbrackets.symm.trans hfirst

/-- An item has at least one tree. -/
theorem nonempty_of_item {found : Item × List Tree} (h : item r trees = .ok found) : trees ≠ [] := by
  rintro rfl
  have hend : item r [] = expectedOf (itemChoices false) [] := by
    simp [↓item, ↓visibility, Look.signature, Look.dropWord, Look.macroPath]
  cases hend.symm.trans h

/-- A file of one item. -/
theorem moduleItems_of_item {item : Item} (hne : trees ≠ []) (h : r.item trees = .ok (item, [])) :
    moduleItems r trees = .ok ([item], []) := by
  have hfirst : trees.isEmpty = false := by simpa using hne
  refine @loop_next _ _ trees [] _ _ [item] _ ?_ (List.length_pos_iff.mpr hne) (loop_last ?_)
  · simp [hfirst, h]
  · simp

end Reader

namespace SourceFile

variable {text : String} {item : Item}

/-- Nothing is dropped in front of trees that do not start with an inner attribute, but for a byte order
mark. -/
theorem ofText?_content {trees : List Tree} (htrees : Tree.ofText? text = some trees)
    (hinner : Reader.startsInner trees = false) :
    Tree.ofText? (content text) = some trees := by
  rw [Tree.ofText?] at htrees
  have hkeep : dropInterpreter (dropByteOrderMark text.toList) = dropByteOrderMark text.toList := by
    refine dropInterpreter_eq_self_iff.mpr fun rest hrest => ?_
    rw [hrest] at htrees
    obtain ⟨joint, more, rfl⟩ := marks_of_treesOf? htrees
    cases hinner
  rw [Tree.ofText?, content, hkeep, String.toList_ofList, dropByteOrderMark_of_treesOf? htrees, htrees]

/-- A text that is an item is a source file, with this item only. -/
theorem items?_of_item (h : Item.ofText? text = some item) : items? text = some [item] := by
  obtain ⟨trees, htrees, hread⟩ := ofText?_eq_some h
  have hinner := Reader.startsInner_of_item hread
  refine ofText?_of_trees (ofText?_content htrees hinner) ?_
  -- In a file the item is one level further down.
  have hdeep : Rules.Alike (Tree.sizeAll trees + 1) (Rules.forTrees trees)
      (Rules.upTo (4 * Tree.sizeAll trees + 3)) := Rules.alike_upTo (by omega) (by omega)
  have hitem : (Rules.forTrees trees).item trees = .ok (item, []) :=
    (hdeep.step.item.same (Nat.lt_succ_self _)).symm.trans hread
  rw [reader_eq, Reader.bind_apply, Reader.innerAttributes_plain hinner]
  exact Reader.moduleItems_of_item (Reader.nonempty_of_item hread) hitem

end SourceFile

end Grammar

namespace Outline

/-- A text that is no source file is a single declaration, and no component. For a text that is an item
is a source file, whether the item is marked or not. -/
theorem ofText_unreadable (text : String) :
    (SourceFile.items? text = none → ∀ (file : String) (modulePath : List String),
      let node : Node := ⟨⟨file, 0⟩, modulePath, text⟩
      ofText file modulePath text = ⟨[node], []⟩ ∧
      node.isMarked = false ∧ node.descriptor? = none) ∧
    ∀ item, Item.ofText? text = some item → SourceFile.items? text = some [item] := by
  refine ⟨fun hnone file modulePath => ?_, fun item => SourceFile.items?_of_item⟩
  intro node
  have hitem : Item.ofText? node.content = none := by
    refine Option.eq_none_iff_forall_ne_some.mpr fun item hitem => ?_
    rw [SourceFile.items?_of_item hitem] at hnone
    cases hnone
  have hcomponent : node.component? = none := by
    rw [Node.component?, hitem]
    rfl
  refine ⟨?_, ?_, ?_⟩
  · rw [ofText, hnone]
  · rw [Node.isMarked, hcomponent, Option.isSome_none]
  · rw [Node.descriptor?, hcomponent, Option.map_none]

/-- A file that ends too early has no component, and a component behind a byte order mark is a file. -/
theorem ofText_unreadable_truncated :
    (SourceFile.items? "\ufeff#[Component]\npub struct A \x7b" = none ∧
      let node : Node := ⟨⟨"a.rs", 0⟩, ["a"], "\ufeff#[Component]\npub struct A \x7b"⟩
      ofText "a.rs" ["a"] "\ufeff#[Component]\npub struct A \x7b" = ⟨[node], []⟩ ∧
      node.isMarked = false ∧ node.descriptor? = none) ∧
    ∃ item, Item.ofText? "\ufeff#[Component]\npub struct A;" = some item ∧
      item.component? = some ("A", false) ∧
      SourceFile.items? "\ufeff#[Component]\npub struct A;" = some [item] := by
  have hnone : SourceFile.items? "\ufeff#[Component]\npub struct A \x7b" = none := by decide +kernel
  have hcomponent : Item.ofText? "\ufeff#[Component]\npub struct A;" >>= Item.component? =
      some ("A", false) := by decide +kernel
  obtain ⟨item, hitem, hcomponent⟩ := Option.bind_eq_some_iff.mp hcomponent
  exact ⟨⟨hnone, (ofText_unreadable _).1 hnone "a.rs" ["a"]⟩, item, hitem, hcomponent,
    (ofText_unreadable _).2 item hitem⟩

end Outline

end ComponentRegistry
