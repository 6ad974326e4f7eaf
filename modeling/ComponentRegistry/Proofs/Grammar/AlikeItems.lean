import ComponentRegistry.Proofs.Grammar.AlikeExpressions

/-! Items read alike with two records of rules that do so on shorter lists, so a rule reads alike at
every depth that is large enough for the trees. -/

namespace ComponentRegistry.Grammar

namespace Reader

-- The answer for a long reader is a large term.
set_option synthInstance.maxSize 1000000

variable {n : Nat} {fresh : Bool} {r r' : Rules} [Rules.Alike n r r'] [Rules.Alike n r r]

instance alike_expectedOf {α : Type} (alternatives : List (Look × String)) :
    Alike n fresh (expectedOf alternatives : Reader α) (expectedOf alternatives) := by
  unfold expectedOf; infer_instance

instance alike_visibility : Alike n fresh visibility visibility := by
  unfold visibility
  refine .andThen (.peek _) fun isPublic => ?_
  split
  · infer_instance
  refine .andThen inferInstance fun keyword => .andThen .get fun trees => ?_
  rcases trees with _ | ⟨_ | ⟨_ | _ | _, _⟩, _⟩ <;> dsimp only <;> infer_instance

instance alike_nestedFields : Alike n false (nestedFields r) (nestedFields r') := by
  unfold nestedFields; infer_instance

instance alike_namedField : Alike n false (namedField r) (namedField r') := by
  unfold namedField; dsimp only; infer_instance

instance alike_namedFields : Alike n fresh (namedFields r) (namedFields r') := by
  unfold namedFields; infer_instance

instance alike_unnamedFields : Alike n fresh (unnamedFields r) (unnamedFields r') := by
  unfold unnamedFields; infer_instance

instance alike_structBody : Alike n false (structBody r) (structBody r') := by
  unfold structBody; dsimp only; infer_instance

instance alike_variant : Alike n false (variant r) (variant r') := by
  unfold variant; dsimp only; infer_instance

instance alike_declaration (attributes : List Attribute) (visible : Spelling) (kind : TypeKind) :
    Alike n fresh (declaration r attributes visible kind)
      (declaration r' attributes visible kind) := by
  unfold declaration
  cases kind <;> infer_instance

instance alike_receiver : Alike n false (receiver r) (receiver r') := by
  unfold receiver; infer_instance

instance alike_functionParameters :
    Alike n false (functionParameters r) (functionParameters r') := by
  unfold functionParameters; dsimp only; infer_instance

instance alike_signature (foreign : Bool) :
    Alike n fresh (signature r foreign) (signature r' foreign) := by
  unfold signature; dsimp only; infer_instance

instance alike_verbatim (start : List Tree) : Alike n fresh (verbatim start) (verbatim start) := by
  unfold verbatim; infer_instance

instance alike_spelled (attributes : List Attribute) {parts parts' : List (Reader Spelling)}
    [Alike n fresh (cat parts) (cat parts')] :
    Alike n fresh (spelled attributes parts) (spelled attributes parts') := by
  unfold spelled; infer_instance

instance alike_functionItem (start : List Tree) (attributes : List Attribute)
    (visible : Spelling) : Alike n fresh (functionItem r start attributes visible)
      (functionItem r' start attributes visible) := by
  unfold functionItem; infer_instance

instance alike_externCrate : Alike n fresh externCrate externCrate := by
  unfold externCrate; infer_instance

instance alike_imports (rooted : Bool) : Alike n fresh (imports r rooted) (imports r' rooted) := by
  unfold imports; dsimp only; infer_instance

instance alike_importItem (start : List Tree) (attributes : List Attribute) (visible : Spelling) :
    Alike n fresh (importItem r start attributes visible)
      (importItem r' start attributes visible) := by
  unfold importItem; dsimp only; infer_instance

instance alike_staticItem (start : List Tree) (attributes : List Attribute) (visible : Spelling) :
    Alike n fresh (staticItem r start attributes visible)
      (staticItem r' start attributes visible) := by
  unfold staticItem; infer_instance

instance alike_constantItem : Alike n fresh (constant? r) (constant? r') := by
  unfold constant?; dsimp only; infer_instance

instance alike_constItem (start : List Tree) (attributes : List Attribute) (visible : Spelling) :
    Alike n fresh (constItem r start attributes visible)
      (constItem r' start attributes visible) := by
  unfold constItem; dsimp only; infer_instance

instance alike_typeAlias (whereBefore whereAfter : Bool) :
    Alike n fresh (typeAlias r whereBefore whereAfter) (typeAlias r' whereBefore whereAfter) := by
  unfold typeAlias; dsimp only; infer_instance

instance alike_typeItem (start : List Tree) (attributes : List Attribute) (visible : Spelling) :
    Alike n fresh (typeItem r start attributes visible) (typeItem r' start attributes visible) := by
  unfold typeItem; dsimp only; infer_instance

instance alike_macroCall (named : Bool) : Alike n fresh (macroCall named) (macroCall named) := by
  unfold macroCall; dsimp only; infer_instance

instance alike_submodule (attributes : List Attribute) (visible : Spelling) :
    Alike n fresh (submodule r attributes visible) (submodule r' attributes visible) := by
  unfold submodule; dsimp only; infer_instance

instance alike_traitMember : Alike n false (traitMember r) (traitMember r') := by
  unfold traitMember; dsimp only; infer_instance

instance alike_traitBody : Alike n fresh (traitBody r) (traitBody r') := by
  unfold traitBody; infer_instance

instance alike_traitAlias : Alike n fresh (traitAlias r) (traitAlias r') := by
  unfold traitAlias; infer_instance

instance alike_traitItem : Alike n fresh (traitItem r) (traitItem r') := by
  unfold traitItem; dsimp only; infer_instance

instance alike_implMember : Alike n false (implMember r) (implMember r') := by
  unfold implMember; dsimp only; infer_instance

instance alike_implementation : Alike n fresh (implementation r) (implementation r') := by
  unfold implementation; dsimp only; infer_instance

instance alike_implItem (start : List Tree) (attributes : List Attribute) (visible : Spelling) :
    Alike n fresh (implItem r start attributes visible) (implItem r' start attributes visible) := by
  unfold implItem; dsimp only; infer_instance

instance alike_foreignMember : Alike n false (foreignMember r) (foreignMember r') := by
  unfold foreignMember; dsimp only; infer_instance

instance alike_foreignModule : Alike n fresh (foreignModule r) (foreignModule r') := by
  unfold foreignModule; infer_instance

instance alike_macroDefinition (start : List Tree) :
    Alike n fresh (macroDefinition start) (macroDefinition start) := by
  unfold macroDefinition; infer_instance

instance alike_externItem (attributes : List Attribute) (visible : Spelling) :
    Alike n fresh (externItem r attributes visible) (externItem r' attributes visible) := by
  unfold externItem; dsimp only; infer_instance

instance alike_unsafeItem (start : List Tree) (attributes : List Attribute) (visible : Spelling) :
    Alike n fresh (unsafeItem r start attributes visible)
      (unsafeItem r' start attributes visible) := by
  unfold unsafeItem; infer_instance

instance alike_item : Alike n fresh (item r) (item r') := by
  unfold item; dsimp only; infer_instance

end Reader

namespace Rules

variable {n : Nat} {r r' : Rules}

/-- Most rules take a tree before they call another one. -/
theorem Alike.step (h : Rules.Alike n r r') : Rules.Alike n r.step r'.step :=
  have := h.left
  { bound := fun _ _ => Reader.alike_bound .., type := fun _ => Reader.alike_type _
    pattern := Reader.alike_pattern, operand := fun _ => Reader.alike_operand _
    operators := fun _ _ _ => Reader.alike_operators .., arm := Reader.alike_leadingExpr
    statements := Reader.alike_statements, fields := Reader.alike_namedFields
    item := Reader.alike_item, imports := fun _ => Reader.alike_imports _ }

/-- Two levels reach one tree further: a type, an expression with attributes or a statement begins
with one of the rules that take a tree. -/
theorem Alike.step_step (h : Rules.Alike n r r') : Rules.Alike (n + 1) r.step.step r'.step.step := by
  have := h.left
  have := h.step
  have := h.step.left
  have : ∀ capture conditional, Reader.Alike n true (r.step.bound capture conditional)
    (r'.step.bound capture conditional) := fun _ _ => Reader.alike_bound ..
  have : ∀ structs, Reader.Alike n true (r.step.operand structs) (r'.step.operand structs) :=
    fun _ => Reader.alike_operand _
  have : ∀ structs base left, Reader.Alike n true (r.step.operators structs base left)
    (r'.step.operators structs base left) := fun _ _ _ => Reader.alike_operators ..
  have : Reader.Alike n true r.step.item r'.step.item := Reader.alike_item
  exact {
    bound := fun _ _ => .succ (Reader.alike_bound ..), type := fun _ => .succ (Reader.alike_type _)
    pattern := .succ Reader.alike_pattern, operand := fun _ => .succ (Reader.alike_operand _)
    operators := fun _ _ _ => .succ (Reader.alike_operators ..)
    arm := .succ Reader.alike_leadingExpr, statements := .succ Reader.alike_statements
    fields := .succ Reader.alike_namedFields, item := .succ Reader.alike_item
    imports := fun _ => .succ (Reader.alike_imports _) }

/-- Rules of different depths are alike on trees that both are deep enough for. -/
theorem alike_upTo {depth depth' : Nat} (h : 2 * n ≤ depth) (h' : 2 * n ≤ depth') :
    Rules.Alike n (upTo depth) (upTo depth') := by
  induction n generalizing depth depth' with
  | zero =>
    have none {α : Type} (x y : Reader α) : Reader.Alike 0 false x y := ⟨nofun, nofun⟩
    constructor <;> intros <;> exact none ..
  | succ n ih =>
    obtain ⟨d, rfl⟩ := Nat.exists_eq_add_of_le' h
    obtain ⟨d', rfl⟩ := Nat.exists_eq_add_of_le' h'
    have hn : Rules.Alike n (upTo (d + 2 * n)) (upTo (d' + 2 * n)) := ih (by omega) (by omega)
    exact hn.step_step

end Rules

/-- The depth that the rules have for some trees is enough: more of it makes no difference. -/
theorem runAll_upTo {α : Type} {reader : Rules → Reader α} {trees : List Tree} {depth : Nat}
    (halike : ∀ {n : Nat} {r r' : Rules}, Rules.Alike n r r' →
      Reader.Alike n false (reader r) (reader r'))
    (hdepth : 2 * Tree.sizeAll trees + 2 ≤ depth) :
    Reader.runAll (reader (Rules.upTo depth)) trees = readAll reader trees := by
  have hrules : Rules.Alike (Tree.sizeAll trees + 1) (Rules.upTo depth) (Rules.forTrees trees) :=
    Rules.alike_upTo (by omega) (by omega)
  have hsame := (halike hrules).same (Nat.lt_succ_self _)
  simp only [readAll, Reader.runAll, hsame]

end ComponentRegistry.Grammar
