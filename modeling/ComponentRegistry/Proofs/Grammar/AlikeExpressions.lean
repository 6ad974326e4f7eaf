import ComponentRegistry.Proofs.Grammar.AlikeTypes

/-! Expressions and statements read alike with two records of rules that do so on shorter lists. -/

namespace ComponentRegistry.Grammar

namespace Reader

-- The answer for a long reader is a large term.
set_option synthInstance.maxSize 1000000

variable {n : Nat} {fresh : Bool} {r r' : Rules} [Rules.Alike n r r'] [Rules.Alike n r r]

instance eats_dots : Eats n fresh (op "..") := .op (by decide)

instance eats_closedDots : Eats n fresh (op "..=") := .op (by decide)

instance eats_dot : Eats n fresh (op ".") := .op (by decide)

instance eats_doubleArrow : Eats n fresh (op "=>") := .op (by decide)

instance eats_exclamation : Eats n fresh (op "!") := .op (by decide)

instance eats_minus : Eats n fresh (op "-") := .op (by decide)

instance alike_expressions : Alike n false (expressions r) (expressions r') := by
  unfold expressions; infer_instance

instance alike_limits : Alike n fresh limits limits := by
  unfold limits; infer_instance

instance eats_limits : Eats n fresh limits := by
  unfold limits; infer_instance

instance alike_rightSide (structs : Bool) (precedence : Precedence) :
    Alike n false (rightSide r structs precedence) (rightSide r' structs precedence) := by
  unfold rightSide; dsimp only; infer_instance

instance alike_rangeEnd (structs closed : Bool) :
    Alike n false (rangeEnd r structs closed) (rangeEnd r' structs closed) := by
  unfold rangeEnd; dsimp only; infer_instance

theorem eats_binaryOperator {trees : List Tree} {marks : String} {precedence : Precedence}
    (h : binaryOperator? trees = some (marks, precedence)) : Eats n fresh (op marks) := by
  have hall : ∀ found ∈ binaryOperators, found.1 ≠ "" := by decide
  exact .op (hall _ (List.mem_of_find?_eq_some h))

instance alike_operatorStep (structs : Bool) (base : Precedence) (left : Phrase) :
    Alike n fresh (operatorStep r structs base left) (operatorStep r' structs base left) := by
  unfold operatorStep
  dsimp only
  split
  · infer_instance
  refine .andThen .get fun trees => ?_
  cases hop : binaryOperator? trees with
  | some found =>
    have : Eats n fresh (op found.1) := eats_binaryOperator hop
    infer_instance
  | none =>
    refine .andThen (.peek _) fun isAssignment => ?_
    split
    · infer_instance
    refine .andThen (.peek _) fun isRange => ?_
    split
    · infer_instance
    refine .andThen (.peek _) fun isCast => ?_
    split
    · refine .eatsThen inferInstance fun keyword => .andThen inferInstance fun type =>
        .andThen .get fun trees => ?_
      cases afterCast? trees <;> infer_instance
    · infer_instance

instance alike_operators (structs : Bool) (base : Precedence) (left : Phrase) :
    Alike n fresh (operators r structs base left) (operators r' structs base left) := by
  unfold operators; infer_instance

instance alike_fieldValue : Alike n false (fieldValue r) (fieldValue r') := by
  unfold fieldValue; infer_instance

instance alike_structFields : Alike n fresh (structFields r) (structFields r') := by
  unfold structFields; infer_instance

instance alike_pathExpr (structs : Bool) :
    Alike n fresh (pathExpr r structs) (pathExpr r' structs) := by
  unfold pathExpr; dsimp only; infer_instance

instance alike_bracketExpr : Alike n fresh (bracketExpr r) (bracketExpr r') := by
  unfold bracketExpr; infer_instance

instance alike_closureArgument : Alike n false (closureArgument r) (closureArgument r') := by
  unfold closureArgument; infer_instance

instance alike_closure (structs : Bool) : Alike n fresh (closure r structs) (closure r' structs) := by
  unfold closure; infer_instance

instance alike_ifExpr : Alike n fresh (ifExpr r) (ifExpr r') := by
  unfold ifExpr; infer_instance

instance alike_whileExpr : Alike n fresh (whileExpr r) (whileExpr r') := by
  unfold whileExpr; infer_instance

instance alike_forExpr : Alike n fresh (forExpr r) (forExpr r') := by
  unfold forExpr; infer_instance

instance alike_loopExpr : Alike n fresh (loopExpr r) (loopExpr r') := by
  unfold loopExpr; infer_instance

instance alike_blockExpr : Alike n fresh (blockExpr r) (blockExpr r') := by
  unfold blockExpr; infer_instance

instance alike_labelled : Alike n fresh (labelled r) (labelled r') := by
  unfold labelled; dsimp only; infer_instance

instance alike_matchArm : Alike n false (matchArm r) (matchArm r') := by
  unfold matchArm; dsimp only; infer_instance

instance alike_matchExpr : Alike n fresh (matchExpr r) (matchExpr r') := by
  unfold matchExpr; infer_instance

instance alike_firstOf_nil {α : Type} :
    Alike n fresh (firstOf ([] : List (Look × Reader α))) (firstOf []) := .pure _

instance alike_firstOf_cons {α : Type} {look : Look} {x y : Reader α}
    {xs ys : List (Look × Reader α)} [Alike n fresh x y] [Alike n fresh (firstOf xs) (firstOf ys)] :
    Alike n fresh (firstOf ((look, x) :: xs)) (firstOf ((look, y) :: ys)) := by
  unfold firstOf; infer_instance

instance alike_blockForms :
    Alike n fresh (firstOf (blockForms r)) (firstOf (blockForms r')) := by
  unfold blockForms; infer_instance

instance alike_optExpr : Alike n false (optExpr r) (optExpr r') := by
  unfold optExpr; infer_instance

instance alike_breakExpr (structs : Bool) :
    Alike n fresh (breakExpr r structs) (breakExpr r' structs) := by
  unfold breakExpr; dsimp only; infer_instance

instance alike_letExpr (structs : Bool) : Alike n fresh (letExpr r structs) (letExpr r' structs) := by
  unfold letExpr; infer_instance

instance alike_asWritten {x y : Reader Unit} [Alike n fresh x y] :
    Alike n fresh (asWritten x) (asWritten y) := by
  unfold asWritten; infer_instance

instance alike_atom (structs : Bool) : Alike n fresh (atom r structs) (atom r' structs) := by
  unfold atom; dsimp only; infer_instance

instance alike_memberAccess : Alike n false (memberAccess r) (memberAccess r') := by
  unfold memberAccess; dsimp only; infer_instance

instance alike_members : Alike n fresh (members r) (members r') := by
  unfold members
  refine .eatsThen inferInstance fun dot => .get_bind fun trees htrees => ?_
  rcases trees with _ | ⟨⟨_ | _ | _ | text⟩ | _, rest⟩
  case cons.leaf.literal =>
    have hrest := List.suffix_cons (Tree.leaf (.literal text)) rest
    dsimp only
    split
    · exact Alike.from inferInstance htrees (List.suffix_refl _)
    cases tupleIndices? text with
    | none => exact Alike.from inferInstance htrees (List.suffix_refl _)
    | some found => exact .set_bind (Alike.from inferInstance (htrees.suffix hrest) hrest)
  all_goals exact Alike.from inferInstance htrees (List.suffix_refl _)

instance alike_trailerStep (left : Phrase) :
    Alike n fresh (trailerStep r left) (trailerStep r' left) := by
  unfold trailerStep; dsimp only; infer_instance

instance alike_trailers (left : Phrase) : Alike n fresh (trailers r left) (trailers r' left) := by
  unfold trailers; infer_instance

instance alike_referenceSign : Alike n fresh referenceSign referenceSign := by
  unfold referenceSign; dsimp only; infer_instance

instance eats_referenceSign : Eats n fresh referenceSign := by
  unfold referenceSign; dsimp only; infer_instance

instance alike_operand (structs : Bool) : Alike n fresh (operand r structs) (operand r' structs) := by
  unfold operand
  refine .andThen .get fun start => .andThen inferInstance fun attributes =>
    .andThen (.peek _) fun isReference => ?_
  split
  · infer_instance
  refine .andThen (.forIn fun marks hmarks _ => ?_) fun found => ?_
  · have hall : ∀ marks ∈ ["*", "!", "-"], marks ≠ "" := by decide
    have : Eats n fresh (op marks) := .op (hall marks hmarks)
    infer_instance
  · rcases found with ⟨_ | phrase, _⟩ <;> dsimp only <;> infer_instance

section Starts

variable [∀ structs, Alike n fresh (r.operand structs) (r'.operand structs)]
  [∀ structs base left,
    Alike n fresh (r.operators structs base left) (r'.operators structs base left)]

instance alike_leadingExpr : Alike n fresh (leadingExpr r) (leadingExpr r') := by
  unfold leadingExpr; dsimp only; infer_instance

end Starts

/-! Statements. -/

instance alike_letStatement : Alike n fresh (letStatement r) (letStatement r') := by
  unfold letStatement; dsimp only; infer_instance

instance alike_macroStatement : Alike n fresh macroStatement macroStatement := by
  unfold macroStatement; infer_instance

section Starts

variable [∀ structs, Alike n fresh (r.operand structs) (r'.operand structs)]
  [∀ structs base left,
    Alike n fresh (r.operators structs base left) (r'.operators structs base left)]
  [Alike n fresh r.item r'.item]

instance alike_statement : Alike n fresh (statement r) (statement r') := by
  unfold statement
  refine .get_bind fun start hstart => .bind alike_outer hstart fun attributes trees htrees => ?_
  have hwithin := hstart.suffix htrees
  refine .peek_bind ?_
  split
  · exact Alike.from inferInstance hwithin htrees
  refine .peek_bind ?_
  split
  · exact Alike.from inferInstance hwithin htrees
  refine .peek_bind ?_
  split
  · exact .set_bind (Alike.from inferInstance hstart (List.suffix_refl _))
  · exact Alike.from inferInstance hwithin htrees

instance alike_statements : Alike n fresh (statements r) (statements r') := by
  unfold statements; infer_instance

end Starts
end Reader

end ComponentRegistry.Grammar
