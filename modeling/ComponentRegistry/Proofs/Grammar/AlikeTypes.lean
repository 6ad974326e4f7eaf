import ComponentRegistry.Proofs.Grammar.Alike

/-! Attributes, paths, generic parameters, types and patterns read alike with two records of rules
that do so on shorter lists. -/

namespace ComponentRegistry.Grammar

open Reader

/-- All rules of two records are alike on lists smaller than `n`. -/
class Rules.Alike (n : Nat) (r r' : Rules) : Prop where
  bound : ∀ capture conditional,
    Reader.Alike n false (r.bound capture conditional) (r'.bound capture conditional)
  type : ∀ plus, Reader.Alike n false (r.type plus) (r'.type plus)
  pattern : Reader.Alike n false r.pattern r'.pattern
  operand : ∀ structs, Reader.Alike n false (r.operand structs) (r'.operand structs)
  operators : ∀ structs base left,
    Reader.Alike n false (r.operators structs base left) (r'.operators structs base left)
  arm : Reader.Alike n false r.arm r'.arm
  statements : Reader.Alike n false r.statements r'.statements
  fields : Reader.Alike n false r.fields r'.fields
  item : Reader.Alike n false r.item r'.item
  imports : ∀ rooted, Reader.Alike n false (r.imports rooted) (r'.imports rooted)

attribute [instance] Rules.Alike.bound Rules.Alike.type Rules.Alike.pattern Rules.Alike.operand
  Rules.Alike.operators Rules.Alike.arm Rules.Alike.statements Rules.Alike.fields Rules.Alike.item
  Rules.Alike.imports

theorem Rules.Alike.left {n : Nat} {r r' : Rules} (h : Rules.Alike n r r') : Rules.Alike n r r where
  bound capture conditional := (h.bound capture conditional).left
  type plus := (h.type plus).left
  pattern := h.pattern.left
  operand structs := (h.operand structs).left
  operators structs base left := (h.operators structs base left).left
  arm := h.arm.left
  statements := h.statements.left
  fields := h.fields.left
  item := h.item.left
  imports rooted := (h.imports rooted).left

namespace Reader

-- The answer for a long reader is a large term.
set_option synthInstance.maxSize 1000000

variable {n : Nat} {fresh : Bool} {r r' : Rules}

/-! The rules that begin with another one are alike as far as that one is. -/

section Rules

instance Alike.typeText [∀ plus, Alike n fresh (r.type plus) (r'.type plus)] :
    Alike n fresh r.typeText r'.typeText := by unfold Rules.typeText; infer_instance

instance Alike.boundlessType [∀ plus, Alike n fresh (r.type plus) (r'.type plus)] :
    Alike n fresh r.boundlessType r'.boundlessType := by unfold Rules.boundlessType; infer_instance

variable [∀ structs, Alike n fresh (r.operand structs) (r'.operand structs)]
  [∀ structs base left,
    Alike n fresh (r.operators structs base left) (r'.operators structs base left)]

instance Alike.expr (structs : Bool) : Alike n fresh (r.expr structs) (r'.expr structs) := by
  unfold Rules.expr; infer_instance

instance Alike.exprText : Alike n fresh r.exprText r'.exprText := by
  unfold Rules.exprText; infer_instance

instance Alike.condition : Alike n fresh r.condition r'.condition := by
  unfold Rules.condition; infer_instance

end Rules

variable [Rules.Alike n r r'] [Rules.Alike n r r]

instance Alike.block : Alike n fresh r.block r'.block := by unfold Rules.block; infer_instance

instance eats_bar : Eats n fresh (op "|") := .op (by decide)

instance eats_hash : Eats n fresh (op "#") := .op (by decide)

instance eats_equals : Eats n fresh (op "=") := .op (by decide)

instance eats_less : Eats n fresh (op "<") := .op (by decide)

instance eats_colon : Eats n fresh (op ":") := .op (by decide)

instance eats_arrow : Eats n fresh (op "->") := .op (by decide)

instance eats_plus : Eats n fresh (op "+") := .op (by decide)

instance eats_star : Eats n fresh (op "*") := .op (by decide)

instance eats_ampersand : Eats n fresh (op "&") := .op (by decide)

instance alike_patterns [Alike n fresh r.pattern r'.pattern] :
    Alike n fresh r.patterns r'.patterns := by
  unfold Rules.patterns; infer_instance

/-! Attributes. -/

instance alike_namePath : Alike n fresh namePath namePath := by
  unfold namePath; dsimp only; infer_instance

instance alike_macroArguments : Alike n fresh macroArguments macroArguments := by
  unfold macroArguments; infer_instance

instance alike_attributePath : Alike n fresh attributePath attributePath := by
  unfold attributePath; infer_instance

instance alike_attributeValue : Alike n false (attributeValue r) (attributeValue r') := by
  unfold attributeValue
  refine .andThen .get fun trees => ?_
  rcases literal trees with failure | ⟨text, _ | ⟨tree, rest⟩⟩ <;> dsimp only <;> infer_instance

instance alike_attributeInside (inner : Bool) :
    Alike n false (attributeInside r inner) (attributeInside r' inner) := by
  unfold attributeInside
  refine .andThen inferInstance fun path => .andThen .get fun trees => ?_
  rcases trees with _ | ⟨_ | _, _⟩ <;> dsimp only <;> infer_instance

instance alike_outerAttribute : Alike n fresh (outerAttribute r) (outerAttribute r') := by
  unfold outerAttribute; infer_instance

instance alike_innerAttribute : Alike n fresh (innerAttribute r) (innerAttribute r') := by
  unfold innerAttribute; infer_instance

instance alike_collect {look : Look} {part part' : Reader Attribute} [Alike n fresh part part'] :
    Alike n fresh (collect look part) (collect look part') := by
  unfold collect; infer_instance

instance alike_outerAttributes : Alike n fresh (outerAttributes r) (outerAttributes r') := by
  unfold outerAttributes; infer_instance

instance alike_innerAttributes : Alike n fresh (innerAttributes r) (innerAttributes r') := by
  unfold innerAttributes; infer_instance

instance alike_outer : Alike n fresh (outer r) (outer r') := by
  unfold outer; infer_instance

instance alike_body {part part' : Reader Spelling} [Alike n false part part'] :
    Alike n fresh (body r part) (body r' part') := by
  unfold body; infer_instance

/-! Paths. -/

instance alike_angled {part part' : Reader (Bool × Spelling)} [Alike n false part part'] :
    Alike n fresh (angled part) (angled part') := by
  unfold angled; dsimp only; infer_instance

instance alike_constant : Alike n fresh (constant r) (constant r') := by
  unfold constant; infer_instance

section Starts

variable [∀ capture conditional,
  Alike n fresh (r.bound capture conditional) (r'.bound capture conditional)]

instance alike_bounds (stop : Look) (conditional : Bool) :
    Alike n fresh (bounds r stop conditional) (bounds r' stop conditional) := by
  unfold bounds; infer_instance

instance alike_openBounds (stop : Look) (conditional : Bool) :
    Alike n fresh (openBounds r stop conditional) (openBounds r' stop conditional) := by
  unfold openBounds; infer_instance

end Starts

instance alike_pathArgument : Alike n false (pathArgument r) (pathArgument r') := by
  unfold pathArgument
  refine .andThen (.peek _) fun isLifetime => ?_
  split
  · infer_instance
  refine .andThen (.peek _) fun isConstant => ?_
  split
  · infer_instance
  refine .andThen inferInstance fun first => ?_
  rcases first.form with (_ | _) | _ | _ <;> dsimp only <;> infer_instance

instance alike_segment (inExpr : Bool) : Alike n fresh (segment r inExpr) (segment r' inExpr) := by
  unfold segment; dsimp only; infer_instance

instance eats_segment (inExpr : Bool) : Eats n fresh (segment r inExpr) := by
  unfold segment; dsimp only; infer_instance

instance alike_path (inExpr : Bool) : Alike n fresh (path r inExpr) (path r' inExpr) := by
  unfold path; dsimp only; infer_instance

instance eats_path (inExpr : Bool) : Eats n fresh (path r inExpr) := by
  unfold path; dsimp only; infer_instance

instance alike_selfTypeRest (inExpr : Bool) :
    Alike n fresh (selfTypeRest r inExpr) (selfTypeRest r' inExpr) := by
  unfold selfTypeRest; dsimp only; infer_instance

instance alike_selfTypePath (inExpr : Bool) :
    Alike n fresh (selfTypePath r inExpr) (selfTypePath r' inExpr) := by
  unfold selfTypePath; infer_instance

instance eats_selfTypePath (inExpr : Bool) : Eats n fresh (selfTypePath r inExpr) := by
  unfold selfTypePath; infer_instance

instance alike_anyPath (inExpr : Bool) : Alike n fresh (anyPath r inExpr) (anyPath r' inExpr) := by
  unfold anyPath; infer_instance

instance eats_anyPath (inExpr : Bool) : Eats n fresh (anyPath r inExpr) := by
  unfold anyPath; infer_instance

/-! Generic parameters and `where` clauses. -/

instance alike_afterColon {part part' : Reader Spelling} [Alike n false part part'] :
    Alike n fresh (afterColon part) (afterColon part') := by
  unfold afterColon; infer_instance

instance alike_lifetimeParam : Alike n fresh lifetimeParam lifetimeParam := by
  unfold lifetimeParam; infer_instance

instance alike_typeParam : Alike n fresh (typeParam r) (typeParam r') := by
  unfold typeParam; infer_instance

instance alike_constParam : Alike n fresh (constParam r) (constParam r') := by
  unfold constParam; infer_instance

instance alike_genericParam (underscore : Bool) :
    Alike n fresh (genericParam r underscore) (genericParam r' underscore) := by
  unfold genericParam; infer_instance

instance alike_generics : Alike n fresh (generics r) (generics r') := by
  unfold generics; infer_instance

instance alike_binder : Alike n fresh (binder r) (binder r') := by
  unfold binder; infer_instance

instance alike_optBinder : Alike n fresh (optBinder r) (optBinder r') := by
  unfold optBinder; infer_instance

instance alike_wherePredicate : Alike n false (wherePredicate r) (wherePredicate r') := by
  unfold wherePredicate; infer_instance

instance alike_whereClause : Alike n fresh (whereClause r) (whereClause r') := by
  unfold whereClause; infer_instance

instance alike_whereText : Alike n fresh (whereText r) (whereText r') := by
  unfold whereText; infer_instance

/-! Types. -/

instance alike_returnType : Alike n fresh (returnType r) (returnType r') := by
  unfold returnType; infer_instance

instance alike_boundlessReturnType :
    Alike n fresh (boundlessReturnType r) (boundlessReturnType r') := by
  unfold boundlessReturnType; infer_instance

instance alike_callArguments : Alike n fresh (callArguments r) (callArguments r') := by
  unfold callArguments; infer_instance

instance alike_traitPath : Alike n fresh (traitPath r) (traitPath r') := by
  unfold traitPath; infer_instance

instance alike_captures : Alike n fresh captures captures := by
  unfold captures; infer_instance

instance alike_constMark (allowed : Bool) : Alike n fresh (constMark allowed) (constMark allowed) := by
  unfold constMark; infer_instance

instance alike_traitBound (conditional : Bool) :
    Alike n fresh (traitBound r conditional) (traitBound r' conditional) := by
  unfold traitBound; infer_instance

instance alike_bound (capture conditional : Bool) :
    Alike n fresh (bound r capture conditional) (bound r' capture conditional) := by
  unfold bound; infer_instance

section Starts

variable [∀ capture conditional,
  Alike n fresh (r.bound capture conditional) (r'.bound capture conditional)]

instance alike_boundList (plus capture conditional : Bool) (what : String) :
    Alike n fresh (boundList r plus capture conditional what)
      (boundList r' plus capture conditional what) := by
  unfold boundList; infer_instance

instance alike_objectBounds (plus : Bool) :
    Alike n fresh (objectBounds r plus) (objectBounds r' plus) := by
  unfold objectBounds; infer_instance

end Starts

instance alike_moreBounds (first : Spelling) :
    Alike n fresh (moreBounds r first) (moreBounds r' first) := by
  unfold moreBounds; infer_instance

instance alike_parenthesized : Alike n fresh (parenthesized r) (parenthesized r') := by
  unfold parenthesized; infer_instance

instance alike_parenType (plus : Bool) : Alike n fresh (parenType r plus) (parenType r' plus) := by
  unfold parenType
  refine .andThen inferInstance fun content => ?_
  rcases content with text | bare | type
  · infer_instance
  · dsimp only; infer_instance
  · refine .andThen (.peek _) fun more => ?_
    rcases type.form with lone | bare | _ <;> cases plus && more <;> dsimp only <;> infer_instance

instance alike_variadicArgument : Alike n fresh variadicArgument variadicArgument := by
  unfold variadicArgument; infer_instance

instance alike_pointerArgument (first : Bool) :
    Alike n false (pointerArgument r first) (pointerArgument r' first) := by
  unfold pointerArgument; dsimp only; infer_instance

instance alike_pointerArguments : Alike n false (pointerArguments r) (pointerArguments r') := by
  unfold pointerArguments; dsimp only; infer_instance

instance alike_abi : Alike n fresh abi abi := by
  unfold abi; infer_instance

instance alike_optAbi : Alike n fresh optAbi optAbi := by
  unfold optAbi; infer_instance

instance alike_functionPointer : Alike n fresh (functionPointer r) (functionPointer r') := by
  unfold functionPointer; infer_instance

instance alike_pathType (plus : Bool) (lifetimes : Spelling) :
    Alike n fresh (pathType r plus lifetimes) (pathType r' plus lifetimes) := by
  unfold pathType; dsimp only; infer_instance

instance alike_dynType (plus : Bool) : Alike n fresh (dynType r plus) (dynType r' plus) := by
  unfold dynType; infer_instance

instance alike_bracketType : Alike n fresh (bracketType r) (bracketType r') := by
  unfold bracketType; infer_instance

instance alike_pointerType : Alike n fresh (pointerType r) (pointerType r') := by
  unfold pointerType; infer_instance

instance alike_referenceType : Alike n fresh (referenceType r) (referenceType r') := by
  unfold referenceType; infer_instance

instance alike_implType (plus : Bool) : Alike n fresh (implType r plus) (implType r' plus) := by
  unfold implType; infer_instance

instance alike_type (plus : Bool) [∀ capture conditional,
    Alike n fresh (r.bound capture conditional) (r'.bound capture conditional)] :
    Alike n fresh (type r plus) (type r' plus) := by
  unfold type; dsimp only; infer_instance

/-! Patterns. -/

instance alike_member : Alike n fresh member member := by
  unfold member
  refine .andThen (.peek _) fun isName => ?_
  split
  · infer_instance
  refine .get_bind fun trees htrees => ?_
  split
  case h_1 text rest =>
    have hrest := List.suffix_cons (Tree.leaf (.literal text)) rest
    split
    · exact .set_bind (Alike.from inferInstance (htrees.suffix hrest) hrest)
    · exact Alike.from inferInstance htrees (List.suffix_refl _)
  · exact Alike.from inferInstance htrees (List.suffix_refl _)

instance alike_constBlock : Alike n fresh (constBlock r) (constBlock r') := by
  unfold constBlock; infer_instance

instance alike_patternLimits : Alike n fresh patternLimits patternLimits := by
  unfold patternLimits; infer_instance

instance alike_patternBound : Alike n fresh (patternBound r) (patternBound r') := by
  unfold patternBound; dsimp only; infer_instance

instance alike_patternRange (lower : Spelling) :
    Alike n fresh (patternRange r lower) (patternRange r' lower) := by
  unfold patternRange; dsimp only; infer_instance

instance alike_fieldPattern : Alike n false (fieldPattern r) (fieldPattern r') := by
  unfold fieldPattern; dsimp only; infer_instance

instance alike_structPattern : Alike n fresh (structPattern r) (structPattern r') := by
  unfold structPattern; dsimp only; infer_instance

instance alike_patternList : Alike n false (patternList r) (patternList r') := by
  unfold patternList; infer_instance

instance alike_pathPattern : Alike n fresh (pathPattern r) (pathPattern r') := by
  unfold pathPattern; dsimp only; infer_instance

instance alike_identPattern : Alike n fresh (identPattern r) (identPattern r') := by
  unfold identPattern; infer_instance

instance alike_literalPattern : Alike n fresh (literalPattern r) (literalPattern r') := by
  unfold literalPattern; infer_instance

instance alike_slicePattern : Alike n fresh (slicePattern r) (slicePattern r') := by
  unfold slicePattern; infer_instance

instance alike_pattern : Alike n fresh (pattern r) (pattern r') := by
  unfold pattern; dsimp only; infer_instance

end Reader
end ComponentRegistry.Grammar
