import ComponentRegistry.Proofs.Grammar.ArguedPath

/-! Paths as operands, with calls and fields after them. -/

namespace ComponentRegistry.Grammar

open Path

/-- What may stand after an expression, so that it ends there. -/
structure EndsExpr (trees : List Tree) : Prop extends EndsPath trees where
  noOperator : binaryOperator? trees = none
  noAssignment : Look.assignment trees = false
  noRange : Look.op ".." trees = false
  noCast : Look.word "as" trees = false
  noDot : Look.dot trees = false
  noCall : Look.group .paren trees = false
  noIndex : Look.group .bracket trees = false
  noQuestion : Look.op "?" trees = false

theorem endsExpr_nil : EndsExpr [] := by
  constructor <;> simp [binaryOperator?, binaryOperators, Look.assignment, Look.dot]

theorem endsExpr_comma (joint : Bool) (rest : List Tree) :
    EndsExpr (.leaf (.mark ',' joint) :: rest) := by
  constructor <;> cases joint <;>
    simp [binaryOperator?, binaryOperators, Look.assignment, Look.dot, marks?]

theorem endsExpr_brace (inner rest : List Tree) : EndsExpr (.group .brace inner :: rest) := by
  constructor <;> simp [binaryOperator?, binaryOperators, Look.assignment, Look.dot]

namespace Reader

variable {r : Rules} {trees rest middle : List Tree} {p : Path} {text whole : Spelling}
  {structs : Bool} {found : Phrase × List Tree}

theorem operators_end (h : EndsExpr rest) (base : Precedence) (left : Phrase) :
    operators r structs base left rest = .ok (left, rest) := by
  refine loop_last ?_
  unfold operatorStep
  cases hform : left.form == .range <;>
    simp [h.noOperator, h.noAssignment, h.noRange, h.noCast]

theorem trailers_end (h : EndsExpr rest) (left : Phrase) :
    trailers r left rest = .ok (left, rest) := by
  refine loop_last ?_
  simp [↓trailerStep, h.noCall, h.noDot, h.noIndex, h.noQuestion]

theorem trailers_next {left next : Phrase}
    (h : trailerStep r left trees = .ok (.inl next, rest)) (hlt : rest.length < trees.length)
    (hmore : trailers r next rest = .ok found) : trailers r left trees = .ok found :=
  loop_next h hlt hmore

/-- A call after an operand. -/
theorem trailers_call {inner : List Tree} {arguments : Spelling}
    (hinner : expressions r inner = .ok (arguments, []))
    (hmore : trailers r (plain (text ++ [.group .paren arguments])) rest = .ok found) :
    trailers r (plain text) (.group .paren inner :: rest) = .ok found := by
  refine trailers_next ?_ (by simp) hmore
  simp [↓trailerStep, ↓enclosed, plain, hinner]

/-- A field after an operand. -/
theorem trailers_field {name : String} (hname : name ∉ keywords)
    (hcolons : Look.op "::" rest = false) (hcall : Look.group .paren rest = false)
    (hmore : trailers r (plain (text ++ [.leaf (.mark '.' false), .leaf (.word false name)])) rest =
      .ok found) :
    trailers r (plain text) (.leaf (.mark '.' false) :: .leaf (.word false name) :: rest) =
      .ok found := by
  have hawait : name ≠ "await" := by
    rintro rfl
    exact hname (by decide)
  refine trailers_next ?_ (by simp only [List.length_cons]; omega) hmore
  simp [↓trailerStep, Look.dot, ↓members, ↓memberAccess, ↓member, ↓ident, ↓Reader.optional,
    Name.spelling, plain, marks?, hname, hawait, hcolons, hcall]

/-- A method call after an operand. -/
theorem trailers_method {name : String} (hname : name ∉ keywords) {inner : List Tree}
    {arguments : Spelling} (hinner : expressions r inner = .ok (arguments, []))
    (hmore : trailers r (plain (text ++ [.leaf (.mark '.' false), .leaf (.word false name),
      .group .paren arguments])) rest = .ok found) :
    trailers r (plain text) (.leaf (.mark '.' false) :: .leaf (.word false name) ::
      .group .paren inner :: rest) = .ok found := by
  have hawait : name ≠ "await" := by
    rintro rfl
    exact hname (by decide)
  refine trailers_next ?_ (by simp only [List.length_cons]; omega) hmore
  simp [↓trailerStep, Look.dot, ↓members, ↓memberAccess, ↓member, ↓ident, ↓Reader.optional,
    ↓enclosed, Name.spelling, plain, marks?, hname, hawait, hinner]

/-- A method call with a type after an operand. -/
theorem trailers_turbofish {name : String} (hname : name ∉ keywords) {inner argument : List Tree}
    {arguments type : Spelling} (hargument : ArgumentReads r argument type)
    (hinner : expressions r inner = .ok (arguments, []))
    (hmore : trailers r (plain (text ++ [.leaf (.mark '.' false), .leaf (.word false name)] ++
      double ++ inAngles type ++ [.group .paren arguments])) rest = .ok found) :
    trailers r (plain text) (.leaf (.mark '.' false) :: .leaf (.word false name) ::
      (double ++ .leaf (.mark '<' false) :: (argument ++ .leaf (.mark '>' false) ::
        .group .paren inner :: rest))) = .ok found := by
  have hawait : name ≠ "await" := by
    rintro rfl
    exact hname (by decide)
  obtain ⟨isLifetime, hread⟩ := hargument.read false (.group .paren inner :: rest)
  have hangled := angled_one (hargument.noEnd _) hread
  refine trailers_next ?_ (by simp [double]; omega) hmore
  simp [↓trailerStep, Look.dot, ↓members, ↓memberAccess, ↓member, ↓ident, ↓Reader.optional,
    ↓enclosed, Name.spelling, plain, marks?, double, hname, hawait, hangled, hinner]

/-- What starts with a path and is no builtin is read as an expression that does. -/
theorem atom_pathExpr (hstarts : StartsPath trees)
    (hbuiltin : Look.second (Look.op "#") trees = false) :
    atom r structs trees = pathExpr r structs trees := by
  have hclosure : Look.closure trees = false := by
    simp [Look.closure, hstarts.op (show "|".toList.head?.any (· != ':') = true by decide),
      hstarts.word (show startsNoPath "move" = true by decide),
      hstarts.word (show startsNoPath "for" = true by decide),
      hstarts.word (show startsNoPath "const" = true by decide),
      hstarts.word (show startsNoPath "static" = true by decide),
      hstarts.word (show startsNoPath "async" = true by decide)]
  have hasync : Look.asyncBlock trees = false := by
    simp [Look.asyncBlock, hstarts.word (show startsNoPath "async" = true by decide)]
  have hnoBuiltin : isBuiltin trees = false := by simp [isBuiltin, hbuiltin]
  have hisPath : isPathExpr trees = true := by
    obtain ⟨⟨raw, text⟩, hname, rest, rfl⟩ | ⟨rest, rfl⟩ := hstarts
    · rcases hname with hname | hname | hname
      · simp_all [isPathExpr]
      · simp_all [isPathExpr]
      · simp only [pathKeywords, List.mem_cons, List.not_mem_nil, or_false] at hname
        cases raw <;> rcases hname with rfl | rfl | rfl | rfl <;> simp [isPathExpr, pathKeywords]
    · simp [isPathExpr, marks?]
  simp only [atom, bind_apply, peek_apply, ite_apply, hstarts.literal, hasync, hclosure, hnoBuiltin,
    hisPath, Bool.false_eq_true, if_false, if_true]

/-- A path that is no call of a macro and no structure is an operand. -/
theorem atom_path (hstarts : StartsPath trees) (hbuiltin : Look.second (Look.op "#") trees = false)
    (hpath : path r true trees = .ok (p, rest)) (hbang : Look.op "!" rest = false)
    (hbrace : structs = true → Look.group .brace rest = false) :
    atom r structs trees = .ok (plain p.spelling, rest) := by
  rw [atom_pathExpr hstarts hbuiltin]
  cases structs <;>
    simp_all [↓pathExpr, ↓anyPath, hstarts.op (show "<".toList.head?.any (· != ':') = true by decide)]

/-- An operand without signs before it. -/
theorem operand_atom (hstarts : StartsPath trees) (hatom : atom r structs trees =
      .ok (plain text, middle)) (hmore : trailers r (plain text) middle = .ok (plain whole, rest)) :
    operand r structs trees = .ok (plain whole, rest) := by
  simp only [plain] at hatom hmore ⊢
  simp [↓operand, hstarts.op (show "#".toList.head?.any (· != ':') = true by decide),
    hstarts.op (show "&".toList.head?.any (· != ':') = true by decide),
    hstarts.op (show "*".toList.head?.any (· != ':') = true by decide),
    hstarts.op (show "!".toList.head?.any (· != ':') = true by decide),
    hstarts.op (show "-".toList.head?.any (· != ':') = true by decide), hatom, hmore]

/-- An operand that no operator follows is an expression. -/
theorem exprText_operand {n : Nat} (h : operand (Rules.upTo n) true trees = .ok (plain text, rest))
    (hrest : EndsExpr rest) : (Rules.upTo (n + 1)).exprText trees = .ok (text, rest) := by
  have hoperand : (Rules.upTo (n + 1)).operand true trees = .ok (plain text, rest) := h
  have hend : (Rules.upTo (n + 1)).operators true .jump (plain text) rest =
      .ok (plain text, rest) := operators_end hrest ..
  simp only [plain] at hoperand hend
  simp [↓Rules.exprText, ↓Rules.expr, hoperand, hend]

theorem expressions_nil : expressions r [] = .ok ([], []) := by
  simp [↓expressions, ↓commaList, ↓separated]

theorem expressions_one (hne : trees ≠ []) (h : r.exprText trees = .ok (text, [])) :
    expressions r trees = .ok (text, []) :=
  commaList_one hne h

/-- Two arguments of a call. -/
theorem expressions_two {first second : List Tree} {left right : Spelling} {joint : Bool}
    (hfirst : first ≠ []) (hleft : r.exprText (first ++ .leaf (.mark ',' joint) :: second) =
      .ok (left, .leaf (.mark ',' joint) :: second))
    (hsecond : second ≠ []) (hright : r.exprText second = .ok (right, [])) :
    expressions r (first ++ .leaf (.mark ',' joint) :: second) =
      .ok (left ++ .leaf (.mark ',' false) :: right, []) := by
  have hmore : loop (fun text => do
      if ← peek Look.nothing then return .inr text
      let text := text ++ (← r.exprText)
      if ← peek Look.nothing then return .inr text
      return .inl (text ++ (← op ","))) (left ++ [.leaf (.mark ',' false)]) second =
      .ok (left ++ [.leaf (.mark ',' false)] ++ right, []) := by
    refine loop_last ?_
    simp [hsecond, hright]
  have hlist : expressions r (first ++ .leaf (.mark ',' joint) :: second) =
      .ok (left ++ [.leaf (.mark ',' false)] ++ right, []) := by
    refine loop_next ?_ ?_ hmore
    · simp [hfirst, hleft, marks?]
    · simp only [List.length_append, List.length_cons]
      omega
  simpa using hlist

theorem second_of_plain (hp : p.Plain) {look : Look} (hrest : look rest = false)
    (hcolon : ∀ joint rest, look (.leaf (.mark ':' joint) :: rest) = false) :
    Look.second look (p.spelling ++ rest) = false := by
  obtain ⟨names, last, -, -, hp⟩ := hp.exists_names
  rw [hp, spelling_front, front]
  cases p.leading with
  | true => exact hcolon ..
  | false =>
    cases names with
    | nil => exact hrest
    | cons => exact hcolon ..

/-- A path is an operand. -/
theorem atom_plain (hp : p.Plain) (hsharp : Look.op "#" rest = false) (hrest : EndsPath rest)
    (hbrace : structs = true → Look.group .brace rest = false) :
    atom r structs (p.spelling ++ rest) = .ok (plain p.spelling, rest) :=
  atom_path (hp.startsPath rest) (second_of_plain hp hsharp (by simp [marks?]))
    (path_plain hp hrest) hrest.noBang hbrace

/-- A call of what a path names is an operand. -/
theorem operand_call (hp : p.Plain) {inner : List Tree} {arguments : Spelling}
    (hinner : expressions r inner = .ok (arguments, [])) (hrest : EndsExpr rest) :
    operand r structs (p.spelling ++ .group .paren inner :: rest) =
      .ok (plain (p.spelling ++ [.group .paren arguments]), rest) :=
  operand_atom (hp.startsPath _)
    (atom_plain hp (by simp) (endsPath_group ..) fun _ => rfl)
    (trailers_call hinner (trailers_end hrest _))

/-- A path is an expression. -/
theorem exprText_plain {n : Nat} (hp : p.Plain) (hsharp : Look.op "#" rest = false)
    (hbrace : Look.group .brace rest = false) (hrest : EndsExpr rest) :
    (Rules.upTo (n + 1)).exprText (p.spelling ++ rest) = .ok (p.spelling, rest) :=
  exprText_operand (operand_atom (hp.startsPath rest)
    (atom_plain hp hsharp hrest.toEndsPath fun _ => hbrace) (trailers_end hrest _)) hrest

/-- A name alone is an expression. -/
theorem exprText_name {n : Nat} {name : String} (hname : (⟨false, name⟩ : Name).InPath)
    (hsharp : Look.op "#" rest = false) (hbrace : Look.group .brace rest = false)
    (hrest : EndsExpr rest) : (Rules.upTo (n + 1)).exprText (.leaf (.word false name) :: rest) =
      .ok ([.leaf (.word false name)], rest) := by
  have hread := @exprText_plain rest _ n (plain_name hname) hsharp hbrace hrest
  rwa [spelling_name] at hread

/-- A name alone is the argument of a call. -/
theorem expressions_name {n : Nat} {name : String} (hname : (⟨false, name⟩ : Name).InPath) :
    expressions (Rules.upTo (n + 1)) [.leaf (.word false name)] =
      .ok ([.leaf (.word false name)], []) :=
  expressions_one (by simp) (exprText_name hname (by simp) (by simp) endsExpr_nil)

/-- An expression where a statement or the arm of a choice starts. -/
theorem leadingExpr_plain {n : Nat} (hsharp : Look.op "#" trees = false)
    (hforms : firstOf (blockForms (Rules.upTo (n + 1))) trees = .ok (none, trees))
    (hoperand : operand (Rules.upTo n) true trees = .ok (plain text, rest)) (hrest : EndsExpr rest) :
    leadingExpr (Rules.upTo (n + 1)) trees = .ok (plain text, rest) := by
  have hread : (Rules.upTo (n + 1)).operand true trees = .ok (plain text, rest) := hoperand
  have hend : (Rules.upTo (n + 1)).operators true .jump (plain text) rest =
      .ok (plain text, rest) := operators_end hrest ..
  simp only [plain] at hread hend ⊢
  simp [↓leadingExpr, hsharp, hforms, hread,
    hend]

theorem firstOf_blockForms (hstarts : StartsPath trees) :
    firstOf (blockForms r) trees = .ok (none, trees) := by
  simp [blockForms, ↓firstOf, Look.tryBlock, Look.constBlock, hstarts.group, hstarts.lifetime,
    hstarts.word (show startsNoPath "if" = true by decide),
    hstarts.word (show startsNoPath "while" = true by decide),
    hstarts.word (show startsNoPath "for" = true by decide),
    hstarts.word (show startsNoPath "loop" = true by decide),
    hstarts.word (show startsNoPath "match" = true by decide),
    hstarts.word (show startsNoPath "try" = true by decide),
    hstarts.word (show startsNoPath "unsafe" = true by decide),
    hstarts.word (show startsNoPath "const" = true by decide)]

/-- An expression that starts with a path. -/
theorem leadingExpr_path {n : Nat} (hstarts : StartsPath trees)
    (hoperand : operand (Rules.upTo n) true trees = .ok (plain text, rest)) (hrest : EndsExpr rest) :
    leadingExpr (Rules.upTo (n + 1)) trees = .ok (plain text, rest) :=
  leadingExpr_plain (hstarts.op (by decide)) (firstOf_blockForms hstarts) hoperand hrest

/-- A literal text as the value of an arm. -/
theorem leadingExpr_literal {n : Nat} {literal : String} (hrest : EndsExpr rest) :
    leadingExpr (Rules.upTo (n + 1)) (.leaf (.literal literal) :: rest) =
      .ok (plain [.leaf (.literal literal)], rest) := by
  have htrailers : trailers (Rules.upTo n) ⟨[.leaf (.literal literal)], .plain, false⟩ rest = _ :=
    trailers_end hrest _
  have hoperand : operand (Rules.upTo n) true (.leaf (.literal literal) :: rest) =
      .ok (plain [.leaf (.literal literal)], rest) := by
    simp [↓operand, ↓atom, ↓Reader.literal, plain,
      htrailers]
  refine leadingExpr_plain (by simp) ?_ hoperand hrest
  simp [blockForms, ↓firstOf, Look.tryBlock, Look.constBlock]

theorem afterNamePath_both {look : Look} (h : Look.afterNamePath (Look.op "!") trees = false) :
    Look.afterNamePath (Look.both (Look.op "!") look) trees = false := by
  unfold Look.afterNamePath at h ⊢
  split at h
  · simp [h]
  · rfl

theorem afterNamePath_but {look other : Look} (h : Look.afterNamePath look trees = false) :
    Look.afterNamePath (Look.but look other) trees = false := by
  unfold Look.afterNamePath at h ⊢
  split at h
  · simp [h]
  · rfl

/-- A block of one expression that starts with the value or the type itself. -/
theorem statements_self {n : Nat} {name : String} (hname : name = "self" ∨ name = "Self")
    (hbang : Look.afterNamePath (Look.op "!") (.leaf (.word false name) :: rest) = false)
    (h : operand (Rules.upTo n) true (.leaf (.word false name) :: rest) = .ok (plain text, [])) :
    statements (Rules.upTo (n + 1)) (.leaf (.word false name) :: rest) = .ok (text, []) := by
  have hin : (⟨false, name⟩ : Name).InPath := by rcases hname with rfl | rfl <;> decide
  have hleading : leadingExpr (Rules.upTo (n + 1)) (.leaf (.word false name) :: rest) =
      .ok (plain text, []) := leadingExpr_path (.inl ⟨_, hin, _, rfl⟩) h endsExpr_nil
  have hstatement : statement (Rules.upTo (n + 1)) (.leaf (.word false name) :: rest) =
      .ok ((text, true), []) := by
    simp only [plain] at hleading
    have hblock : (ExprForm.plain == .block) = false := rfl
    have hbraced : (ExprForm.plain == .bracedMacro) = false := rfl
    have hitem : Look.itemMacro (.leaf (.word false name) :: rest) = false :=
      afterNamePath_both hbang
    have hcall : Look.statementMacro (.leaf (.word false name) :: rest) = false :=
      afterNamePath_but (afterNamePath_both hbang)
    rcases hname with rfl | rfl <;>
      simp [↓statement, hitem, hcall,
        Look.keywordItem, hleading, ↓optOp, ↓Reader.optional, afterAttributes, hblock, hbraced]
  rcases hname with rfl | rfl <;> simp [↓statements, hstatement]

end Reader

end ComponentRegistry.Grammar
