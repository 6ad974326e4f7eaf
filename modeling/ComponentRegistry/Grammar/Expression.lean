import ComponentRegistry.Grammar.Pattern

/-! Expressions. An operand is read first, then the operators that follow it, by precedence. -/

namespace ComponentRegistry.Grammar

/-- Binary operators, a longer one before those that it starts with. -/
def binaryOperators : List (String × Precedence) :=
  [("+=", .assign), ("-=", .assign), ("*=", .assign), ("/=", .assign), ("%=", .assign),
    ("^=", .assign), ("&=", .assign), ("|=", .assign), ("<<=", .assign), (">>=", .assign),
    ("&&", .and), ("||", .or), ("<<", .shift), (">>", .shift), ("==", .compare), ("<=", .compare),
    ("!=", .compare), (">=", .compare), ("+", .sum), ("-", .sum), ("*", .product), ("/", .product),
    ("%", .product), ("^", .bitXor), ("&", .bitAnd), ("|", .bitOr), ("<", .compare),
    (">", .compare)]

/-- The binary operator at the front, if there is one. -/
def binaryOperator? (trees : List Tree) : Option (String × Precedence) :=
  binaryOperators.find? fun (marks, _) => Look.op marks trees

namespace Look

/-- A field or method, and no range. -/
def dot : Look := but (op ".") (op "..")

/-- The equals sign of an assignment. -/
def assignment : Look := but (op "=") (op "=>")

/-- The precedence of the operator at the front, the lowest one if there is none. -/
def precedence (trees : List Tree) : Precedence :=
  match binaryOperator? trees with
  | some (_, precedence) => precedence
  | none =>
    if assignment trees then .assign
    else if op ".." trees then .range
    else if word "as" trees then .cast
    else .jump

/-- An expression may start here. -/
def expression : Look := any [
  but anyWord (word "as"), group .paren, group .bracket, group .brace, literal,
  but (op "!") (op "!="), but (op "-") (either (op "-=") (op "->")), but (op "*") (op "*="),
  but (op "|") (op "|="), but (op "&") (op "&="), op "..",
  but (op "<") (either (op "<=") (op "<<=")), op "::", lifetime, op "#"]

/-- Generics, and no path with a self type, after the keyword at the front. -/
def genericsAfterKeyword : Look := both anyWord (second generics)

def asyncBlock : Look :=
  both (word "async") (either (second (group .brace))
    (both (second (word "move")) (third (group .brace))))

def closure : Look := any [
  op "|", word "move", both (word "for") genericsAfterKeyword,
  but (word "const") (second (group .brace)), word "static",
  both (word "async") (second (either (op "|") (word "move")))]

def tryBlock : Look := both (word "try") (second (group .brace))

def constBlock : Look := both (word "const") (second (group .brace))

end Look

namespace Reader

def plain (text : Spelling) : Phrase := ⟨text, .plain, false⟩

def ending (text : Spelling) : Phrase := ⟨text, .block, false⟩

/-- Expressions in a bracket with commas. -/
def expressions (r : Rules) : Reader Spelling := commaList r.exprText

/-- The sign of a range, and whether its upper bound belongs to it. -/
def limits : Reader (Spelling × Bool) := do
  if ← peek (Look.op "..=") then return (← op "..=", true)
  if ← peek (Look.but (Look.op "..") (Look.op "...")) then return (← op "..", false)
  expected ["`..`", "`..=`"]

/-- The right side of an operator: all that binds more strongly than it. -/
def rightSide (r : Rules) (structs : Bool) (precedence : Precedence) : Reader Spelling := do
  let first ← r.operand structs
  let right ← loop (fun right => do
    let before ← get
    let next := Look.precedence before
    if next.rank > precedence.rank || (next == precedence && precedence == .assign) then
      let right ← r.operators structs next right
      if (← get).length == before.length then return .inr right
      return .inl right
    return .inr right) first
  return right.text

/-- The upper bound of a range; without one, something has to follow that starts no expression. -/
def rangeEnd (r : Rules) (structs closed : Bool) : Reader Spelling := do
  let ends := Look.any ([Look.nothing, Look.op ",", Look.op ";", Look.dot, Look.op "?",
    Look.op "=>"] ++ (if structs then [] else [Look.group .brace]) ++
    ["=", "+", "/", "%", "^", ">", "<=", "!=", "-=", "*=", "&=", "|=", "<<="].map Look.op ++
    [Look.word "as"])
  if !closed && (← peek ends) then return []
  rightSide r structs .range

/-- What follows a cast here, though it may not do so without parentheses. -/
def afterCast? (trees : List Tree) : Option String :=
  if Look.dot trees then
    if Look.second (Look.word "await") trees then some "`.await`"
    else if Look.both (Look.second Look.name)
        (Look.third (Look.either (Look.group .paren) (Look.op "::"))) trees then
      some "a method call"
    else some "a field access"
  else if Look.op "?" trees then some "`?`"
  else if Look.group .bracket trees then some "indexing"
  else if Look.group .paren trees then some "a function call"
  else none

/-- One operator after an operand, if one of at least the precedence `base` follows. -/
def operatorStep (r : Rules) (structs : Bool) (base : Precedence) (left : Phrase) :
    Reader (Phrase ⊕ Phrase) := do
  let join (text : Spelling) (form : ExprForm) : Phrase := ⟨left.text ++ text, form, left.loose⟩
  if left.form == .range then return .inr left
  match binaryOperator? (← get) with
  | some (marks, precedence) =>
    if precedence.rank < base.rank then return .inr left
    if precedence == .compare && left.form == .comparison then
      refuse "comparison operators cannot be chained"
    let sign ← op marks
    let right ← rightSide r structs precedence
    return .inl (join (sign ++ right) (if precedence == .compare then .comparison else .plain))
  | none =>
    if base.rank ≤ Precedence.assign.rank && (← peek Look.assignment) then
      let sign ← op "="
      return .inl (join (sign ++ (← rightSide r structs .assign)) .plain)
    if base.rank ≤ Precedence.range.rank && (← peek (Look.op "..")) then
      let (sign, closed) ← limits
      return .inl ⟨left.text ++ sign ++ (← rangeEnd r structs closed), .range, false⟩
    if base.rank ≤ Precedence.cast.rank && (← peek (Look.word "as")) then
      let keyword ← word "as"
      let type ← r.boundlessType
      if let some what := afterCast? (← get) then
        refuse ("casts cannot be followed by " ++ what)
      return .inl (join (keyword ++ type) .plain)
    return .inr left

/-- The operators from the precedence `base` on that follow an operand. -/
def operators (r : Rules) (structs : Bool) (base : Precedence) (left : Phrase) : Reader Phrase :=
  loop (operatorStep r structs base) left

/-- A field of a structure in braces. -/
def fieldValue (r : Rules) : Reader Spelling := do
  let attributes ← outer r
  let (name, named) ← member
  if (← peek (Look.op ":")) || !named then
    return attributes ++ name ++ (← op ":") ++ (← r.exprText)
  return attributes ++ name

/-- The fields of a structure, and the one that has all others. -/
def structFields (r : Rules) : Reader Spelling :=
  enclosed .brace <| loop (fun text => do
    if ← atEnd then return .inr text
    if ← peek (Look.op "..") then
      let sign ← op ".."
      return .inr (text ++ sign ++ (← optional (Look.not Look.nothing) r.exprText))
    let text := text ++ (← fieldValue r)
    if ← atEnd then return .inr text
    return .inl (text ++ (← op ","))) []

/-- A path, or the macro call or structure that starts with it. -/
def pathExpr (r : Rules) (structs : Bool) : Reader Phrase := do
  let (text, callable) ← match ← anyPath r true with
    | .inl text => pure (text, false)
    | .inr path => pure (path.spelling, path.isPlain)
  if callable && (← peek (Look.but (Look.op "!") (Look.op "!="))) then
    let bang ← op "!"
    let (delimiter, arguments) ← macroArguments
    return ⟨text ++ bang ++ arguments, if delimiter = .brace then .bracedMacro else .plain, false⟩
  if structs && (← peek (Look.group .brace)) then
    return plain (text ++ (← structFields r))
  return plain text

def bracketExpr (r : Rules) : Reader Spelling :=
  enclosed .bracket do
    if ← atEnd then return []
    let first ← r.exprText
    if (← atEnd) || (← peek (Look.op ",")) then
      let comma ← optOp ","
      return first ++ comma ++ (← expressions r)
    if ← peek (Look.op ";") then return first ++ (← op ";") ++ (← r.exprText)
    refuse "expected `,` or `;`"

/-- An argument of a closure. -/
def closureArgument (r : Rules) : Reader Spelling := do
  let attributes ← outer r
  let pattern ← r.pattern
  if ← peek (Look.op ":") then
    return attributes ++ pattern.text ++ (← op ":") ++ (← r.typeText)
  return if pattern.form == .verbatim then pattern.text else attributes ++ pattern.text

def closure (r : Rules) (structs : Bool) : Reader Spelling := do
  let head ← cat [optBinder r, optWord "const", optWord "static", optWord "async", optWord "move",
    op "|", separated (Look.op "|") (closureArgument r) ",", op "|"]
  if ← peek (Look.op "->") then
    return head ++ (← op "->") ++ (← r.typeText) ++ (← r.block)
  return head ++ (← r.expr structs).text

def ifExpr (r : Rules) : Reader Spelling :=
  loop (fun text => do
    let text := text ++ (← word "if") ++ (← r.condition) ++ (← r.block)
    if !(← peek (Look.word "else")) then return .inr text
    let text := text ++ (← word "else")
    if ← peek (Look.word "if") then return .inl text
    if ← peek (Look.group .brace) then return .inr (text ++ (← r.block))
    expected ["`if`", "curly braces"]) []

def whileExpr (r : Rules) : Reader Spelling :=
  cat [word "while", r.condition, body r r.statements]

def forExpr (r : Rules) : Reader Spelling :=
  cat [word "for", return (← r.patterns).text, word "in", r.condition, body r r.statements]

def loopExpr (r : Rules) : Reader Spelling := cat [word "loop", body r r.statements]

/-- A body with its inner attributes. -/
def blockExpr (r : Rules) : Reader Spelling := body r r.statements

/-- A loop or block after its label. -/
def labelled (r : Rules) : Reader Spelling := do
  let label ← cat [lifetime, op ":"]
  let inner ← if ← peek (Look.word "while") then whileExpr r
    else if ← peek (Look.word "for") then forExpr r
    else if ← peek (Look.word "loop") then loopExpr r
    else if ← peek (Look.group .brace) then blockExpr r
    else refuse "expected loop or block expression"
  return label ++ inner

def matchArm (r : Rules) : Reader Spelling := do
  let attributes ← outer r
  let pattern ← r.patterns
  let guard ← optional (Look.word "if") (cat [word "if", r.exprText])
  let arrow ← op "=>"
  let value ← r.arm
  let comma ← if value.form != .block && !(← atEnd) then op "," else optOp ","
  return attributes ++ pattern.text ++ guard ++ arrow ++ value.text ++ comma

def matchExpr (r : Rules) : Reader Spelling :=
  cat [word "match", r.condition, body r (many Look.nothing (matchArm r))]

/-- The expressions that end with a block, by what they start with. -/
def blockForms (r : Rules) : List (Look × Reader Spelling) :=
  [(Look.word "if", ifExpr r), (Look.word "while", whileExpr r),
    (Look.but (Look.word "for") Look.genericsAfterKeyword, forExpr r),
    (Look.word "loop", loopExpr r), (Look.word "match", matchExpr r),
    (Look.tryBlock, cat [word "try", r.block]),
    (Look.word "unsafe", cat [word "unsafe", blockExpr r]), (Look.constBlock, constBlock r),
    (Look.group .brace, blockExpr r), (Look.lifetime, labelled r)]

/-- The first of the forms whose look fits, if there is one. -/
def firstOf {α : Type} : List (Look × Reader α) → Reader (Option α)
  | [] => pure none
  | (look, reader) :: rest => do
    if ← peek look then return some (← reader) else firstOf rest

def optExpr (r : Rules) : Reader Spelling := optional Look.expression r.exprText

def breakExpr (r : Rules) (structs : Bool) : Reader Spelling := do
  let keyword ← word "break"
  let label ← optional Look.lifetime lifetime
  if !label.isEmpty && (← peek (Look.op ":")) then refuse "parentheses required"
  let value := if structs then Look.expression
    else Look.but Look.expression (Look.group .brace)
  return keyword ++ label ++ (← optional value r.exprText)

/-- A condition that binds names. -/
def letExpr (r : Rules) (structs : Bool) : Reader Spelling := do
  let head ← cat [word "let", return (← r.patterns).text, op "="]
  return head ++ (← r.operators structs .compare (← r.operand structs)).text

/-- A phrase that is kept as it was written. -/
def asWritten (reader : Reader Unit) : Reader Phrase := do
  let start ← get
  reader
  return ⟨← since start, .plain, true⟩

def isBuiltin : Look := Look.both (Look.word "builtin") (Look.second (Look.op "#"))

def isPathExpr : Look := Look.any [Look.name, Look.op "::", Look.op "<", Look.words pathKeywords,
  Look.both (Look.word "try") (Look.second (Look.either (Look.op "!") (Look.op "::")))]

/-- An operand without signs before it, and without calls and fields after it. -/
def atom (r : Rules) (structs : Bool) : Reader Phrase := do
  if ← peek Look.literal then return plain (← literal)
  else if ← peek Look.asyncBlock then
    return ⟨← cat [word "async", optWord "move", r.block], .plain, false⟩
  else if ← peek Look.closure then return plain (← closure r structs)
  else if ← peek isBuiltin then
    asWritten do
      let _ ← cat [word "builtin", op "#", ident]
      let _ ← inside .paren remaining
  else if ← peek isPathExpr then pathExpr r structs
  else if ← peek (Look.group .paren) then return plain (← enclosed .paren (expressions r))
  else if ← peek (Look.word "break") then return plain (← breakExpr r structs)
  else if ← peek (Look.word "continue") then
    return plain (← cat [word "continue", optional Look.lifetime lifetime])
  else if ← peek (Look.word "return") then return plain (← cat [word "return", optExpr r])
  else if ← peek (Look.word "become") then
    asWritten do
      let _ ← cat [word "become", r.exprText]
  else if ← peek (Look.group .bracket) then return plain (← bracketExpr r)
  else if ← peek (Look.word "let") then return plain (← letExpr r structs)
  else if ← peek (Look.word "yield") then return plain (← cat [word "yield", optExpr r])
  else if ← peek (Look.op "..") then
    let (sign, closed) ← limits
    return ⟨sign ++ (← rangeEnd r structs closed), .range, false⟩
  else if ← peek (Look.word "_") then return plain (← anyIdent)
  else
    match ← firstOf (blockForms r) with
    | some text => return ending text
    | none => refuse "expected an expression"

/-- The members that a number with points in it names one after another, and whether it ends with a
point. -/
def tupleIndices? (float : String) : Option (List Nat × Bool) := do
  let parts := float.splitOn "."
  let open_ := parts.getLast? == some ""
  let parts := if open_ then parts.dropLast else parts
  return (← parts.mapM (Literal.tupleIndex? ·.toList), open_)

/-- A field, a method call or an `await` after its point. -/
def memberAccess (r : Rules) : Reader Spelling := do
  if ← peek (Look.word "await") then word "await"
  else
    let (name, named) ← member
    let turbofish ← if named then
        optional (Look.op "::") do
          let colons ← op "::"
          return colons ++ inAngles (AnglePart.spelling (← angled (pathArgument r)))
      else pure []
    let call := if turbofish.isEmpty then Look.group .paren else fun _ => true
    let arguments ← if named then optional call (enclosed .paren (expressions r)) else pure []
    return name ++ turbofish ++ arguments

/-- What follows the point of a member access; a number with points names several members. -/
def members (r : Rules) : Reader Spelling := do
  let dot ← op "."
  match ← get with
  | .leaf (.literal text) :: rest =>
    if !Literal.isFloat text then return dot ++ (← memberAccess r)
    let some (indices, open_) := tupleIndices? text | refuse "expected unsuffixed integer"
    set rest
    let named := indices.flatMap fun index => dot ++ [.leaf (.literal (toString index))]
    if open_ then return named ++ dot ++ (← memberAccess r)
    return named
  | _ => return dot ++ (← memberAccess r)

/-- One call, index, member or question mark after an operand, if one follows. -/
def trailerStep (r : Rules) (left : Phrase) : Reader (Phrase ⊕ Phrase) := do
  let isRange := left.form == .range
  if ← peek (Look.group .paren) then
    return .inl (plain (left.text ++ (← enclosed .paren (expressions r))))
  if !isRange && (← peek Look.dot) then return .inl (plain (left.text ++ (← members r)))
  if ← peek (Look.group .bracket) then
    return .inl (plain (left.text ++ (← enclosed .bracket r.exprText)))
  if !isRange && (← peek (Look.op "?")) then return .inl (plain (left.text ++ (← op "?")))
  return .inr left

def trailers (r : Rules) (left : Phrase) : Reader Phrase := loop (trailerStep r) left

/-- The sign of a reference or of a raw one. -/
def referenceSign : Reader Spelling := do
  let sign ← op "&"
  let raw ← optional (Look.both (Look.word "raw") (Look.second (Look.words ["mut", "const"])))
    (word "raw")
  let changeable ← optWord "mut"
  let constant ← if !raw.isEmpty && changeable.isEmpty then word "const" else pure []
  return sign ++ raw ++ changeable ++ constant

/-- An operand with all before and after it that binds more strongly than any operator. -/
def operand (r : Rules) (structs : Bool) : Reader Phrase := do
  let start ← get
  let attributes ← outer r
  if ← peek (Look.op "&") then
    let sign ← referenceSign
    return plain (attributes ++ sign ++ (← r.operand structs).text)
  for marks in ["*", "!", "-"] do
    if ← peek (Look.op marks) then
      let sign ← op marks
      return plain (attributes ++ sign ++ (← r.operand structs).text)
  let phrase ← trailers r (← atom r structs)
  if phrase.loose then return { phrase with text := ← since start }
  if !attributes.isEmpty && phrase.form == .range then
    refuse "attributes are not allowed on range expressions starting with `..`"
  return { phrase with text := attributes ++ phrase.text }

/-- An expression where a statement or the arm of a `match` starts: one that ends with its block is
taken for the whole, unless a member or a question mark follows. -/
def leadingExpr (r : Rules) : Reader Phrase := do
  let attributes ← outer r
  let attach (phrase : Phrase) : Phrase :=
    if phrase.loose then phrase else { phrase with text := attributes ++ phrase.text }
  match ← firstOf (blockForms r) with
  | some text =>
    let phrase := attach (ending text)
    if ← peek (Look.either Look.dot (Look.op "?")) then
      r.operators true .jump (← trailers r phrase)
    else return phrase
  | none => r.operators true .jump (attach (← r.operand true))

end Reader

end ComponentRegistry.Grammar
