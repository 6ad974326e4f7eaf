import ComponentRegistry.Grammar.Expression

/-! Statements, and the inside of blocks. -/

namespace ComponentRegistry.Grammar

namespace Look

/-- What follows a path of plain names. -/
def afterNamePath (look : Look) : Look := fun trees =>
  match Reader.namePath trees with
  | .ok (_, rest) => look rest
  | .error _ => false

/-- A macro call with a name after its exclamation mark, which is an item. -/
def itemMacro : Look :=
  afterNamePath (both (op "!") (second (either name (word "try"))))

/-- A macro call in braces that is a statement of its own. -/
def statementMacro : Look :=
  afterNamePath (but (both (op "!") (second (group .brace))) (third (either dot (op "?"))))

/-- An item that starts with a keyword. -/
def keywordItem : Look := any [
  words ["pub", "extern", "use", "fn", "mod", "type", "struct", "enum", "trait", "impl", "macro"],
  but (word "crate") (second (op "::")),
  both (word "static") (either (second (word "mut")) (second name)),
  but (word "const") (any [second (group .brace), second (words ["static", "move"]),
    but (second (word "async")) (third (words ["unsafe", "extern", "fn"])), second (op "|")]),
  but (word "unsafe") (second (group .brace)),
  both (word "async") (second (words ["unsafe", "extern", "fn"])),
  both (word "union") (second name),
  both (word "auto") (second (word "trait")),
  both (word "default") (second (words ["unsafe", "impl"]))]

end Look

/-- The phrase ends with something in braces. -/
def endsInBrace (text : Spelling) : Bool :=
  match text.getLast? with
  | some (.group .brace _) => true
  | _ => false

namespace Reader

def letStatement (r : Rules) : Reader Spelling := do
  let keyword ← word "let"
  let pattern ← r.pattern
  let type ← optional (Look.op ":") (cat [op ":", r.typeText])
  let value ← optional (Look.op "=") (cat [op "=", r.exprText])
  let otherwise ← if value.isEmpty || endsInBrace value then pure []
    else optional (Look.word "else") (cat [word "else", r.block])
  return keyword ++ pattern.text ++ type ++ value ++ otherwise ++ (← op ";")

def macroStatement : Reader Spelling := do
  let path ← namePath
  let bang ← op "!"
  let (_, arguments) ← macroArguments
  return path.spelling ++ bang ++ arguments ++ (← optOp ";")

/-- An expression after its attributes: a range goes into parentheses, or they would be those of its
lower bound. -/
def afterAttributes (attributes : Spelling) (phrase : Phrase) : Spelling :=
  if !attributes.isEmpty && phrase.form == .range then [.group .paren phrase.text] else phrase.text

/-- A statement, and whether it needs a semicolon before another one. -/
def statement (r : Rules) : Reader (Spelling × Bool) := do
  let start ← get
  let attributes ← outer r
  if ← peek (Look.but Look.statementMacro Look.itemMacro) then
    return (attributes ++ (← macroStatement), false)
  if ← peek (Look.word "let") then return (attributes ++ (← letStatement r), false)
  if ← peek (Look.either Look.keywordItem Look.itemMacro) then
    set start
    return ((← r.item).text, false)
  let phrase ← leadingExpr r
  let text := if phrase.loose then phrase.text else attributes ++ afterAttributes attributes phrase
  let semicolon ← optOp ";"
  let whole := phrase.form == .block || phrase.form == .bracedMacro
  return (text ++ semicolon, semicolon.isEmpty && !whole)

/-- The statements of a block. -/
def statements (r : Rules) : Reader Spelling :=
  loop (fun text => do
    if ← peek (Look.op ";") then return .inl (text ++ (← op ";"))
    if ← atEnd then return .inr text
    let (statement, unfinished) ← statement r
    if unfinished && !(← atEnd) then refuse "unexpected token, expected `;`"
    return .inl (text ++ statement)) []

end Reader

end ComponentRegistry.Grammar
