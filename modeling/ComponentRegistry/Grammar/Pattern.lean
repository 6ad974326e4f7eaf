import ComponentRegistry.Grammar.Type

/-! Patterns. -/

namespace ComponentRegistry.Grammar

namespace Reader

def pathKeywords : List String := ["self", "Self", "super", "crate"]

/-- A member of a structure by its name, or of a tuple by its position. The flag tells a name. -/
def member : Reader (Spelling × Bool) := do
  if ← peek Look.name then return (← ident, true)
  match ← get with
  | .leaf (.literal text) :: rest =>
    match Literal.tupleIndex? text.toList with
    | some index => set rest; return ([.leaf (.literal (toString index))], false)
    | none => refuse "expected identifier or integer"
  | _ => refuse "expected identifier or integer"

/-- A block of constants. -/
def constBlock (r : Rules) : Reader Spelling := cat [word "const", body r r.statements]

/-- The sign of a range in a pattern; three points are the old form of that with an upper bound. -/
def patternLimits : Reader (Spelling × Bool) := do
  if ← peek (Look.op "..=") then return (← op "..=", true)
  if ← peek (Look.op "...") then
    let _ ← op "..."
    return (Tree.operator ['.', '.', '='], true)
  return (← op "..", false)

/-- A bound of a range, empty where the pattern ends. -/
def patternBound (r : Rules) : Reader Spelling := do
  let ends := Look.any [Look.nothing, Look.op "|", Look.op "=", Look.colon, Look.op ",",
    Look.op ";", Look.word "if"]
  if ← peek ends then return []
  if ← peek Look.literal then literal
  else if ← peek (Look.any [Look.name, Look.op "::", Look.op "<", Look.words pathKeywords]) then
    match ← anyPath r true with
    | .inl text => return text
    | .inr path => return path.spelling
  else if ← peek (Look.word "const") then constBlock r
  else expected ["literal", "identifier", "`::`", "`<`", "`self`", "`Self`", "`super`", "`crate`",
    "`const`"]

/-- What follows the lower bound of a range. -/
def patternRange (r : Rules) (lower : Spelling) : Reader PatternPhrase := do
  let (limits, closed) ← patternLimits
  let upper ← patternBound r
  if closed && upper.isEmpty then refuse "expected range upper bound"
  let form :=
    if !upper.isEmpty && !lower.isEmpty then .plain
    else if upper.isEmpty && lower.isEmpty then .rest
    else .openRange
  return ⟨lower ++ limits ++ upper, form⟩

/-- A field in the pattern of a structure. -/
def fieldPattern (r : Rules) : Reader Spelling := do
  let start ← get
  let box ← optWord "box"
  let modifiers ← cat [optWord "ref", optWord "mut"]
  let bare := box.isEmpty && modifiers.isEmpty
  let (name, named) ← if bare then member else do pure (← ident, true)
  if (bare && (← peek (Look.op ":"))) || !named then
    let colon ← op ":"
    return name ++ colon ++ (← r.patterns).text
  if box.isEmpty then return modifiers ++ name
  since start

def structPattern (r : Rules) : Reader Spelling :=
  enclosed .brace <| loop (fun text => do
    if ← atEnd then return .inr text
    let text := text ++ (← outer r)
    if ← peek (Look.op "..") then return .inr (text ++ (← op ".."))
    let text := text ++ (← fieldPattern r)
    if ← atEnd then return .inr text
    return .inl (text ++ (← op ","))) []

def patternList (r : Rules) : Reader Spelling := commaList (return (← r.patterns).text)

/-- A pattern that starts with a path. -/
def pathPattern (r : Rules) : Reader PatternPhrase := do
  let (text, callable) ← match ← anyPath r true with
    | .inl text => pure (text, false)
    | .inr path => pure (path.spelling, path.isPlain)
  if callable && (← peek (Look.but (Look.op "!") (Look.op "!="))) then
    let bang ← op "!"
    return ⟨text ++ bang ++ (← macroArguments).2, .plain⟩
  if ← peek (Look.group .brace) then return ⟨text ++ (← structPattern r), .plain⟩
  if ← peek (Look.group .paren) then
    return ⟨text ++ (← enclosed .paren (patternList r)), .plain⟩
  if ← peek (Look.op "..") then patternRange r text
  else return ⟨text, .plain⟩

def identPattern (r : Rules) : Reader Spelling := do
  let modifiers ← cat [optWord "ref", optWord "mut"]
  let name ← if ← peek (Look.word "self") then anyIdent else ident
  let inner ← optional (Look.op "@") do
    let sign ← op "@"
    return sign ++ (← r.pattern).text
  return modifiers ++ name ++ inner

def literalPattern (r : Rules) : Reader PatternPhrase := do
  let lower ← patternBound r
  if ← peek (Look.op "..") then patternRange r lower else return ⟨lower, .plain⟩

/-- Patterns in square brackets; a range without bound is not allowed among them. -/
def slicePattern (r : Rules) : Reader Spelling :=
  enclosed .bracket <| commaList do
    let element ← r.patterns
    if element.form == .openRange then
      refuse "range pattern is not allowed unparenthesized inside slice pattern"
    return element.text

/-- A pattern without alternatives at its top. -/
def pattern (r : Rules) : Reader PatternPhrase := do
  let start ← get
  let continues := Look.any [Look.op "::", Look.op "!", Look.group .brace, Look.group .paren,
    Look.op ".."]
  let isPath := Look.any [
    Look.both Look.name (Look.second continues),
    Look.both (Look.word "self") (Look.second (Look.op "::")),
    Look.op "::", Look.op "<", Look.words ["Self", "super", "crate"]]
  if ← peek isPath then pathPattern r
  else if ← peek (Look.word "_") then return ⟨← anyIdent, .plain⟩
  else if ← peek (Look.word "box") then
    let _ ← word "box"
    let _ ← r.pattern
    return ⟨← since start, .verbatim⟩
  else if ← peek (Look.any [Look.op "-", Look.literal, Look.word "const"]) then literalPattern r
  else if ← peek (Look.either Look.name (Look.words ["ref", "mut", "self"])) then
    return ⟨← identPattern r, .plain⟩
  else if ← peek (Look.op "&") then
    let sign ← cat [op "&", optWord "mut"]
    return ⟨sign ++ (← r.pattern).text, .plain⟩
  else if ← peek (Look.group .paren) then
    return ⟨← enclosed .paren (patternList r), .plain⟩
  else if ← peek (Look.group .bracket) then return ⟨← slicePattern r, .plain⟩
  else if ← peek (Look.but (Look.op "..") (Look.op "...")) then patternRange r []
  else expected ["identifier", "`::`", "`<`", "`_`", "literal", "`const`", "`ref`", "`mut`", "`&`",
    "parentheses", "square brackets", "`..`"]

end Reader

end ComponentRegistry.Grammar
