import ComponentRegistry.Grammar.Attribute

/-! Paths with arguments in angle brackets. -/

namespace ComponentRegistry.Grammar

/-- One element of a list in angle brackets. -/
structure AnglePart where
  lifetime : Bool
  text : Spelling
  comma : Bool
  deriving Repr

namespace AnglePart

/-- A part that another one follows has its comma, the last one only if it came with one. -/
def listed : List AnglePart → Spelling
  | [] => []
  | [part] => part.text ++ (if part.comma then Tree.operator [','] else [])
  | part :: rest => part.text ++ Tree.operator [','] ++ listed rest

/-- Lifetimes are written first. -/
def spelling (parts : List AnglePart) : Spelling :=
  listed (parts.filter (·.lifetime) ++ parts.filter (!·.lifetime))

end AnglePart

/-- A name of a path, with its arguments. -/
structure Segment where
  name : Name
  arguments : Spelling
  /-- There are no arguments, or no brackets for them at all. -/
  bare : Bool
  deriving Repr

structure Path where
  leading : Bool
  segments : List Segment
  deriving Repr

namespace Path

def segmentSpelling (segment : Segment) : Spelling := segment.name.spelling ++ segment.arguments

def spelling (path : Path) : Spelling :=
  (if path.leading then Tree.operator [':', ':'] else []) ++
    interleave "::" (path.segments.map segmentSpelling)

/-- No name has arguments. -/
def isPlain (path : Path) : Bool := path.segments.all (·.arguments.isEmpty)

def isLone (path : Path) : Bool := !path.leading && path.segments.length == 1

/-- The last name has no arguments between brackets. -/
def endsBare (path : Path) : Bool := path.segments.getLast?.all (·.bare)

/-- The path without the brackets of its last name. -/
def dropBrackets (path : Path) : Path :=
  ⟨path.leading, match path.segments.getLast? with
    | some last => path.segments.dropLast ++ [⟨last.name, [], true⟩]
    | none => []⟩

/-- The path with a plain name at its end. -/
def push (path : Path) (name : Name) : Path :=
  ⟨path.leading, path.segments ++ [⟨name, [], true⟩]⟩

end Path

namespace Reader

/-- A list in angle brackets. -/
def angled (part : Reader (Bool × Spelling)) : Reader (List AnglePart) := do
  let _ ← op "<"
  let parts ← loop (fun parts => do
    if ← peek (Look.op ">") then return .inr parts
    let (lifetime, text) ← part
    if ← peek (Look.op ">") then return .inr (parts ++ [⟨lifetime, text, false⟩])
    let _ ← op ","
    return .inl (parts ++ [⟨lifetime, text, true⟩])) []
  let _ ← op ">"
  return parts

def inAngles (text : Spelling) : Spelling := Tree.operator ['<'] ++ text ++ Tree.operator ['>']

/-- A constant in the place of a type: a literal, a name or a block. -/
def constant (r : Rules) : Reader Spelling := do
  if ← peek Look.literal then literal
  else if ← peek Look.name then ident
  else if ← peek (Look.group .brace) then body r r.statements
  else expected []

/-- Bounds with plus signs between them up to where the look stops them. -/
def bounds (r : Rules) (stop : Look) (conditional : Bool) : Reader Spelling :=
  separated stop (return (← r.bound false conditional).text) "+"

/-- Bounds that end where no plus sign follows, too. -/
def openBounds (r : Rules) (stop : Look) (conditional : Bool) : Reader Spelling :=
  joined stop (return (← r.bound false conditional).text) "+"

/-- One argument: a lifetime, a constant, a type, or a name with an equation or bounds. -/
def pathArgument (r : Rules) : Reader (Bool × Spelling) := do
  let isConstant := Look.either Look.literal (Look.group .brace)
  if ← peek (Look.but Look.lifetime (Look.second (Look.op "+"))) then
    return (true, ← lifetime)
  if ← peek isConstant then return (false, ← constant r)
  let first ← r.type true
  match first.form with
  | .path true =>
    if ← peek (Look.op "=") then
      let equals ← op "="
      let value ← if ← peek isConstant then constant r else r.typeText
      return (false, first.text ++ equals ++ value)
    if ← peek (Look.op ":") then
      let colon ← op ":"
      let bounds ← bounds r (Look.any [Look.op ",", Look.op ">"]) true
      return (false, first.text ++ colon ++ bounds)
    return (false, first.text)
  | _ => return (false, first.text)

/-- One name of a path. In an expression, arguments come after a double colon only. -/
def segment (r : Rules) (inExpr : Bool) : Reader Segment := do
  if ← peek (Look.words ["super", "self", "crate", "try"]) then return ⟨← anyName, [], true⟩
  let name ← if ← peek (Look.word "Self") then anyName else name
  let direct := Look.but (Look.op "<") (Look.any [Look.op "<=", Look.op "<<="])
  let turbo := Look.both (Look.op "::") (Look.third (Look.op "<"))
  if (!inExpr && (← peek direct)) || (← peek turbo) then
    let colons ← optOp "::"
    let parts ← angled (pathArgument r)
    return ⟨name, colons ++ inAngles (AnglePart.spelling parts), parts.isEmpty⟩
  return ⟨name, [], true⟩

def path (r : Rules) (inExpr : Bool) : Reader Path := do
  let leading ← peek (Look.op "::")
  let _ ← optOp "::"
  let more := Look.but (Look.op "::") (Look.third (Look.group .paren))
  let segments ← loop (fun segments => do
    let segments := segments ++ [← segment r inExpr]
    if ← peek more then
      let _ ← op "::"
      return .inl segments
    return .inr segments) []
  return ⟨leading, segments⟩

/-- What follows the self type of a path in angle brackets. -/
def selfTypeRest (r : Rules) (inExpr : Bool) : Reader Spelling :=
  loop (fun text => do
    let text := text ++ Path.segmentSpelling (← segment r inExpr)
    if ← peek (Look.op "::") then return .inl (text ++ (← op "::"))
    return .inr text) []

/-- A path that starts with a type in angle brackets. -/
def selfTypePath (r : Rules) (inExpr : Bool) : Reader Spelling := do
  let self ← cat [op "<", r.typeText]
  let asTrait ← optional (Look.word "as") do
    let keyword ← word "as"
    return keyword ++ (← path r false).spelling
  let close ← op ">"
  let colons ← op "::"
  return self ++ asTrait ++ close ++ colons ++ (← selfTypeRest r inExpr)

/-- A path of either kind; only that without self type is more than its spelling. -/
def anyPath (r : Rules) (inExpr : Bool) : Reader (Spelling ⊕ Path) := do
  if ← peek (Look.op "<") then return .inl (← selfTypePath r inExpr)
  return .inr (← path r inExpr)

end Reader

end ComponentRegistry.Grammar
