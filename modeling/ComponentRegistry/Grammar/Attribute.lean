import ComponentRegistry.Grammar.Phrase

/-! Attributes and macro calls: paths of plain names, and brackets whose inside is not read. -/

namespace ComponentRegistry.Grammar

open Reader

/-- The start of a path of plain names: an identifier or a path keyword. -/
def Look.pathName : Look := Look.either Look.name (Look.words ["super", "self", "Self", "crate"])

namespace Reader

/-- A path of plain names. -/
def namePath : Reader NamePath := do
  let leading ← peek (Look.op "::")
  let _ ← optOp "::"
  let names ← loop (fun names => do
    if !(← peek Look.pathName) then
      if names.isEmpty then
        let _ ← name
      refuse "expected path segment after `::`"
    let names := names ++ [← anyName]
    if ← peek (Look.op "::") then
      let _ ← op "::"
      return .inl names
    return .inr names) []
  return ⟨leading, names⟩

/-- The arguments of a macro in brackets of any kind. -/
def macroArguments : Reader (Delimiter × Spelling) := do
  let (delimiter, trees) ← rawGroup
  return (delimiter, [.group delimiter trees])

/-- The path of an attribute; one keyword may stand alone. -/
def attributePath : Reader NamePath := do
  if ← peek (Look.word "unsafe") then return ⟨false, [← anyName]⟩
  namePath

/-- The value after an equals sign: a literal if it stands alone, else an expression. -/
def attributeValue (r : Rules) : Reader Spelling := do
  match literal (← get) with
  | .ok (text, []) => set (σ := List Tree) []; return text
  | _ =>
    if ← peek (Look.both (Look.op "#") (Look.second (Look.group .bracket))) then
      refuse "unexpected attribute inside of attribute"
    r.exprText

/-- What stands in the square brackets of an attribute. -/
def attributeInside (r : Rules) (inner : Bool) : Reader Attribute := do
  let path ← attributePath
  match ← get with
  | .group .. :: _ =>
    let (delimiter, trees) ← rawGroup
    return ⟨inner, path, .list delimiter trees⟩
  | _ =>
    if ← peek (Look.op "=") then
      let _ ← op "="
      return ⟨inner, path, .value (← attributeValue r)⟩
    return ⟨inner, path, .none⟩

def outerAttribute (r : Rules) : Reader Attribute := do
  let _ ← op "#"
  inside .bracket (attributeInside r false)

def innerAttribute (r : Rules) : Reader Attribute := do
  let _ ← op "#"
  let _ ← op "!"
  inside .bracket (attributeInside r true)

def collect (look : Look) (part : Reader Attribute) : Reader (List Attribute) :=
  loop (fun found => do
    if ← peek look then return .inl (found ++ [← part])
    return .inr found) []

/-- The attributes before something. -/
def outerAttributes (r : Rules) : Reader (List Attribute) :=
  collect (Look.op "#") (outerAttribute r)

/-- The attributes at the start of a file or body. -/
def innerAttributes (r : Rules) : Reader (List Attribute) :=
  collect (Look.both (Look.op "#") (Look.second (Look.op "!"))) (innerAttribute r)

def outer (r : Rules) : Reader Spelling := return outerSpelling (← outerAttributes r)

/-- A body in braces: inner attributes, then what `part` reads. -/
def body (r : Rules) (part : Reader Spelling) : Reader Spelling :=
  enclosed .brace do
    let attributes ← innerAttributes r
    return innerSpelling attributes ++ (← part)

end Reader

end ComponentRegistry.Grammar
