import ComponentRegistry.Grammar.Reader

/-! Phrases: what the readers of the grammar hand to each other, and the record of those readers
that call each other. A phrase is its spelling, and as much of its form as decides how to go on. -/

namespace ComponentRegistry.Grammar

/-- How a type may go on. -/
inductive TypeForm where
  /-- A path without a self type; a lone one is a single name, maybe with arguments. -/
  | path (lone : Bool)
  /-- A trait object without keyword made of a single bound, here without its parentheses. -/
  | bound (bare : Spelling)
  | other
  deriving Repr

structure TypePhrase where
  text : Spelling
  form : TypeForm
  deriving Repr

/-- How an expression may go on. -/
inductive ExprForm where
  | plain
  /-- It ends with its block and is a statement without a semicolon. -/
  | block
  /-- A macro call with braces. -/
  | bracedMacro
  | range
  | comparison
  deriving DecidableEq, Repr

structure Phrase where
  text : Spelling
  form : ExprForm
  /-- It starts with something kept as it was written, to which no attribute clings. -/
  loose : Bool
  deriving Repr

/-- How a pattern may stand inside brackets. -/
inductive PatternForm where
  | plain
  /-- The two points that stand for all other elements. -/
  | rest
  /-- A range without lower or upper bound. -/
  | openRange
  /-- Kept as it was written. -/
  | verbatim
  deriving DecidableEq, Repr

structure PatternPhrase where
  text : Spelling
  form : PatternForm
  deriving Repr

/-- Operators by how strongly they bind, the weakest first. -/
inductive Precedence where
  | jump | assign | range | or | and | letting | compare | bitOr | bitXor | bitAnd | shift | sum
  | product | cast
  deriving DecidableEq, Repr

def Precedence.rank : Precedence → Nat
  | jump => 0
  | assign => 1
  | range => 2
  | or => 3
  | and => 4
  | letting => 5
  | compare => 6
  | bitOr => 7
  | bitXor => 8
  | bitAnd => 9
  | shift => 10
  | sum => 11
  | product => 12
  | cast => 13

/-- A path of plain names. -/
structure NamePath where
  leading : Bool
  names : List Name
  deriving DecidableEq, Repr

/-- Parts with an operator between them. -/
def interleave (marks : String) : List Spelling → Spelling
  | [] => []
  | [part] => part
  | part :: rest => part ++ Tree.operator marks.toList ++ interleave marks rest

def NamePath.spelling (path : NamePath) : Spelling :=
  (if path.leading then Tree.operator [':', ':'] else []) ++
    interleave "::" (path.names.map Name.spelling)

/-- The path is just this one name, in its plain form. -/
def NamePath.is (path : NamePath) (name : String) : Bool :=
  !path.leading && path.names == [⟨false, name⟩]

inductive AttributeValue where
  | none
  /-- Arguments in brackets, as they stand in the text. -/
  | list (delimiter : Delimiter) (trees : List Tree)
  /-- What follows an equals sign. -/
  | value (text : Spelling)
  deriving Repr

structure Attribute where
  inner : Bool
  path : NamePath
  value : AttributeValue
  deriving Repr

def AttributeValue.spelling : AttributeValue → Spelling
  | none => []
  | list delimiter trees => [.group delimiter trees]
  | value text => Tree.mark '=' false :: text

def Attribute.spelling (a : Attribute) : Spelling :=
  Tree.mark '#' false :: ((if a.inner then [Tree.mark '!' false] else []) ++
    [.group .bracket (a.path.spelling ++ a.value.spelling)])

/-- Outer attributes of an item, before it. -/
def outerSpelling (attributes : List Attribute) : Spelling :=
  (attributes.filter (!·.inner)).flatMap Attribute.spelling

/-- Inner attributes of an item, inside its braces. -/
def innerSpelling (attributes : List Attribute) : Spelling :=
  (attributes.filter (·.inner)).flatMap Attribute.spelling

inductive TypeKind where
  | struct | enumeration | union
  deriving DecidableEq, Repr

/-- An item of a source file. Only of types and modules more than the spelling is kept. -/
inductive Item where
  | declaration (attributes : List Attribute) (kind : TypeKind) (name : Name) (generic : Bool)
      (text : Spelling)
  /-- A module, with its items if it has its body here. -/
  | submodule (attributes : List Attribute) (name : Name) (body : Option (List Item))
      (text : Spelling)
  | other (text : Spelling)
  deriving Repr

/-- The spelling of an item with its attributes. -/
def Item.text : Item → Spelling
  | declaration _ _ _ _ text => text
  | submodule _ _ _ text => text
  | other text => text

inductive BoundForm where
  | lifetime
  | trait
  /-- The list of what a type captures. -/
  | capture
  deriving DecidableEq, Repr

structure Bound where
  text : Spelling
  /-- The bound without the parentheses around it. -/
  bare : Spelling
  form : BoundForm
  deriving Repr

/-- The readers that the others call for what is nested in their own phrase. -/
structure Rules where
  /-- One bound of a type; `capture` and `conditional` allow a list of captures and a trait that is
  meant for constant evaluation. -/
  bound : (capture conditional : Bool) → Reader Bound
  /-- A type, with or without plus signs at its top. -/
  type : (plus : Bool) → Reader TypePhrase
  /-- A pattern without alternatives at its top. -/
  pattern : Reader PatternPhrase
  /-- An operand with its signs, calls and fields; `structs` allows a structure in braces. -/
  operand : (structs : Bool) → Reader Phrase
  /-- The operators from some precedence on that follow an operand. -/
  operators : (structs : Bool) → Precedence → Phrase → Reader Phrase
  /-- An expression where a statement or the arm of a `match` starts. -/
  arm : Reader Phrase
  /-- The inside of a block. -/
  statements : Reader Spelling
  /-- Fields with names, in braces. -/
  fields : Reader Spelling
  item : Reader Item
  /-- A tree of imports, and whether a path in a group starts at the root of all crates. -/
  imports : (rooted : Bool) → Reader (Spelling × Bool)

namespace Rules

def typeText (r : Rules) : Reader Spelling := return (← r.type true).text

def boundlessType (r : Rules) : Reader Spelling := return (← r.type false).text

/-- An expression; `structs` allows a structure in braces at its top. -/
def expr (r : Rules) (structs : Bool) : Reader Phrase := do
  r.operators structs .jump (← r.operand structs)

def exprText (r : Rules) : Reader Spelling := return (← r.expr true).text

/-- An expression before a block. -/
def condition (r : Rules) : Reader Spelling := return (← r.expr false).text

/-- A block without inner attributes. -/
def block (r : Rules) : Reader Spelling := Reader.enclosed .brace r.statements

/-- Alternatives of patterns, maybe with a bar before the first one. -/
def patterns (r : Rules) : Reader PatternPhrase := do
  let bar := Look.but (Look.op "|") (Look.any [Look.op "||", Look.op "|="])
  let leading ← Reader.optOp "|"
  let first ← r.pattern
  if leading.isEmpty && !(← Reader.peek bar) then return first
  let text ← Reader.loop (fun text => do
    if ← Reader.peek bar then
      return .inl (text ++ (← Reader.op "|") ++ (← r.pattern).text)
    return .inr text) (leading ++ first.text)
  return ⟨text, .plain⟩

end Rules

end ComponentRegistry.Grammar
