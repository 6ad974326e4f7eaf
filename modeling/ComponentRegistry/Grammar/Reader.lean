import ComponentRegistry.Grammar.Failure
import ComponentRegistry.Token.Literal

/-! Readers of token trees. A reader takes trees from the front of its input and gives their
canonical spelling, or a phrase that holds it; what it has taken it never gives back. Which way to
go is decided by looking at the first trees. -/

namespace ComponentRegistry.Grammar

/-- Trees in the form in which they are written. -/
abbrev Spelling := List Tree

abbrev Reader := StateT (List Tree) (Except Failure)

/-- A test of the trees to come. -/
abbrev Look := List Tree → Bool

/-- Words that are no identifiers unless they are raw. -/
def keywords : List String :=
  ["_", "abstract", "as", "async", "await", "become", "box", "break", "const", "continue", "crate",
    "do", "dyn", "else", "enum", "extern", "false", "final", "fn", "for", "if", "impl", "in", "let",
    "loop", "macro", "match", "mod", "move", "mut", "override", "priv", "pub", "ref", "return",
    "Self", "self", "static", "struct", "super", "trait", "true", "try", "type", "typeof", "unsafe",
    "unsized", "use", "virtual", "where", "while", "yield"]

/-- The trees after the marks of an operator: all of them but the last one have to be joint. -/
def marks? : List Char → List Tree → Option (List Tree)
  | [], trees => some trees
  | [c], .leaf (.mark d _) :: rest => if c = d then some rest else none
  | c :: cs, .leaf (.mark d true) :: rest => if c = d then marks? cs rest else none
  | _, _ => none

namespace Look

def word (name : String) : Look
  | .leaf (.word false found) :: _ => found == name
  | _ => false

def anyWord : Look
  | .leaf (.word ..) :: _ => true
  | _ => false

/-- An identifier. -/
def name : Look
  | .leaf (.word raw found) :: _ => raw || !keywords.contains found
  | _ => false

def lifetime : Look
  | .leaf (.lifetime _) :: _ => true
  | _ => false

/-- A literal, a truth value, or a number with a minus sign. -/
def literal : Look
  | .leaf (.literal _) :: _ => true
  | .leaf (.word false found) :: _ => found == "true" || found == "false"
  | .leaf (.mark '-' _) :: .leaf (.literal text) :: _ => Literal.isNumber text
  | _ => false

/-- A literal text. -/
def string : Look
  | .leaf (.literal text) :: _ => (Literal.stringValue? text).isSome
  | _ => false

def group (delimiter : Delimiter) : Look
  | .group found _ :: _ => found == delimiter
  | _ => false

def op (marks : String) : Look := fun trees => (marks? marks.toList trees).isSome

/-- The second tree from here on, and the third. -/
def second (look : Look) : Look := fun trees => look (trees.drop 1)

def third (look : Look) : Look := fun trees => look (trees.drop 2)

def both (a b : Look) : Look := fun trees => a trees && b trees

def either (a b : Look) : Look := fun trees => a trees || b trees

def any (looks : List Look) : Look := fun trees => looks.any (· trees)

def not (look : Look) : Look := fun trees => !look trees

/-- The first look, but not the second one. -/
def but (look other : Look) : Look := both look (not other)

def nothing : Look := List.isEmpty

/-- Any of these words. -/
def words (names : List String) : Look := any (names.map word)

end Look

/-- An identifier as it was written. -/
structure Name where
  raw : Bool
  text : String
  deriving DecidableEq, Repr

def Name.spelling (name : Name) : Spelling := [.leaf (.word name.raw name.text)]

namespace Reader

def fail {α : Type} (failure : Failure) : Reader α := throw failure

def expected {α : Type} (wanted : List String) : Reader α := fun trees =>
  .error (.expected wanted trees.isEmpty)

def refuse {α : Type} (reason : String) : Reader α := fun trees =>
  .error (.refused reason trees.isEmpty)

def peek (look : Look) : Reader Bool := fun trees => .ok (look trees, trees)

/-- Nothing of this group is left. -/
def atEnd : Reader Bool := peek Look.nothing

def quoted (name : String) : String := "`" ++ name ++ "`"

def word (name : String) : Reader Spelling := fun trees =>
  match trees with
  | .leaf (.word false found) :: rest =>
    if found = name then .ok ([Tree.word name], rest)
    else .error (.expected [quoted name] false)
  | _ => .error (.expected [quoted name] trees.isEmpty)

/-- An operator, written without spaces inside. -/
def op (marks : String) : Reader Spelling := fun trees =>
  match marks? marks.toList trees with
  | some rest => .ok (Tree.operator marks.toList, rest)
  | none => .error (.expected [quoted marks] false)

def name : Reader Name := fun trees =>
  match trees with
  | .leaf (.word raw found) :: rest =>
    if raw || !keywords.contains found then .ok (⟨raw, found⟩, rest)
    else .error (.keyword found)
  | _ => .error (.expected ["identifier"] trees.isEmpty)

def ident : Reader Spelling := return (← name).spelling

/-- An identifier or keyword. -/
def anyName : Reader Name := fun trees =>
  match trees with
  | .leaf (.word raw found) :: rest => .ok (⟨raw, found⟩, rest)
  | _ => .error (.expected ["ident"] trees.isEmpty)

def anyIdent : Reader Spelling := return (← anyName).spelling

def lifetime : Reader Spelling := fun trees =>
  match trees with
  | .leaf (.lifetime name) :: rest => .ok ([.leaf (.lifetime name)], rest)
  | _ => .error (.expected ["lifetime"] trees.isEmpty)

def literal : Reader Spelling := fun trees =>
  if Look.literal trees then
    match trees with
    | .leaf (.mark ..) :: .leaf (.literal text) :: rest =>
      .ok ([Tree.mark '-' false, .leaf (.literal text)], rest)
    | tree :: rest => .ok ([tree], rest)
    | [] => .error (.expected ["literal"] true)
  else .error (.expected ["literal"] trees.isEmpty)

def string : Reader Spelling := fun trees =>
  match trees with
  | tree :: rest =>
    if Look.string trees then .ok ([tree], rest) else .error (.expected ["string literal"] false)
  | [] => .error (.expected ["string literal"] true)

def groupName : Delimiter → String
  | .paren => "parentheses"
  | .bracket => "square brackets"
  | .brace => "curly braces"

/-- Read the inside of a group to its end. -/
def inside {α : Type} (delimiter : Delimiter) (inner : Reader α) : Reader α := fun trees =>
  match trees with
  | .group found content :: rest =>
    if found = delimiter then
      match inner content with
      | .ok (value, []) => .ok (value, rest)
      | .ok (_, _ :: _) => .error (.leftover (some delimiter))
      | .error failure => .error failure
    else .error (.expected [groupName delimiter] false)
  | _ => .error (.expected [groupName delimiter] trees.isEmpty)

def enclosed (delimiter : Delimiter) (inner : Reader Spelling) : Reader Spelling :=
  return [.group delimiter (← inside delimiter inner)]

/-- Everything up to the end of the input. -/
def remaining : Reader Spelling := fun trees => .ok (trees, [])

/-- A group of any kind as it stands in the text. -/
def rawGroup : Reader (Delimiter × List Tree) := fun trees =>
  match trees with
  | .group delimiter content :: rest => .ok ((delimiter, content), rest)
  | _ => .error (.expected ["delimiter"] trees.isEmpty)

/-- What has been taken of `start`, as it stands in the text. -/
def since (start : List Tree) : Reader Spelling := fun trees =>
  .ok (start.take (start.length - trees.length), trees)

def cat : List (Reader Spelling) → Reader Spelling
  | [] => pure []
  | part :: rest => return (← part) ++ (← cat rest)

/-- A part that is there only if the look says so. -/
def optional (look : Look) (part : Reader Spelling) : Reader Spelling := do
  if ← peek look then part else pure []

def optWord (name : String) : Reader Spelling := optional (Look.word name) (word name)

def optOp (marks : String) : Reader Spelling := optional (Look.op marks) (op marks)

/-- Repeat a step until it gives a result, at most once more than there are trees in `fuel`. -/
def loopIn {σ ρ : Type} (step : σ → Reader (σ ⊕ ρ)) (fuel : List Tree) (state : σ) : Reader ρ := do
  match ← step state with
  | .inr result => pure result
  | .inl state =>
    match fuel with
    | [] => fail .tooDeep
    | _ :: fuel => loopIn step fuel state

/-- A loop whose every step but the last one takes a tree. -/
def loop {σ ρ : Type} (step : σ → Reader (σ ⊕ ρ)) (state : σ) : Reader ρ := do
  loopIn step (← get) state

/-- One part after another until the look stops it. -/
def many (stop : Look) (part : Reader Spelling) : Reader Spelling :=
  loop (fun text => do
    if ← peek stop then return .inr text
    return .inl (text ++ (← part))) []

/-- Parts with an operator between them, also after the last one, up to where the look stops. -/
def separated (stop : Look) (part : Reader Spelling) (marks : String) : Reader Spelling :=
  loop (fun text => do
    if ← peek stop then return .inr text
    let text := text ++ (← part)
    if ← peek stop then return .inr text
    return .inl (text ++ (← op marks))) []

/-- Parts with an operator between them and maybe after the last one; they end where no operator
follows or where the look stops them. -/
def joined (stop : Look) (part : Reader Spelling) (marks : String) : Reader Spelling :=
  loop (fun text => do
    if ← peek stop then return .inr text
    let text := text ++ (← part)
    if !(← peek (Look.op marks)) then return .inr text
    return .inl (text ++ (← op marks))) []

/-- Parts with commas to the end of a group. -/
def commaList (part : Reader Spelling) : Reader Spelling := separated Look.nothing part ","

/-- Run a reader on all of its input. -/
def runAll {α : Type} (reader : Reader α) (trees : List Tree) : Except Failure α :=
  match reader trees with
  | .ok (value, []) => .ok value
  | .ok (_, _ :: _) => .error (.leftover none)
  | .error failure => .error failure

end Reader

end ComponentRegistry.Grammar
