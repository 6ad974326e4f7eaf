import ComponentRegistry.Grammar.Item
import ComponentRegistry.Token.Lexer

/-! Reading whole texts: source files, single items, identifiers and paths. -/

namespace ComponentRegistry.Grammar

namespace Rules

/-- Readers for one more level of nesting. -/
def step (r : Rules) : Rules where
  bound := Reader.bound r
  type := Reader.type r
  pattern := Reader.pattern r
  operand := Reader.operand r
  operators := Reader.operators r
  arm := Reader.leadingExpr r
  statements := Reader.statements r
  fields := Reader.namedFields r
  item := Reader.item r
  imports := Reader.imports r

/-- Readers that refuse everything. -/
def none : Rules where
  bound _ _ := Reader.fail .tooDeep
  type _ := Reader.fail .tooDeep
  pattern := Reader.fail .tooDeep
  operand _ := Reader.fail .tooDeep
  operators _ _ _ := Reader.fail .tooDeep
  arm := Reader.fail .tooDeep
  statements := Reader.fail .tooDeep
  fields := Reader.fail .tooDeep
  item := Reader.fail .tooDeep
  imports _ := Reader.fail .tooDeep

/-- Readers for phrases that are nested less than `depth` deep. -/
def upTo (depth : Nat) : Rules := depth.repeat step none

/-- Readers for any phrase of these trees: less than four phrases are nested in each other before
another token is taken. -/
def forTrees (trees : List Tree) : Rules := upTo (4 * Tree.sizeAll trees + 4)

end Rules

/-- Read trees from first to last. -/
def readAll {α : Type} (reader : Rules → Reader α) (trees : List Tree) : Except Failure α :=
  Reader.runAll (reader (Rules.forTrees trees)) trees

/-- Read a text from first to last; nothing comes of a text that is no token trees, either. -/
def ofText? {α : Type} (reader : Rules → Reader α) (text : String) : Option α := do
  let trees ← Tree.ofText? text
  (readAll reader trees).toOption

/-- A text as a single item. -/
def Item.ofText? (text : String) : Option Item := Grammar.ofText? Reader.item text

/-- A text as an identifier. -/
def Name.ofText? (text : String) : Option Name := Grammar.ofText? (fun _ => Reader.name) text

/-- A text as a path. -/
def Path.ofText? (text : String) : Option Path := Grammar.ofText? (Reader.path · false) text

namespace SourceFile

/-- Drop blanks and comments. -/
def dropBlanks (fuel : Nat) (cs : List Char) : List Char :=
  match fuel with
  | 0 => cs
  | fuel + 1 =>
    match Lexer.blank? cs with
    | some rest => dropBlanks fuel rest
    | none => cs

/-- Without a first line that names an interpreter. It starts with `#!`, but not with the inner
attribute that may look the same. -/
def dropInterpreter : List Char → List Char
  | '#' :: '!' :: rest =>
    match dropBlanks rest.length rest with
    | '[' :: _ => '#' :: '!' :: rest
    | _ => rest.dropWhile (· ≠ '\n')
  | cs => cs

/-- The inner attributes and the items of a file. -/
def reader (r : Rules) : Reader (List Item) := do
  let _ ← Reader.innerAttributes r
  Reader.loop (fun items => do
    if ← Reader.atEnd then return .inr items
    return .inl (items ++ [← r.item])) []

/-- The text of a file as it is read: without byte order mark and interpreter. -/
def content (text : String) : String :=
  String.ofList (dropInterpreter (Lexer.dropByteOrderMark text.toList))

/-- The items of a file; nothing if the text is no source file. -/
def items? (text : String) : Option (List Item) := ofText? reader (content text)

end SourceFile

end ComponentRegistry.Grammar
