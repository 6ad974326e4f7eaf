import ComponentRegistry.Declaration.Descriptor

/-! The marker as an attribute: it leaves a declaration as it is, and adds an error if it does not
belong there. -/

namespace ComponentRegistry.Marking

open Grammar

/-- Why the marker does not belong where it stands. -/
inductive Misuse where
  | arguments
  /-- The item is no declared type. -/
  | noType
  /-- What the marker stands on is no item. -/
  | noItem (failure : Failure)
  deriving DecidableEq, Repr

def Misuse.message : Misuse → String
  | arguments => "`#[Component]` takes no arguments"
  | noType => "`#[Component]` can only be applied to structs, enums and unions"
  | noItem failure => failure.message

/-- The first thing wrong with the arguments of the marker and what it stands on. -/
def misuse? (arguments item : List Tree) : Option Misuse :=
  if !arguments.isEmpty then some .arguments
  else match readAll Reader.item item with
    | .ok (.declaration ..) => none
    | .ok _ => some .noType
    | .error failure => some (.noItem failure)

/-- A macro call that stops the compiler with a message. -/
def compileError (message : String) : List Tree :=
  let colons := Tree.operator [':', ':']
  colons ++ [Tree.word "core"] ++ colons ++ [Tree.word "compile_error", Tree.mark '!' false,
    .group .brace [.leaf (.literal (String.ofList (Text.literal message.toList)))]]

/-- What the marker makes of an item. -/
def mark (arguments item : List Tree) : List Tree :=
  item ++ match misuse? arguments item with
    | none => []
    | some misuse => compileError misuse.message

/-- The same on texts; nothing comes of texts that are no token trees. -/
def markText? (arguments item : String) : Option String := do
  let arguments ← Tree.ofText? arguments
  let item ← Tree.ofText? item
  return Tree.text (mark arguments item)

end ComponentRegistry.Marking
