import ComponentRegistry.Generation.AcceptedSet
import ComponentRegistry.Generation.Config
import ComponentRegistry.Text.SnakeCase

/-! The names and paths of a registry to be generated. All that can be wrong with a set of
components shows here. -/

namespace ComponentRegistry

open Grammar

/-- What a text was to name. -/
inductive PathRole where
  | runtime | typeRoot | component | moduleName
  deriving DecidableEq, Repr

def PathRole.text : PathRole → String
  | runtime => "runtime"
  | typeRoot => "type root"
  | component => "component"
  | moduleName => "module"

inductive GenerateError where
  /-- Two components would have the same typed getter. -/
  | accessorCollision (accessor first second : String)
  /-- A typed getter would have the name of another method. -/
  | reservedAccessor (accessor name : String)
  | invalidAccessor (accessor name : String)
  | genericComponent (name : String)
  | invalidPath (role : PathRole) (value : String)
  deriving DecidableEq, Repr

namespace GenerateError

def ticked (text : String) : String := "`" ++ text ++ "`"

def message : GenerateError → String
  | accessorCollision accessor first second =>
    "accessor " ++ ticked accessor ++ " would be generated for both " ++ ticked first ++ " and " ++
      ticked second
  | reservedAccessor accessor name =>
    "accessor " ++ ticked accessor ++ " for " ++ ticked name ++ " shadows a built-in registry method"
  | invalidAccessor accessor name =>
    "accessor " ++ ticked accessor ++ " for " ++ ticked name ++ " is not a valid identifier"
  | genericComponent name => "component " ++ ticked name ++ " has generic parameters"
  | invalidPath role value => "invalid " ++ role.text ++ " path " ++ ticked value

end GenerateError

/-- One component of a registry. -/
structure Entry where
  name : String
  variant : Name
  type : Path
  /-- The typed getter; none if a later component has taken it. -/
  accessor : Option Name
  deriving Repr

structure Model where
  runtime : Path
  entries : List Entry
  deriving Repr

namespace Model

/-- Methods of every generated registry. -/
def reservedMethods : List String :=
  ["new", "register", "get", "get_mut", "len", "is_empty", "list_all"]

def accessorName (start name : String) : String := start ++ Text.snakeCase name

def path (role : PathRole) (value : String) : Except GenerateError Path :=
  match Path.ofText? value with
  | some path => .ok path
  | none => .error (.invalidPath role value)

/-- The identifier of a name; a keyword becomes a raw one. -/
def identifier (role : PathRole) (name : String) : Except GenerateError Name :=
  match Name.ofText? name <|> Name.ofText? ("r#" ++ name) with
  | some name => .ok name
  | none => .error (.invalidPath role name)

def typePath (root : Path) (d : Descriptor) : Except GenerateError Path := do
  let modules ← d.modulePath.mapM (identifier .moduleName)
  let name ← identifier .component d.name
  return (modules ++ [name]).foldl Path.push root

/-- An entry with the text that its getter was named by, whether it still has it or not. -/
structure Lowered where
  accessorText : String
  entry : Entry
  deriving Repr

/-- Take the getter of that name away. -/
def Lowered.shadow (accessor : String) (l : Lowered) : Lowered :=
  if l.accessorText = accessor then { l with entry.accessor := none } else l

/-- Add one component to those before it. -/
def addDescriptor (config : Config) (root : Path) (before : List Lowered) (d : Descriptor) :
    Except GenerateError (List Lowered) := do
  if d.generic then throw (.genericComponent d.name)
  let accessor := accessorName config.accessorPrefix d.name
  if reservedMethods.contains accessor then throw (.reservedAccessor accessor d.name)
  let some getter := Name.ofText? accessor | throw (.invalidAccessor accessor d.name)
  if config.collision = .reject then
    if let some owner := before.find? (·.accessorText == accessor) then
      throw (.accessorCollision accessor owner.entry.name d.name)
  let variant ← identifier .component d.name
  let type ← typePath root d
  return before.map (·.shadow accessor) ++ [⟨accessor, ⟨d.name, variant, type, some getter⟩⟩]

/-- The names and paths of a set of components, or the first thing that is wrong with it. -/
def build (set : AcceptedSet) (config : Config) : Except GenerateError Model := do
  let runtime ← path .runtime config.runtimePath
  let root ← path .typeRoot config.typeRoot
  let lowered ← set.members.foldlM (addDescriptor config root) []
  return ⟨runtime, lowered.map (·.entry)⟩

/-- An identifier as shown in a listing. -/
def shownName (name : Name) : String := "Ident(" ++ Tree.text name.spelling ++ ")"

def shownAccessor : Option Name → String
  | some name => "Some(" ++ shownName name ++ ")"
  | none => "None"

def shownPath (path : Path) : String := Text.shown (Tree.text path.spelling)

/-- A listing of names with their values. -/
def shownFields (title : String) (fields : List (String × String)) : String :=
  title ++ " \x7b " ++ ", ".intercalate (fields.map fun (name, value) => name ++ ": " ++ value) ++
    " \x7d"

def shownEntry (e : Entry) : String :=
  shownFields "EntryModel" [("name", Text.shown e.name), ("variant", shownName e.variant),
    ("ty", shownPath e.type), ("accessor", shownAccessor e.accessor)]

/-- A listing of the whole model. -/
def shown (model : Model) : String :=
  shownFields "RegistryModel" [("runtime", shownPath model.runtime),
    ("entries", "[" ++ ", ".intercalate (model.entries.map shownEntry) ++ "]")]

end Model

end ComponentRegistry
