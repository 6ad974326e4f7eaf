import ComponentRegistry.Generation.Model

/-! The text of a generated registry: an enumeration of the component types with what the runtime
library asks of it, and a structure with the methods of the registry. -/

namespace ComponentRegistry

open Grammar

/-- A generated file. -/
structure Artifact where
  fileName : String
  contents : String
  deriving DecidableEq, Repr

namespace Artifact

/-- The token that a piece of code without blanks is. -/
def piece : List Char → Spelling
  | [] => []
  | '\x27' :: name => [.leaf (.lifetime (String.ofList name))]
  | c :: rest =>
    if c.isAlpha || c = '_' then [Tree.word (String.ofList (c :: rest))]
    else Tree.operator (c :: rest)

/-- Code without brackets, its tokens one blank apart. -/
def code (text : String) : Spelling := (text.toList.splitOn ' ').flatMap piece

def parens (inner : Spelling) : Spelling := [.group .paren inner]

def braces (inner : Spelling) : Spelling := [.group .brace inner]

def brackets (inner : Spelling) : Spelling := [.group .bracket inner]

/-- A text as a literal. -/
def quoted (text : String) : Spelling :=
  [.leaf (.literal (String.ofList (Text.literal text.toList)))]

/-- A text without quotes as a raw literal. -/
def rawQuoted (text : String) : Spelling := [.leaf (.literal ("r\x22" ++ text ++ "\x22"))]

def attributed (inner : Spelling) : Spelling := code "#" ++ brackets inner

def doc (text : String) : Spelling := attributed (code "doc =" ++ rawQuoted text)

def inAngles (inner : Spelling) : Spelling := code "<" ++ inner ++ code ">"

def option (inner : Spelling) : Spelling := code ":: core :: option :: Option" ++ inAngles inner

def selfAndName : Spelling := code "& self , name : & str"

/-- A variant with the type that it holds. -/
def variant (e : Entry) : Spelling :=
  e.variant.spelling ++ parens e.type.spelling ++ code ","

def enumeration (entries : List Entry) : Spelling :=
  doc " Closed set of component types discovered at build time." ++
    code "pub enum AnyComponent" ++ braces (entries.flatMap variant)

def typeNameArm (e : Entry) : Spelling :=
  code "Self ::" ++ e.variant.spelling ++ parens (code "_") ++ code "=>" ++ quoted e.name ++ code ","

def componentSet (runtime : Spelling) (entries : List Entry) : Spelling :=
  code "impl" ++ runtime ++ code ":: ComponentSet for AnyComponent" ++ braces (
    code "fn type_name" ++ parens (code "& self") ++ code "-> & 'static str" ++ braces (
      code "match self" ++ braces (entries.flatMap typeNameArm)))

/-- How a component type becomes a value of the enumeration. -/
def conversion (e : Entry) : Spelling :=
  code "impl :: core :: convert :: From" ++ inAngles e.type.spelling ++ code "for AnyComponent" ++
    braces (code "fn from" ++ parens (code "component :" ++ e.type.spelling) ++ code "-> Self" ++
      braces (code "Self ::" ++ e.variant.spelling ++ parens (code "component")))

/-- A method that gets a component type out of the enumeration. -/
def projection (e : Entry) (name reference : String) : Spelling :=
  code "fn" ++ code name ++ parens (code "component :" ++ code reference ++ code "AnyComponent") ++
    code "->" ++ option (code reference ++ code "Self") ++ braces (
      code "match component" ++ braces (
        code "AnyComponent ::" ++ e.variant.spelling ++ parens (code "inner") ++
          code "=> :: core :: option :: Option :: Some" ++ parens (code "inner") ++ code "," ++
          attributed (code "allow" ++ parens (code "unreachable_patterns")) ++
          code "_ => :: core :: option :: Option :: None ,"))

/-- How a component type is got out of the enumeration. -/
def membership (runtime : Spelling) (e : Entry) : Spelling :=
  code "impl" ++ runtime ++ code ":: Member < AnyComponent > for" ++ e.type.spelling ++
    braces (projection e "project" "&" ++ projection e "project_mut" "& mut")

def registryStruct (runtime : Spelling) : Spelling :=
  doc " Name-keyed registry over the discovered component types." ++
    code "pub struct ComponentRegistry" ++ braces (
      code "inner :" ++ runtime ++ code ":: Registry < AnyComponent > ,")

def newMethod (runtime : Spelling) : Spelling :=
  doc " Creates an empty registry." ++
    code "pub fn new" ++ parens [] ++ code "-> Self" ++ braces (
      code "Self" ++ braces (
        code "inner :" ++ runtime ++ code ":: Registry :: new" ++ parens [] ++ code ","))

def registerMethod : Spelling :=
  doc " Stores `component` under `name`; the last registration for a name wins." ++
    code "pub fn register" ++
    parens (code "& mut self , name : impl :: core :: convert :: Into < :: std :: string :: String > ,"
      ++ code "component : impl :: core :: convert :: Into < AnyComponent > ,") ++
    code "->" ++ option (code "AnyComponent") ++ braces (
      code "self . inner . register" ++
        parens (code "name , component . into" ++ parens []))

def getMethod (runtime : Spelling) (name summary reference : String) : Spelling :=
  doc summary ++ code "pub fn" ++ code name ++ code "< T :" ++ runtime ++
    code ":: Member < AnyComponent >>" ++
    parens (code reference ++ code "self , name : & str") ++
    code "->" ++ option (code reference ++ code "T") ++ braces (
      code "self . inner ." ++ code name ++ code ":: < T >" ++ parens (code "name"))

/-- A method without arguments that the runtime library has, too. -/
def plainMethod (name : String) (result : Spelling) : Spelling :=
  code "pub fn" ++ code name ++ parens (code "& self") ++ code "->" ++ result ++
    braces (code "self . inner ." ++ code name ++ parens [])

def listing (runtime : Spelling) : Spelling :=
  code ":: std :: vec :: Vec <" ++ runtime ++ code ":: Listing < '_ >>"

/-- The typed getter of a component that has one. -/
def getter (e : Entry) : Spelling :=
  match e.accessor with
  | none => []
  | some accessor =>
    attributed (code "doc =" ++ quoted (" Returns the `" ++ e.name ++ "` registered under `name`."))
      ++ code "pub fn" ++ accessor.spelling ++ parens selfAndName ++
      code "->" ++ option (code "&" ++ e.type.spelling) ++ braces (
        code "self . get ::" ++ inAngles e.type.spelling ++ parens (code "name"))

def registryMethods (runtime : Spelling) (entries : List Entry) : Spelling :=
  code "impl ComponentRegistry" ++ braces (
    newMethod runtime ++ registerMethod ++
      getMethod runtime "get" " Returns the component registered under `name` if it is a `T`." "&"
      ++ getMethod runtime "get_mut" " Mutable counterpart of `get`." "& mut" ++
      plainMethod "len" (code "usize") ++ plainMethod "is_empty" (code "bool") ++
      doc " Lists every registration in insertion order with its component type." ++
      plainMethod "list_all" (listing runtime) ++ entries.flatMap getter)

def defaultImpl : Spelling :=
  code "impl :: core :: default :: Default for ComponentRegistry" ++ braces (
    code "fn default" ++ parens [] ++ code "-> Self" ++
      braces (code "Self :: new" ++ parens []))

/-- The items of the registry module. -/
def spelling (model : Model) : Spelling :=
  let runtime := model.runtime.spelling
  enumeration model.entries ++ componentSet runtime model.entries ++
    model.entries.flatMap (fun e => conversion e ++ membership runtime e) ++
    registryStruct runtime ++ registryMethods runtime model.entries ++ defaultImpl

def header : String := "// @generated by compreg-codegen. Do not edit."

/-- The text of the registry module: two lines of comments, and its items in a third. -/
def moduleText (model : Model) : String :=
  header ++ "\n// Components: " ++ ", ".intercalate (model.entries.map (·.name)) ++ "\n" ++
    Tree.text (spelling model) ++ "\n"

/-- The registry of a set of components; without components there is none. -/
def emit (set : AcceptedSet) (config : Config) : Except GenerateError (Option Artifact) := do
  if set.isEmpty then return none
  let model ← Model.build set config
  return some ⟨config.artifactFile, moduleText model⟩

end Artifact

end ComponentRegistry
