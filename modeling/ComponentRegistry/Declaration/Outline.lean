import ComponentRegistry.Declaration.Descriptor

/-! The outline of a source file: its declarations, numbered from first to last, and the modules
that it declares without body. -/

namespace ComponentRegistry

open Grammar

/-- A module that has a file of its own. -/
structure ModuleDecl where
  name : String
  /-- The modules with body around the declaration, the outermost first. -/
  inline : List String
  /-- The path that an attribute gives. -/
  path : Option String
  deriving DecidableEq, Repr

structure Outline where
  nodes : List Node
  modules : List ModuleDecl
  deriving DecidableEq, Repr

namespace Outline

/-- The attribute says that a module is there in test builds only. -/
def isTestOnly (a : Attribute) : Bool :=
  a.path.is "cfg" && match a.value with
    | .list _ trees => (readAll (fun _ => Reader.name) trees).toOption == some ⟨false, "test"⟩
    | _ => false

/-- The text that an attribute gives for a path. -/
def pathValue? (a : Attribute) : Option String :=
  match a.value with
  | .value [.leaf (.literal text)] =>
    if a.path.is "path" then Literal.stringValue? text else none
  | _ => none

/-- What a walk through the items of a file comes upon. -/
inductive Reached where
  /-- An item that is no module, with the modules around it. -/
  | item (inline : List String) (text : Spelling)
  | declared (decl : ModuleDecl)
  deriving Repr

mutual

/-- An item, or what stands in a module with body. Modules of test builds are left out. -/
def reachedBy (inline : List String) : Item → List Reached
  | .submodule attributes name body _ =>
    if attributes.any isTestOnly then []
    else match body with
      | some items => reached (inline ++ [name.text]) items
      | none => [.declared ⟨name.text, inline, attributes.findSome? pathValue?⟩]
  | .declaration _ _ _ _ text => [.item inline text]
  | .other text => [.item inline text]

/-- All that is reached from a list of items, in their order. -/
def reached (inline : List String) : List Item → List Reached
  | [] => []
  | item :: rest => reachedBy inline item ++ reached inline rest

end

def Reached.item? : Reached → Option (List String × Spelling)
  | .item inline text => some (inline, text)
  | .declared _ => none

def Reached.module? : Reached → Option ModuleDecl
  | .item .. => none
  | .declared decl => some decl

/-- The outline of the items of a file that is the module `modulePath`. -/
def ofItems (file : String) (modulePath : List String) (items : List Item) : Outline where
  nodes := ((reached [] items).filterMap Reached.item?).zipIdx.map fun ((inline, text), ordinal) =>
    ⟨⟨file, ordinal⟩, modulePath ++ inline, Tree.text text⟩
  modules := (reached [] items).filterMap Reached.module?

/-- The outline of a file. A text that is no source file is a single declaration. -/
def ofText (file : String) (modulePath : List String) (text : String) : Outline :=
  match SourceFile.items? text with
  | some items => ofItems file modulePath items
  | none => ⟨[⟨⟨file, 0⟩, modulePath, text⟩], []⟩

end Outline

end ComponentRegistry
