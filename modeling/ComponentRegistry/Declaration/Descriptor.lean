import ComponentRegistry.Declaration.Node
import ComponentRegistry.Grammar.SourceFile

/-! Which declarations are components, and what is known of each. -/

namespace ComponentRegistry

open Grammar

/-- The attribute that makes a declared type a component. -/
def marker : String := "Component"

structure Descriptor where
  /-- The name without a raw mark. -/
  name : String
  modulePath : List String
  /-- It has generic parameters. -/
  generic : Bool
  deriving DecidableEq, Repr

def carriesMarker (a : Attribute) : Bool := !a.inner && a.path.is marker

/-- The name of a type that carries the marker, and whether it is generic. -/
def Grammar.Item.component? : Item → Option (String × Bool)
  | .declaration attributes _ name generic _ =>
    if attributes.any carriesMarker then some (name.text, generic) else none
  | _ => none

namespace Node

/-- The name of a marked declaration, and whether it is generic. -/
def component? (node : Node) : Option (String × Bool) :=
  Item.ofText? node.content >>= Item.component?

/-- The content is one declared type that carries the marker. -/
def isMarked (node : Node) : Bool := node.component?.isSome

/-- What is known of a marked declaration. -/
def descriptor? (node : Node) : Option Descriptor :=
  node.component?.map fun (name, generic) => ⟨name, node.modulePath, generic⟩

end Node

end ComponentRegistry
