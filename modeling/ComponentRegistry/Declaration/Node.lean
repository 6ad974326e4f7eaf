import ComponentRegistry.Declaration.Digest
import ComponentRegistry.SortedMap

/-! Declarations as they are handed over for classification, and what tells them apart. -/

namespace ComponentRegistry

/-- Where a declaration stands: its file and its position there. The order is that of the sources,
by file and then by position. -/
structure NodeKey where
  file : String
  ordinal : Nat
  deriving DecidableEq, Repr

namespace NodeKey

def text (key : NodeKey) : String := key.file ++ "#" ++ toString key.ordinal

instance : KeyOrder NodeKey :=
  KeyOrder.on (fun key => (key.file, key.ordinal)) fun {a b} h => by
    cases a; cases b; simpa using h

end NodeKey

/-- A declaration: its text, and the module that it belongs to. -/
structure Node where
  key : NodeKey
  modulePath : List String
  content : String
  deriving DecidableEq, Repr

/-- What tells whether a declaration has changed. Equal fingerprints count as the same
declaration. -/
structure Fingerprint where
  key : NodeKey
  digest : UInt64
  deriving DecidableEq, Repr

instance : KeyOrder Fingerprint :=
  KeyOrder.on (fun print => (print.key, print.digest)) fun {a b} h => by
    cases a; cases b; simpa using h

def Node.fingerprint (node : Node) : Fingerprint :=
  ⟨node.key, Digest.ofTexts node.modulePath node.content⟩

/-- A notice from whatever watches the sources. -/
inductive Change where
  | added (node : Node)
  | changed (node : Node)
  | removed (key : NodeKey)
  deriving DecidableEq, Repr

end ComponentRegistry
