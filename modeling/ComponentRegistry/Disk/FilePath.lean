import ComponentRegistry.SortedMap

/-! Paths as they are written. A path is joined and cut as text: nothing in it is resolved before it
is looked up. Of what is written, empty segments and single dots do not count, except for a dot at
the start. -/

namespace ComponentRegistry

/-- A path, which is the same for the disk and for the text as long as no segment holds a slash. -/
structure FilePath where
  /-- The path starts with a slash. -/
  absolute : Bool
  /-- What stands between the other slashes; a single empty text if there is nothing. -/
  segments : List String
  deriving DecidableEq, Repr

namespace FilePath

/-- The pieces of a text between its slashes, at least one. -/
def split : List Char → List (List Char)
  | [] => [[]]
  | c :: rest =>
    if c = '/' then [] :: split rest
    else match split rest with
      | piece :: more => (c :: piece) :: more
      | [] => [[c]]

def ofChars : List Char → FilePath
  | '/' :: rest => ⟨true, (split rest).map String.ofList⟩
  | chars => ⟨false, (split chars).map String.ofList⟩

def ofText (text : String) : FilePath := ofChars text.toList

/-- A path of one name. -/
def ofName (name : String) : FilePath := ⟨false, [name]⟩

def empty : FilePath := ofName ""

def text (p : FilePath) : String := (if p.absolute then "/" else "") ++ "/".intercalate p.segments

def isEmpty (p : FilePath) : Bool := p == empty

/-- The segments without the empty one after a slash at the end. -/
def untrailed (segments : List String) : List String :=
  if segments.getLast? = some "" then segments.dropLast else segments

/-- One path after another. An absolute one stands for itself. -/
def join (base p : FilePath) : FilePath :=
  if p.absolute then p else ⟨base.absolute, untrailed base.segments ++ p.segments⟩

def push (base : FilePath) (name : String) : FilePath := base.join (ofName name)

/-- The segment counts wherever it stands. -/
def counts (segment : String) : Bool := segment != "" && segment != "."

/-- The dot that a path starts with. -/
def lead (p : FilePath) : List String :=
  if !p.absolute && p.segments.head? == some "." then ["."] else []

/-- The segments after the dot at the start. -/
def body (p : FilePath) : List String := p.segments.drop p.lead.length

/-- The names and double dots of a path. -/
def names (p : FilePath) : List String := p.body.filter counts

/-- A path without what does not count. -/
def normal (p : FilePath) : FilePath := ⟨p.absolute, p.lead ++ p.names⟩

/-- Two paths are taken for the same one if what counts in them is equal. The number of segments
stands before it, so that paths of different length differ at once. -/
def identity (p : FilePath) : Nat × FilePath := (p.normal.segments.length, p.normal)

theorem identity_eq_iff {p q : FilePath} : p.identity = q.identity ↔ p.normal = q.normal :=
  ⟨fun h => congrArg Prod.snd h, fun h => by simp [identity, h]⟩

/-- The names of a path, as what identifies a file of a crate. -/
def key (p : FilePath) : String := "/".intercalate p.names

/-- Drop what does not count from the end. -/
def trim (segments : List String) : List String :=
  (segments.reverse.dropWhile fun s => !counts s).reverse

/-- A path of the given segments, if there are any. -/
def ofSegments (absolute : Bool) (segments : List String) : FilePath :=
  ⟨absolute, if segments.isEmpty then [""] else segments⟩

/-- The path without its last name, and without what does not count before that. The path that is a
dot has the empty one before it. -/
def parent? (p : FilePath) : Option FilePath :=
  match trim p.body with
  | [] => if p.lead.isEmpty then none else some empty
  | body => some (ofSegments p.absolute (p.lead ++ trim body.dropLast))

def parent (p : FilePath) : FilePath := p.parent?.getD empty

/-- The last name. -/
def fileName? (p : FilePath) : Option String := p.names.getLast?.filter (· != "..")

/-- A name without what follows its last dot; a dot at the start does not count. -/
def stemOf (name : String) : String :=
  match name.toList.reverse.dropWhile (· != '.') with
  | _ :: c :: rest => String.ofList (c :: rest).reverse
  | _ => name

def stem? (p : FilePath) : Option String := p.fileName?.map stemOf

/-- The path and those above it, at most `n`, up to the empty one or the root. -/
def upwardsTo (p : FilePath) : Nat → List FilePath
  | 0 => []
  | n + 1 =>
    match p.parent? with
    | none => []
    | some above => if p.isEmpty then [] else p :: above.upwardsTo n

/-- The path and those above it, the longest first; neither the root nor the empty path is one. -/
def upwards (p : FilePath) : List FilePath := p.upwardsTo (p.segments.length + 1)

end FilePath

end ComponentRegistry
