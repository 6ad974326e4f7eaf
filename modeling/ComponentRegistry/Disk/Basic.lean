import ComponentRegistry.Disk.FilePath

/-! Trees of files and directories, and what the operations on them do. There are no links, so a
place in the tree is named by the directories that lead to it. -/

namespace ComponentRegistry

/-- The names on the way from the root. -/
abbrev Location := List String

inductive Disk.Entry where
  | directory
  /-- A file, and the number of writes that the disk had seen before it was written last. -/
  | file (contents : ByteArray) (written : Nat)

instance : (entry : Option Disk.Entry) → Decidable (entry = some .directory)
  | some .directory => .isTrue rfl
  | some (.file ..) => .isFalse nofun
  | none => .isFalse nofun

/-- Why an operation fails. -/
inductive FileError where
  | notFound
  | notADirectory
  | isADirectory
  | alreadyExists
  /-- A text is asked for, but the bytes are not UTF-8. -/
  | invalidData
  | nameTooLong
  /-- A path holds the character that ends one. -/
  | invalidPath
  deriving DecidableEq, Repr

/-- What stands at a place; the root is always there. -/
def Disk.entryIn? (entries : SortedMap Location Disk.Entry) : Location → Option Disk.Entry
  | [] => some .directory
  | loc => entries.get? loc

/-- What a disk holds below its root. Whatever has an entry stands in a directory. -/
structure Disk where
  entries : SortedMap Location Disk.Entry
  closed : ∀ {loc name entry}, entries.get? (loc ++ [name]) = some entry →
    Disk.entryIn? entries loc = some .directory
  /-- Where relative paths start. -/
  workingDirectory : Location
  /-- The number of writes so far. -/
  writes : Nat

namespace Disk

/-- The longest name of a file, in bytes. -/
def longestName : Nat := 255

/-- The longest path that is looked up, in bytes. -/
def longestPath : Nat := 4095

def empty : Disk := ⟨.empty, fun h => by simp at h, [], 0⟩

def entry? (d : Disk) (loc : Location) : Option Entry := entryIn? d.entries loc

theorem entryIn?_append_singleton (entries : SortedMap Location Entry) (loc : Location)
    (name : String) : entryIn? entries (loc ++ [name]) = entries.get? (loc ++ [name]) := by
  cases loc <;> rfl

theorem entryIn?_insert (entries : SortedMap Location Entry) {loc : Location} (h : loc ≠ [])
    (entry : Entry) (other : Location) :
    entryIn? (entries.insert loc entry) other =
      if other = loc then some entry else entryIn? entries other := by
  cases other with
  | nil => simp [entryIn?, h.symm]
  | cons => exact SortedMap.get?_insert ..

/-- What has a name in a directory. -/
def child? (d : Disk) (loc : Location) (name : String) : Option Entry := d.entry? (loc ++ [name])

/-- Go on from a directory through the directories that a path names. -/
def enter (d : Disk) (loc : Location) : List String → Except FileError Location
  | [] => .ok loc
  | segment :: rest =>
    if !FilePath.counts segment then d.enter loc rest
    else if segment == ".." then d.enter loc.dropLast rest
    else if longestName < segment.utf8ByteSize then .error .nameTooLong
    else match d.child? loc segment with
      | none => .error .notFound
      | some (.file ..) => .error .notADirectory
      | some .directory => d.enter (loc ++ [segment]) rest

/-- Where a path leads to. -/
inductive Target where
  /-- To a directory that is there, without a name for it at the end. -/
  | directory (loc : Location)
  /-- To a name in a directory, whether something has it or not; there may be a slash after it. -/
  | named (parent : Location) (name : String) (slashed : Bool)

/-- Follow a path up to its last name. -/
def target (d : Disk) (p : FilePath) : Except FileError Target := do
  let start := if p.absolute then [] else d.workingDirectory
  if p.text.toList.contains '\x00' then throw .invalidPath
  if p.isEmpty then throw .notFound
  if longestPath < p.text.utf8ByteSize then throw .nameTooLong
  match p.segments.reverse.dropWhile (·.isEmpty) with
  | [] => return .directory start
  | last :: before =>
    if last == "." || last == ".." then return .directory (← d.enter start p.segments)
    let parent ← d.enter start before.reverse
    if longestName < last.utf8ByteSize then throw .nameTooLong
    return .named parent last (p.segments.getLast? == some "")

/-- What a path leads to, and its place. -/
def locate (d : Disk) (p : FilePath) : Except FileError (Location × Entry) := do
  match ← d.target p with
  | .directory loc => return (loc, .directory)
  | .named parent name slashed =>
    match d.child? parent name with
    | none => throw .notFound
    | some .directory => return (parent ++ [name], .directory)
    | some file => if slashed then throw .notADirectory else return (parent ++ [name], file)

def has (d : Disk) (p : FilePath) : Bool := (d.locate p).toOption.isSome

def isFile (d : Disk) (p : FilePath) : Bool :=
  match d.locate p with
  | .ok (_, .file ..) => true
  | _ => false

def isDirectory (d : Disk) (p : FilePath) : Bool :=
  match d.locate p with
  | .ok (_, .directory) => true
  | _ => false

def readBytes (d : Disk) (p : FilePath) : Except FileError ByteArray := do
  match ← d.locate p with
  | (_, .directory) => throw .isADirectory
  | (_, .file contents _) => return contents

def readText (d : Disk) (p : FilePath) : Except FileError String := do
  match String.fromUTF8? (← d.readBytes p) with
  | some text => return text
  | none => throw .invalidData

/-- Put something that is new, or a file instead of another, into a directory. -/
def put (d : Disk) (parent : Location) (name : String) (entry : Entry)
    (hparent : d.entry? parent = some .directory)
    (hfree : d.child? parent name ≠ some .directory) : Disk where
  entries := d.entries.insert (parent ++ [name]) entry
  closed {loc other found} h := by
    rw [entryIn?_insert _ (by simp)]
    rw [SortedMap.get?_insert] at h
    have hne : loc ≠ parent ++ [name] := by
      rintro rfl
      split at h <;> rename_i h'
      · simpa using congrArg List.length h'
      · exact hfree (d.closed h)
    rw [if_neg hne]
    split at h <;> rename_i h'
    · rw [(List.append_inj_left' h' rfl)]; exact hparent
    · exact d.closed h
  workingDirectory := d.workingDirectory
  writes := d.writes

/-- Leave out what stands at a place and below it. -/
def drop (d : Disk) (loc : Location) : Disk where
  entries := d.entries.filter fun other _ => !loc.isPrefixOf other
  closed {parent name found} h := by
    rw [SortedMap.get?_filter, Option.filter_eq_some_iff] at h
    have hup := d.closed h.1
    cases parent with
    | nil => rfl
    | cons a as =>
      have hkeep : ¬loc <+: a :: as := fun hle => by
        have h := h.2
        rw [List.isPrefixOf_iff_prefix.mpr (hle.trans (List.prefix_append _ [name]))] at h
        simp at h
      simp only [entryIn?] at hup ⊢
      rw [SortedMap.get?_filter, hup]
      simpa [Option.filter] using hkeep
  workingDirectory := d.workingDirectory
  writes := d.writes

/-- Make the directory that relative paths start from another one. -/
def changeDirectory (d : Disk) (p : FilePath) : Except FileError Disk := do
  match ← d.locate p with
  | (loc, .directory) => return { d with workingDirectory := loc }
  | _ => throw .notADirectory

/-- Write a file, which need not have been there before. -/
def write (d : Disk) (p : FilePath) (contents : ByteArray) : Except FileError Disk := do
  match ← d.target p with
  | .directory _ => throw .isADirectory
  | .named parent name slashed =>
    if slashed then throw .isADirectory
    else if hfree : d.child? parent name = some .directory then throw .isADirectory
    else if hparent : d.entry? parent = some .directory then
      let d' := d.put parent name (.file contents d.writes) hparent hfree
      return { d' with writes := d.writes + 1 }
    else throw .notFound

/-- Make a directory in one that is there. -/
def makeDirectory (d : Disk) (p : FilePath) : Except FileError Disk := do
  match ← d.target p with
  | .directory _ => throw .alreadyExists
  | .named parent name _ =>
    if hfree : d.child? parent name = none then
      if hparent : d.entry? parent = some .directory then
        return d.put parent name .directory hparent (by simp [hfree])
      else throw .notFound
    else throw .alreadyExists

/-- Make a directory in one that is there, unless it is there itself. -/
def ensureDirectory (d : Disk) (p : FilePath) : Except FileError Disk :=
  match d.makeDirectory p with
  | .error .alreadyExists => if d.isDirectory p then .ok d else .error .alreadyExists
  | result => result

/-- Make the first of the directories in a list, each of which stands in the next. -/
def ensureInside (d : Disk) : List FilePath → Except FileError Unit × Disk
  | [] => (.ok (), d)
  | p :: above =>
    match d.ensureDirectory p with
    | .ok d => (.ok (), d)
    | .error .notFound =>
      match d.ensureInside above with
      | (.error e, d) => (.error e, d)
      | (.ok (), d) =>
        match d.ensureDirectory p with
        | .ok d => (.ok (), d)
        | .error e => (.error e, d)
    | .error e => (.error e, d)

/-- Make a directory and those that it stands in, as far as they are missing. Those that have been
made stay when a later one fails. -/
def makeDirectories (d : Disk) (p : FilePath) : Except FileError Unit × Disk :=
  d.ensureInside p.upwards

def removeFile (d : Disk) (p : FilePath) : Except FileError Disk := do
  match ← d.target p with
  | .directory _ => throw .isADirectory
  | .named parent name slashed =>
    match d.child? parent name with
    | none => throw .notFound
    | some .directory => throw .isADirectory
    | some (.file ..) =>
      if slashed then throw .notADirectory else return d.drop (parent ++ [name])

/-- Remove a file, or a directory with all that is in it. -/
def removeAll (d : Disk) (p : FilePath) : Except FileError Disk :=
  return d.drop (← d.locate p).1

/-- The files at a place and below it with the names that lead to them, in the order of the names,
those in a directory where its name stands. -/
def filesBelow (d : Disk) (loc : Location) : List (Location × ByteArray × Nat) :=
  d.entries.entries.filterMap fun (other, entry) =>
    match entry with
    | .directory => none
    | .file contents written =>
      if loc.isPrefixOf other then some (other.drop loc.length, contents, written) else none

end Disk

end ComponentRegistry
