import ComponentRegistry.Crate.ModuleFile
import ComponentRegistry.Disk.Basic

/-! The declarations of a crate. From the root of the crate the search follows the modules without
body, the first one first with all that it leads to. A file that is come upon again is passed over,
unless its path is written in another way. -/

namespace ComponentRegistry

/-- What the sources of a crate are read from. -/
structure Sources where
  isFile : FilePath → Bool
  read : FilePath → Except FileError String

/-- The names of the root of a crate; the first one counts if there are both. -/
def rootNames : List String := ["lib.rs", "main.rs"]

inductive CrateError where
  /-- There is no root of a crate in a directory. -/
  | noCrateRoot (directory : FilePath)
  | read (path : FilePath) (reason : FileError)
  /-- The files below a directory cannot be listed. -/
  | walk (path : FilePath) (reason : FileError)
  deriving DecidableEq, Repr

/-- The wording of the error of a crate without root. -/
def CrateError.noCrateRootMessage (directory : FilePath) : String :=
  "no " ++ " or ".intercalate rootNames ++ " in " ++ directory.text

/-- What has been read of a crate, in the order of the search. -/
structure Corpus where
  files : List FilePath
  nodes : List Node
  deriving DecidableEq, Repr

structure Search where
  /-- The paths of the files that the search has come to. -/
  seen : List (Nat × FilePath)
  /-- The files still to come to, the next one first. -/
  pending : List ModuleFile
  found : Corpus

namespace Sources

/-- The file of a module that a file in `directory` declares, if there is one. -/
def child? (s : Sources) (directory : FilePath) (m : ModuleFile) (decl : ModuleDecl) :
    Option ModuleFile :=
  (m.candidates decl).find? fun child => s.isFile (directory.join child.path)

/-- Read a file, and go on with its modules before the files that are pending. -/
def visit (s : Sources) (directory : FilePath) (search : Search) (m : ModuleFile) :
    Except CrateError Search :=
  let path := directory.join m.path
  match s.read path with
  | .error e => .error (.read path e)
  | .ok text =>
    let outline := Outline.ofText m.path.key m.modulePath text
    .ok {
      seen := m.path.identity :: search.seen
      pending := outline.modules.filterMap (s.child? directory m) ++ search.pending
      found := ⟨search.found.files ++ [path], search.found.nodes ++ outline.nodes⟩ }

/-- One turn: files that the search has come to before are passed over, and the next one is
visited. -/
def turn (s : Sources) (directory : FilePath) (search : Search) : Except CrateError Search :=
  match search.pending.dropWhile fun m => search.seen.contains m.path.identity with
  | [] => .ok { search with pending := [] }
  | m :: rest => s.visit directory { search with pending := rest } m

/-- Take turns, at most `n`, as long as files are pending. -/
def run (s : Sources) (directory : FilePath) : Nat → Search → Except CrateError Search
  | 0, search => .ok search
  | n + 1, search =>
    if search.pending.isEmpty then .ok search
    else match s.turn directory search with
      | .error e => .error e
      | .ok search => s.run directory n search

/-- The search before its first turn. -/
def start? (s : Sources) (directory : FilePath) : Option Search :=
  (rootNames.find? fun name => s.isFile (directory.push name)).map fun name =>
    ⟨[], [.root name], ⟨[], []⟩⟩

/-- The crate with its sources in a directory, as far as `n` turns lead. -/
def corpus (s : Sources) (directory : FilePath) (n : Nat) : Except CrateError Corpus :=
  match s.start? directory with
  | none => .error (.noCrateRoot directory)
  | some search => (s.run directory n search).map (·.found)

end Sources

namespace Disk

def sources (d : Disk) : Sources := ⟨d.isFile, d.readText⟩

/-- More than there are paths that can be looked up: with a mark between segments such a path is a
list of at most `longestPath` characters and marks, and absolute or not. -/
def manyPaths : Nat := 2 * Nat.pow (0x110000 + 1) (longestPath + 1)

/-- The crate with its sources in a directory. Whatever its paths are, the search comes to an end,
as no file is read twice under the same path. -/
def corpus (d : Disk) (directory : FilePath) : Except CrateError Corpus :=
  d.sources.corpus directory manyPaths

end Disk

end ComponentRegistry
