import ComponentRegistry.Disk.Basic
import ComponentRegistry.Generation.Artifact
import ComponentRegistry.Text.Utf8

/-! Putting generated files into a directory. -/

namespace ComponentRegistry

/-- The file or the directory that could not be written, and why. -/
structure PublicationError where
  path : FilePath
  reason : FileError
  deriving DecidableEq, Repr

/-- A file as a listing of a directory shows it. -/
structure ListedFile where
  path : String
  contents : String
  /-- The number of writes that the disk had seen before the file was written. -/
  written : Nat
  deriving DecidableEq, Repr

/-- A directory for generated files, which need not be there yet. -/
structure OutputDirectory where
  path : FilePath
  deriving DecidableEq, Repr

namespace OutputDirectory

/-- Where a file of the given name goes. -/
def pathFor (dir : OutputDirectory) (fileName : String) : FilePath :=
  dir.path.join (.ofText fileName)

/-- The file holds what the artifact says. -/
def isUpToDate (dir : OutputDirectory) (artifact : Artifact) (d : Disk) : Bool :=
  (d.readText (dir.pathFor artifact.fileName)).toOption == some artifact.contents

/-- Write an artifact. A file that holds the same text is left alone, so that nothing that depends
on it is made again. -/
def publish (dir : OutputDirectory) (artifact : Artifact) (d : Disk) :
    Except PublicationError Unit × Disk :=
  let path := dir.pathFor artifact.fileName
  if dir.isUpToDate artifact d then (.ok (), d)
  else match d.makeDirectories dir.path with
    | (.error e, d) => (.error ⟨dir.path, e⟩, d)
    | (.ok (), d) =>
      match d.write path artifact.contents.toUTF8 with
      | .error e => (.error ⟨path, e⟩, d)
      | .ok d => (.ok (), d)

/-- Remove the file of the given name, if it is there. -/
def retract (dir : OutputDirectory) (fileName : String) (d : Disk) :
    Except PublicationError Unit × Disk :=
  let path := dir.pathFor fileName
  if d.has path then
    match d.removeFile path with
    | .error e => (.error ⟨path, e⟩, d)
    | .ok d => (.ok (), d)
  else (.ok (), d)

/-- All files in the directory. The empty path is not taken for the working directory here. -/
def listing (dir : OutputDirectory) (d : Disk) : List ListedFile :=
  match d.locate dir.path with
  | .ok (loc, .directory) => (d.filesBelow loc).map fun (names, contents, written) => {
      path := dir.path.text ++ "/" ++ "/".intercalate names
      contents := String.ofList (Text.ofBytes contents.toList)
      written }
  | _ => []

end OutputDirectory

end ComponentRegistry
