import ComponentRegistry.Crate.Corpus
import ComponentRegistry.Disk.Publication
import ComponentRegistry.Generation.Session

/-! One build: the sources of a crate are searched, the registry is generated and written. The build
names all paths on which its result depends, so that it runs again when one of them changes. -/

namespace ComponentRegistry

/-- Where a build finds the crate, and where its results go. -/
structure Build where
  manifestDirectory : FilePath
  outputDirectory : FilePath
  deriving DecidableEq, Repr

inductive BuildError where
  | crate (e : CrateError)
  | generate (e : GenerateError)
  | publish (e : PublicationError)
  deriving DecidableEq, Repr

/-- What a build step comes to. -/
structure BuildReport where
  result : Except BuildError Output
  /-- The paths that have been named, in this order. -/
  watched : List FilePath
  /-- The disk after the step. -/
  disk : Disk

/-- No environment variable of this name is set. -/
structure MissingVariable where
  name : String
  deriving DecidableEq, Repr

def MissingVariable.message (e : MissingVariable) : String :=
  "environment variable " ++ e.name ++ " is not set"

namespace Build

/-- The build that the variables of the environment describe. -/
def ofEnvironment (value? : String → Option String) : Except MissingVariable Build :=
  let get (name : String) : Except MissingVariable FilePath :=
    match value? name with
    | some value => .ok (.ofText value)
    | none => .error ⟨name⟩
  return ⟨← get "CARGO_MANIFEST_DIR", ← get "OUT_DIR"⟩

/-- The directory of the sources. -/
def sourceRoot (b : Build) : FilePath := b.manifestDirectory.push "src"

def output (b : Build) : OutputDirectory := ⟨b.outputDirectory⟩

/-- The line by which a build names a path. -/
def watchLine (path : FilePath) : String := "cargo:rerun-if-changed=" ++ path.text

/-- The paths of all files in a directory; a file is the only one in itself. -/
def filesIn (d : Disk) (path : FilePath) : Except FileError (List FilePath) := do
  let (loc, _) ← d.locate path
  return (d.filesBelow loc).map fun (names, _) => names.foldl FilePath.push path

/-- Name a directory and all files in it. -/
def watchTree (d : Disk) (path : FilePath) : Except CrateError Unit × List FilePath :=
  match filesIn d path with
  | .ok files => (.ok (), path :: files)
  | .error e => (.error (.walk path e), [path])

/-- Write the output of a pass. Without components a file of an earlier build is removed, so that
nothing goes on to use it. -/
def writeOutput (b : Build) (config : Config) (output : Output) (d : Disk) :
    Except PublicationError Unit × Disk :=
  match output with
  | .emitted artifact => b.output.publish artifact d
  | .unchanged => (.ok (), d)
  | .suppressed => b.output.retract config.artifactFile d

/-- A whole build. Nothing is named if the crate cannot be read, and nothing is written if the
registry cannot be generated. -/
def generate (b : Build) (config : Config) (d : Disk) : BuildReport :=
  match d.corpus b.sourceRoot with
  | .error e => ⟨.error (.crate e), [], d⟩
  | .ok corpus =>
    match watchTree d b.sourceRoot with
    | (.error e, watched) => ⟨.error (.crate e), watched, d⟩
    | (.ok (), watched) =>
      let watched := watched ++ corpus.files
      match ((Session.start config).run corpus.nodes).1 with
      | .error e => ⟨.error (.generate e), watched, d⟩
      | .ok output =>
        match b.writeOutput config output d with
        | (.error e, d) => ⟨.error (.publish e), watched, d⟩
        | (.ok (), d) => ⟨.ok output, watched, d⟩

end Build

end ComponentRegistry
