import ComponentRegistry.Declaration.Outline
import ComponentRegistry.Disk.FilePath

/-! Which files a module without body may stand in. In a file that owns its directory the modules
are looked for beside it, in any other one in a directory that has the name of the file. -/

namespace ComponentRegistry

/-- A file of a crate and the module that it defines. -/
structure ModuleFile where
  /-- The path from the directory of the sources. -/
  path : FilePath
  modulePath : List String
  /-- The file is the root of the crate, the file of a directory, or one that an attribute names. -/
  ownsDirectory : Bool
  deriving DecidableEq, Repr

namespace ModuleFile

/-- The root of a crate, at one of the names for it. -/
def root (name : String) : ModuleFile := ⟨.ofName name, [], true⟩

/-- The directory of the modules that the file declares without a path. -/
def directory? (m : ModuleFile) : Option FilePath :=
  if m.ownsDirectory then some m.path.parent else m.path.stem?.map m.path.parent.push

/-- The files that a module may stand in, in the order in which they are looked for. Modules with
body around the declaration each add a directory. A path that an attribute gives starts from there,
or from the directory of the file if there are none. -/
def candidates (m : ModuleFile) (decl : ModuleDecl) : List ModuleFile :=
  match m.directory? with
  | none => []
  | some start =>
    let directory := decl.inline.foldl FilePath.push start
    let modulePath := m.modulePath ++ decl.inline ++ [decl.name]
    match decl.path with
    | some path =>
      let base := if decl.inline.isEmpty then m.path.parent else directory
      [⟨base.join (.ofText path), modulePath, true⟩]
    | none => [
        ⟨directory.push (decl.name ++ ".rs"), modulePath, false⟩,
        ⟨(directory.push decl.name).push "mod.rs", modulePath, true⟩]

end ModuleFile

end ComponentRegistry
