/-! Settings of a generation. -/

namespace ComponentRegistry

/-- What to do with two names that have the same typed getter. -/
inductive CollisionPolicy where
  /-- Refuse the whole set. -/
  | reject
  /-- Give the getter to the later one. -/
  | shadow
  deriving DecidableEq, Repr

/-- What becomes of classifications that no current declaration needs. -/
inductive EvictionPolicy where
  | retain
  | evictStale
  deriving DecidableEq, Repr

structure Config where
  /-- What the names of the typed getters start with. -/
  accessorPrefix : String := "get_"
  artifactFile : String := "component_registry.rs"
  /-- The path of the library that the generated code uses. -/
  runtimePath : String := "::compreg_runtime"
  /-- The path that those of all component types start with. -/
  typeRoot : String := "crate"
  collision : CollisionPolicy := .reject
  eviction : EvictionPolicy := .evictStale
  deriving DecidableEq, Repr

end ComponentRegistry
