import ComponentRegistry.Generation.Artifact
import ComponentRegistry.Generation.Cache

/-! Sessions: passes over the declarations of a crate, each of which looks only at what has changed.
A pass that fails commits nothing, so it fails again when it is repeated. -/

namespace ComponentRegistry

/-- What a successful pass comes to. -/
inductive Output where
  /-- The set of components has changed; this is the new registry. -/
  | emitted (artifact : Artifact)
  /-- The set is the one that was committed last. -/
  | unchanged
  /-- There are no components any more. -/
  | suppressed
  deriving DecidableEq, Repr

def Output.artifact? : Output → Option Artifact
  | emitted artifact => some artifact
  | unchanged => none
  | suppressed => none

structure Session where
  config : Config
  /-- The declarations that there are now. -/
  snapshot : SortedMap NodeKey Fingerprint
  cache : Cache
  /-- The set of the last successful pass. -/
  committed : Option AcceptedSet
  /-- The number of passes, failed ones included. -/
  passes : Nat

namespace Session

def start (config : Config) : Session := ⟨config, .empty, .empty, none, 0⟩

/-- Classify a declaration and put it into the snapshot. -/
def observe (s : Session) (node : Node) : Session :=
  { s with
    snapshot := s.snapshot.insert node.key node.fingerprint
    cache := (s.cache.resolve node).2 }

def change (s : Session) : Change → Session
  | .added node => s.observe node
  | .changed node => s.observe node
  | .removed key => { s with snapshot := s.snapshot.erase key }

/-- The fingerprint is that of a current declaration. -/
def isLive (s : Session) (print : Fingerprint) : Bool :=
  s.snapshot.get? print.key == some print

def evict (s : Session) : Session :=
  match s.config.eviction with
  | .evictStale => { s with cache := (s.cache.retain s.isLive).2 }
  | .retain => s

/-- What is known of the current components, in the order of the sources. -/
def descriptors (s : Session) : List Descriptor := s.snapshot.values.filterMap s.cache.lookup

/-- What a pass comes to that last committed `committed` and has collected `ds`, and what it commits
now. -/
def outcome (config : Config) (committed : Option AcceptedSet) (ds : List Descriptor) :
    Except GenerateError (Output × Option AcceptedSet) :=
  match Aggregate.ofDescriptors committed ds with
  | .unchanged _ => .ok (.unchanged, committed)
  | .changed set =>
    match Artifact.emit set config with
    | .error e => .error e
    | .ok none => .ok (.suppressed, some set)
    | .ok (some artifact) => .ok (.emitted artifact, some set)

/-- The end of a pass, when all changes are known. -/
def finish (s : Session) : Except GenerateError Output × Session :=
  let s := { s.evict with passes := s.passes + 1 }
  match outcome s.config s.committed s.descriptors with
  | .ok (output, committed) => (.ok output, { s with committed })
  | .error e => (.error e, s)

/-- A pass over all declarations; those that are not given are gone. Of two in the same place the
later one counts. -/
def run (s : Session) (nodes : List Node) : Except GenerateError Output × Session :=
  (nodes.foldl observe { s with snapshot := .empty }).finish

/-- A pass over changes to the current declarations. -/
def apply (s : Session) (changes : List Change) : Except GenerateError Output × Session :=
  (changes.foldl change s).finish

end Session

end ComponentRegistry
