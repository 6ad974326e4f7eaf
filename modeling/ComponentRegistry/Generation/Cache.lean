import ComponentRegistry.Declaration.Descriptor

/-! Classifications that are remembered by fingerprint. That a declaration is not marked is
remembered, too. Dropping a classification only means that it has to be found again. -/

namespace ComponentRegistry

/-- Counts of the work that was done and avoided. -/
structure CacheStats where
  predicateCalls : Nat := 0
  extractCalls : Nat := 0
  hits : Nat := 0
  misses : Nat := 0
  evicted : Nat := 0
  deriving DecidableEq, Repr

/-- The counts after one more classification. -/
def CacheStats.miss (stats : CacheStats) (marked : Bool) : CacheStats :=
  { stats with
    predicateCalls := stats.predicateCalls + 1
    extractCalls := if marked then stats.extractCalls + 1 else stats.extractCalls
    misses := stats.misses + 1 }

structure Cache where
  entries : SortedMap Fingerprint (Option Descriptor)
  stats : CacheStats
  deriving DecidableEq

namespace Cache

def empty : Cache := ⟨.empty, {}⟩

def size (cache : Cache) : Nat := cache.entries.size

/-- What is remembered of a fingerprint; nothing, too, if it is remembered as not marked. -/
def lookup (cache : Cache) (print : Fingerprint) : Option Descriptor :=
  (cache.entries.get? print).join

def contains (cache : Cache) (print : Fingerprint) : Bool := cache.entries.contains print

/-- The description of a declaration, which is classified only if its fingerprint is new. -/
def resolve (cache : Cache) (node : Node) : Option Descriptor × Cache :=
  match cache.entries.get? node.fingerprint with
  | some found => (found, { cache with stats.hits := cache.stats.hits + 1 })
  | none =>
    let found := if node.isMarked then node.descriptor? else none
    (found, ⟨cache.entries.insert node.fingerprint found,
      cache.stats.miss node.isMarked⟩)

/-- Drop what `keep` does not hold of, and count it. -/
def retain (cache : Cache) (keep : Fingerprint → Bool) : Nat × Cache :=
  let entries := cache.entries.filter fun print _ => keep print
  let dropped := cache.entries.size - entries.size
  (dropped, ⟨entries, { cache.stats with evicted := cache.stats.evicted + dropped }⟩)

end Cache

end ComponentRegistry
