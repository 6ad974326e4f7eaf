import ComponentRegistry.Declaration.Descriptor

/-! The components of a crate. Of two with the same name the later one counts, in its own place. -/

namespace ComponentRegistry

/-- Descriptions of components with different names, in the order of the sources. -/
structure AcceptedSet where
  members : List Descriptor
  distinct : (members.map Descriptor.name).Nodup
  deriving DecidableEq

namespace AcceptedSet

/-- Keep the last description of every name. -/
def lastOfEach : List Descriptor → List Descriptor
  | [] => []
  | d :: rest => if rest.any (·.name == d.name) then lastOfEach rest else d :: lastOfEach rest

theorem lastOfEach_sublist (ds : List Descriptor) : (lastOfEach ds).Sublist ds := by
  induction ds with
  | nil => exact .slnil
  | cons d rest ih =>
    unfold lastOfEach
    split
    · exact ih.cons d
    · exact ih.cons_cons d

theorem lastOfEach_distinct (ds : List Descriptor) :
    ((lastOfEach ds).map Descriptor.name).Nodup := by
  induction ds with
  | nil => simp [lastOfEach]
  | cons d rest ih =>
    unfold lastOfEach
    split
    · exact ih
    · rename_i h
      refine List.nodup_cons.mpr ⟨fun hd => h ?_, ih⟩
      obtain ⟨e, he, hname⟩ := List.mem_map.mp hd
      exact List.any_eq_true.mpr ⟨e, (lastOfEach_sublist rest).subset he, by simp [hname]⟩

/-- The set of descriptions that come in the order of the sources. -/
def collect (ds : List Descriptor) : AcceptedSet := ⟨lastOfEach ds, lastOfEach_distinct ds⟩

def names (set : AcceptedSet) : List String := set.members.map Descriptor.name

def isEmpty (set : AcceptedSet) : Bool := set.members.isEmpty

def size (set : AcceptedSet) : Nat := set.members.length

end AcceptedSet

/-- How a collected set compares with the one that was last committed. -/
inductive Aggregate where
  | changed (set : AcceptedSet)
  /-- Equal to the committed set, and given as that very one. -/
  | unchanged (committed : AcceptedSet)
  deriving DecidableEq

namespace Aggregate

def ofDescriptors (committed : Option AcceptedSet) (ds : List Descriptor) : Aggregate :=
  if committed = some (.collect ds) then .unchanged (.collect ds) else .changed (.collect ds)

def isChanged : Aggregate → Bool
  | changed _ => true
  | unchanged _ => false

def set : Aggregate → AcceptedSet
  | changed set => set
  | unchanged committed => committed

end Aggregate

end ComponentRegistry
