import ComponentRegistry.Proofs.Generation.Eviction

/-! A pass over the declarations of the last one. All of them are still remembered, so nothing is
classified anew and the pass finds what the last one has committed (`Session.run_again`). -/

namespace ComponentRegistry

namespace Session

/-- The second of two passes has classified nothing, and has found nothing new if the first one has
been successful. -/
structure Repeats (first second : Except GenerateError Output × Session) : Prop where
  predicateCalls : second.2.cache.stats.predicateCalls = first.2.cache.stats.predicateCalls
  extractCalls : second.2.cache.stats.extractCalls = first.2.cache.stats.extractCalls
  unchanged : ∀ output, first.1 = .ok output → second.1 = .ok .unchanged

variable {s : Session} {nodes : List Node}

/-- The session when it has found as many declarations remembered. -/
def recount (s : Session) (hits : Nat) : Session := { s with cache.stats.hits := hits }

theorem descriptors_evict_recount (s : Session) (hits : Nat) :
    (s.recount hits).evict.descriptors = s.evict.descriptors := by
  have hconfig : (s.recount hits).config = s.config := rfl
  rw [evict, evict, hconfig]
  cases s.config.eviction <;> rfl

/-- Declarations that are remembered are only counted. -/
theorem foldl_observe_remembered
    (h : ∀ node ∈ nodes, s.cache.contains node.fingerprint = true) : ∃ hits,
    nodes.foldl observe s = { s.recount hits with
      snapshot := s.snapshot.insertAll (nodes.map fun node => (node.key, node.fingerprint)) } := by
  induction nodes generalizing s with
  | nil => exact ⟨s.cache.stats.hits, rfl⟩
  | cons node nodes ih =>
    obtain ⟨hnode, hnodes⟩ := List.forall_mem_cons.mp h
    obtain ⟨found, hfound⟩ := Option.isSome_iff_exists.mp hnode
    have hobserve : s.observe node = { s.recount (s.cache.stats.hits + 1) with
        snapshot := s.snapshot.insert node.key node.fingerprint } := by
      rw [observe, Cache.resolve_of_some hfound]
      rfl
    obtain ⟨hits, hrest⟩ := ih (s := s.observe node) fun other hother => by
      rw [hobserve]
      exact hnodes other hother
    refine ⟨hits, ?_⟩
    rw [List.foldl_cons, hrest, hobserve]
    rfl

theorem calls_finish (s : Session) :
    s.finish.2.cache.stats.predicateCalls = s.cache.stats.predicateCalls ∧
    s.finish.2.cache.stats.extractCalls = s.cache.stats.extractCalls := by
  rw [cache_finish, evict]
  split <;> exact ⟨rfl, rfl⟩

/-- What is current after a pass is what the next one would collect without changes. -/
theorem descriptors_finish (s : Session) : s.finish.2.evict.descriptors = s.finish.2.descriptors := by
  have hended : ∃ committed, s.finish.2 = s.ended committed := by
    rw [finish_eq]
    split
    next => exact ⟨_, rfl⟩
    next => exact ⟨_, rfl⟩
  obtain ⟨committed, hended⟩ := hended
  rw [hended, evict_ended]
  rfl

/-- What a successful pass has committed is what it has collected. -/
theorem committed_of_ok {s' : Session} {output : Output} (h : s.Ends s' (.ok output)) :
    s'.committed = some s'.accepted := by
  cases h with
  | unchanged hsame hcommitted => rw [hcommitted, hsame]
  | suppressed _ hcommitted => exact hcommitted
  | emitted _ hcommitted => exact hcommitted

/-- When the same declarations with different keys are given again, nothing is classified, and nothing
has changed since the pass before if that one has been successful. -/
theorem run_again (s : Session) (hkeys : (nodes.map Node.key).Nodup) :
    Repeats (s.run nodes) ((s.run nodes).2.run nodes) := by
  have hsnapshot := snapshot_run s nodes
  have hremembered : ∀ node ∈ nodes, (s.run nodes).2.cache.contains node.fingerprint = true := by
    intro node hnode
    refine (contains_call s (.run nodes) node.fingerprint).mpr ⟨.inr ⟨node, hnode, rfl⟩, .inr ?_⟩
    refine isLive_iff.mpr ?_
    change (s.run nodes).2.snapshot.get? node.key = some node.fingerprint
    rw [hsnapshot]
    refine SortedMap.get?_insertAll (e := (node.key, node.fingerprint)) ?_ (List.mem_map_of_mem hnode)
    rwa [List.map_map]
  have hdescriptors := descriptors_finish (s.collecting (.run nodes))
  have hends := call_ends s (.run nodes)
  change s.Ends (s.run nodes).2 (s.run nodes).1 at hends
  change (s.run nodes).2.evict.descriptors = (s.run nodes).2.descriptors at hdescriptors
  generalize s.run nodes = first at hsnapshot hremembered hdescriptors hends ⊢
  obtain ⟨result, t⟩ := first
  obtain ⟨hits, hagain⟩ := foldl_observe_remembered (s := { t with snapshot := .empty }) hremembered
  have hrun : t.run nodes = (t.recount hits).finish := by
    rw [run, hagain, ← hsnapshot]
    rfl
  obtain ⟨hpredicate, hextract⟩ := calls_finish (t.recount hits)
  refine ⟨by rw [hrun, hpredicate]; rfl, by rw [hrun, hextract]; rfl, ?_⟩
  rintro output rfl
  have hcommitted := committed_of_ok hends
  have hsame : (t.recount hits).committed =
      some (.collect (t.recount hits).evict.descriptors) := by
    rw [descriptors_evict_recount, hdescriptors]
    exact hcommitted
  rw [hrun, finish_of_eq hsame]

end Session

end ComponentRegistry
