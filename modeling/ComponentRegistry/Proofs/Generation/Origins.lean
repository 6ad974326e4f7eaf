import ComponentRegistry.Proofs.Generation.Eviction

/-! Where the components of a session come from. What its cache remembers has been found out about a
declaration that the session has observed, so a pass over some declarations accepts only what stands in
one of these, or in an earlier one with the same fingerprint (`Session.accepted_run`). -/

namespace ComponentRegistry

namespace Cache

variable {cache : Cache} {observed : List Node}

/-- Whatever is remembered has been found out about one of these declarations. -/
def LearntFrom (cache : Cache) (observed : List Node) : Prop :=
  ∀ print found, cache.entries.get? print = some found →
    ∃ node ∈ observed, node.fingerprint = print ∧ node.descriptor? = found

theorem learntFrom_empty (observed : List Node) : empty.LearntFrom observed := by
  intro print found h
  simp [empty] at h

theorem LearntFrom.resolve (h : cache.LearntFrom observed) {node : Node} (hn : node ∈ observed) :
    (cache.resolve node).2.LearntFrom observed := by
  intro print found hf
  rw [get?_resolve] at hf
  split at hf
  next heq =>
    cases hknown : cache.entries.get? node.fingerprint with
    | none =>
      refine ⟨node, hn, heq.symm, ?_⟩
      simpa [hknown] using hf
    | some known =>
      have hsame : known = found := by simpa [hknown] using hf
      exact heq ▸ hsame ▸ h _ _ hknown
  next => exact h print found hf

theorem LearntFrom.retain (h : cache.LearntFrom observed) (keep : Fingerprint → Bool) :
    (cache.retain keep).2.LearntFrom observed := by
  intro print found hf
  rw [get?_retain, Option.filter_eq_some_iff] at hf
  exact h print found hf.1

end Cache

namespace Session

variable {s : Session} {observed nodes : List Node}

theorem learntFrom_foldl_observe (h : s.cache.LearntFrom observed) (hn : ∀ node ∈ nodes, node ∈ observed) :
    (nodes.foldl observe s).cache.LearntFrom observed := by
  induction nodes generalizing s with
  | nil => exact h
  | cons node nodes ih =>
    obtain ⟨hnode, hnodes⟩ := List.forall_mem_cons.mp hn
    exact ih (s := s.observe node) (h.resolve hnode) hnodes

theorem learntFrom_foldl_change {changes : List Change} (h : s.cache.LearntFrom observed)
    (hn : ∀ node ∈ changes.filterMap Change.node?, node ∈ observed) :
    (changes.foldl change s).cache.LearntFrom observed := by
  induction changes generalizing s with
  | nil => exact h
  | cons first changes ih =>
    cases first with
    | removed key => exact ih (s := s.change (.removed key)) h hn
    | added node | changed node =>
      obtain ⟨hnode, hnodes⟩ := List.forall_mem_cons.mp hn
      exact ih (s := s.observe node) (h.resolve hnode) hnodes

theorem learntFrom_call (h : s.cache.LearntFrom observed) {c : Call}
    (hn : ∀ node ∈ c.observed, node ∈ observed) : (s.call c).2.cache.LearntFrom observed := by
  have hcollecting : (s.collecting c).cache.LearntFrom observed := by
    cases c with
    | run nodes => exact learntFrom_foldl_observe (s := { s with snapshot := .empty }) h hn
    | apply changes => exact learntFrom_foldl_change h hn
  rw [call_eq, cache_finish, evict]
  split
  · exact hcollecting.retain _
  · exact hcollecting

theorem learntFrom_after (h : s.cache.LearntFrom observed) {calls : List Call}
    (hn : ∀ node ∈ calls.flatMap Call.observed, node ∈ observed) :
    (s.after calls).cache.LearntFrom observed := by
  induction calls generalizing s with
  | nil => exact h
  | cons c calls ih =>
    refine ih (s := (s.call c).2) (learntFrom_call h fun node hnode => ?_) fun node hnode => ?_
    · exact hn node (List.mem_flatMap.mpr ⟨c, List.mem_cons_self, hnode⟩)
    · obtain ⟨other, hother, hnode⟩ := List.mem_flatMap.mp hnode
      exact hn node (List.mem_flatMap.mpr ⟨other, List.mem_cons_of_mem _ hother, hnode⟩)

theorem after_append (s : Session) (calls : List Call) (c : Call) :
    s.after (calls ++ [c]) = ((s.after calls).call c).2 := by
  rw [after, List.foldl_append]
  rfl

/-- A pass over some declarations accepts what has been found out about a declaration with the
fingerprint of one of them. -/
theorem accepted_run (config : Config) (calls : List Call) (nodes : List Node) {d : Descriptor}
    (h : d ∈ ((start config).after (calls ++ [.run nodes])).accepted.members) :
    ∃ node ∈ nodes, ∃ known ∈ calls.flatMap Call.observed ++ nodes,
      known.fingerprint = node.fingerprint ∧ known.descriptor? = some d := by
  have hlearnt : ((start config).after (calls ++ [.run nodes])).cache.LearntFrom
      (calls.flatMap Call.observed ++ nodes) :=
    learntFrom_after (Cache.learntFrom_empty _) fun node hnode => by
      simpa [Call.observed] using hnode
  obtain ⟨print, hprint, hlookup⟩ :=
    List.mem_filterMap.mp ((AcceptedSet.lastOfEach_sublist _).subset h)
  have hknown := Option.join_eq_some_iff.mp hlookup
  rw [after_append] at hprint
  obtain ⟨key, hkey⟩ := SortedMap.mem_values_iff.mp hprint
  rw [call, snapshot_run] at hkey
  have hentry := (SortedMap.mem_of_get?_insertAll hkey).resolve_left (by simp)
  obtain ⟨node, hnode, heq⟩ := List.mem_map.mp hentry
  obtain ⟨known, hmem, hprint, hd⟩ := hlearnt print (some d) hknown
  exact ⟨node, hnode, known, hmem, hprint.trans (Prod.mk.inj heq).2.symm, hd⟩

end Session

end ComponentRegistry
