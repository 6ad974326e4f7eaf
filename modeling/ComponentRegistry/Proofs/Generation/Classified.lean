import ComponentRegistry.Proofs.Generation.Requests
import Mathlib.Data.Finset.Card

/-! What a pass costs. A session asks its cache to resolve what it observes and to drop what is no longer
current, so a pass classifies one declaration for each fingerprint that is new to the cache, the first one
that comes up (`Session.pass_classifies_new`). -/

namespace ComponentRegistry

/-- The fingerprints of some declarations. -/
def prints (nodes : List Node) : Finset Fingerprint := (nodes.map Node.fingerprint).toFinset

namespace Cache

variable {cache : Cache} {nodes : List Node} {node : Node} {print : Fingerprint}

/-- The fingerprints that something is remembered of. -/
def known (cache : Cache) : Finset Fingerprint := cache.entries.keys.toFinset

theorem mem_known : print ∈ cache.known ↔ cache.contains print = true := by
  rw [known, List.mem_toFinset, SortedMap.mem_keys_iff, contains]

theorem card_known (cache : Cache) : cache.known.card = cache.size := by
  rw [known, List.toFinset_card_of_nodup cache.entries.nodup_keys, SortedMap.keys, List.length_map]
  rfl

/-- Requests to resolve declarations, one after another. -/
def resolving (nodes : List Node) : List Request := nodes.map .resolve

theorem resolved_resolving (nodes : List Node) : resolved (resolving nodes) = nodes := by
  rw [resolved, resolving, List.filterMap_map]
  exact List.filterMap_some

/-- The declarations that are classified when these are resolved. -/
def classified (cache : Cache) (nodes : List Node) : List Node := cache.missed (resolving nodes)

theorem classified_cons (cache : Cache) (node : Node) (nodes : List Node) :
    cache.classified (node :: nodes) =
      if cache.contains node.fingerprint then (cache.resolve node).2.classified nodes
      else node :: (cache.resolve node).2.classified nodes := by
  change (cache.missed? (.resolve node)).toList ++ (cache.resolve node).2.classified nodes = _
  rw [missed?]
  split <;> rfl

/-- The fingerprints of these are new. -/
theorem mem_classified_iff : print ∈ (cache.classified nodes).map Node.fingerprint ↔
    print ∈ nodes.map Node.fingerprint ∧ ¬cache.contains print = true := by
  induction nodes generalizing cache with
  | nil => simp [classified, resolving, missed]
  | cons node nodes ih =>
    rw [classified_cons]
    split
    next hknown =>
      rw [ih, contains_resolve, List.map_cons, List.mem_cons]
      constructor
      · rintro ⟨hmem, hnew⟩
        exact ⟨.inr hmem, fun hprint => hnew (.inl hprint)⟩
      · rintro ⟨rfl | hmem, hnew⟩
        · exact absurd hknown hnew
        · exact ⟨hmem, fun hprint => hnew (hprint.resolve_right fun heq => hnew (heq ▸ hknown))⟩
    next hnew =>
      rw [List.map_cons, List.mem_cons, ih, contains_resolve, List.map_cons, List.mem_cons]
      constructor
      · rintro (rfl | ⟨hmem, hprint⟩)
        · exact ⟨.inl rfl, hnew⟩
        · exact ⟨.inr hmem, fun h => hprint (.inl h)⟩
      · rintro ⟨hmem, hprint⟩
        by_cases heq : print = node.fingerprint
        · exact .inl heq
        · exact .inr ⟨hmem.resolve_left heq, fun h => h.elim hprint fun h => heq h.symm⟩

/-- No two of them have the same fingerprint. -/
theorem nodup_classified (cache : Cache) (nodes : List Node) :
    ((cache.classified nodes).map Node.fingerprint).Nodup := by
  induction nodes generalizing cache with
  | nil => exact .nil
  | cons node nodes ih =>
    rw [classified_cons]
    split
    · exact ih _
    · refine List.nodup_cons.mpr ⟨fun hmem => ?_, ih _⟩
      exact (mem_classified_iff.mp hmem).2 ((contains_resolve _ _ _).mpr (.inr rfl))

/-- Each of them is the first one with its fingerprint. -/
theorem find?_of_mem_classified (h : node ∈ cache.classified nodes) :
    nodes.find? (·.fingerprint == node.fingerprint) = some node := by
  induction nodes generalizing cache with
  | nil => cases h
  | cons first nodes ih =>
    rw [classified_cons] at h
    have hlater : node ∈ (cache.resolve first).2.classified nodes →
        (first :: nodes).find? (·.fingerprint == node.fingerprint) = some node := by
      intro hmem
      have hnew := (mem_classified_iff.mp (List.mem_map_of_mem (f := Node.fingerprint) hmem)).2
      have hne : first.fingerprint ≠ node.fingerprint := fun heq =>
        hnew ((contains_resolve _ _ _).mpr (.inr heq))
      rw [List.find?_cons_of_neg (by simpa using hne), ih hmem]
    split at h
    · exact hlater h
    · rcases List.mem_cons.mp h with rfl | hmem
      · exact List.find?_cons_of_pos (by simp)
      · exact hlater hmem

/-- The fingerprints of some declarations that a cache does not know. -/
def fresh (cache : Cache) (nodes : List Node) : Finset Fingerprint := prints nodes \ cache.known

theorem fresh_eq (cache : Cache) (nodes : List Node) :
    cache.fresh nodes = ((cache.classified nodes).map Node.fingerprint).toFinset := by
  ext print
  rw [fresh, prints, Finset.mem_sdiff, List.mem_toFinset, List.mem_toFinset, mem_classified_iff,
    mem_known]

theorem card_fresh (cache : Cache) (nodes : List Node) :
    (cache.fresh nodes).card = (cache.classified nodes).length := by
  rw [fresh_eq, List.toFinset_card_of_nodup (cache.nodup_classified nodes), List.length_map]

/-- The fingerprint is that of a component where it comes up first. -/
def marksFirst (nodes : List Node) (print : Fingerprint) : Bool :=
  (nodes.find? (·.fingerprint == print)).any Node.isMarked

theorem card_filter_fresh (cache : Cache) (nodes : List Node) :
    ((cache.fresh nodes).filter (marksFirst nodes ·)).card =
      (cache.classified nodes).countP Node.isMarked := by
  have hnodup := cache.nodup_classified nodes
  rw [fresh_eq, ← List.toFinset_filter, List.toFinset_card_of_nodup (hnodup.filter _),
    List.filter_map, List.length_map, ← List.countP_eq_length_filter]
  refine List.countP_congr fun node hnode => ?_
  rw [Function.comp_apply, marksFirst, find?_of_mem_classified hnode]
  rfl

/-- To resolve declarations drops nothing. -/
theorem evicted_resolving (cache : Cache) (nodes : List Node) :
    (cache.after (resolving nodes)).stats.evicted = cache.stats.evicted := by
  induction nodes generalizing cache with
  | nil => rfl
  | cons node nodes ih =>
    have hnode : (cache.resolve node).2.stats.evicted = cache.stats.evicted := by
      rw [resolve]
      split <;> rfl
    exact (ih (cache.resolve node).2).trans hnode

end Cache

namespace Session

variable {s : Session} {c : Call} {node : Node}

/-- What a session asks its cache at the end of a pass. -/
def evictions (s : Session) : List Cache.Request :=
  match s.config.eviction with
  | .evictStale => [.retain s.isLive]
  | .retain => []

theorem cache_evict (s : Session) : s.evict.cache = s.cache.after s.evictions := by
  rw [evict, evictions]
  cases s.config.eviction <;> rfl

theorem cache_foldl_observe (s : Session) (nodes : List Node) :
    (nodes.foldl observe s).cache = s.cache.after (Cache.resolving nodes) := by
  induction nodes generalizing s with
  | nil => rfl
  | cons node nodes ih => exact ih (s.observe node)

theorem cache_foldl_change (s : Session) (changes : List Change) :
    (changes.foldl change s).cache =
      s.cache.after (Cache.resolving (changes.filterMap Change.node?)) := by
  induction changes generalizing s with
  | nil => rfl
  | cons first changes ih =>
    cases first with
    | added node | changed node => exact ih (s.observe node)
    | removed key => exact ih (s.change (.removed key))

theorem cache_collecting (s : Session) (c : Call) :
    (s.collecting c).cache = s.cache.after (Cache.resolving c.observed) := by
  cases c with
  | run nodes => exact cache_foldl_observe _ nodes
  | apply changes => exact cache_foldl_change s changes

/-- A pass is nothing but requests to the cache. -/
theorem cache_call (s : Session) (c : Call) : (s.call c).2.cache =
    s.cache.after (Cache.resolving c.observed ++ (s.collecting c).evictions) := by
  rw [call_eq, cache_finish, cache_evict, cache_collecting, Cache.after_append]

theorem spent_call (s : Session) (c : Call) :
    s.cache.Spent (Cache.resolving c.observed ++ (s.collecting c).evictions) := s.cache.spent _

theorem missed_evictions (s : Session) (cache : Cache) : cache.missed s.evictions = [] := by
  unfold evictions
  split <;> rfl

theorem resolved_evictions (s : Session) : Cache.resolved s.evictions = [] := by
  unfold evictions
  split <;> rfl

/-- After a pass with eviction as much is remembered as is current. -/
theorem InStep.size_call (h : s.InStep) (hevict : s.config.eviction = .evictStale) (c : Call) :
    (s.call c).2.cache.size = (s.call c).2.snapshot.size := by
  have hstep := h.call c
  refine hstep.size_eq fun print => ?_
  rw [SortedMap.mem_values_iff]
  constructor
  · intro hprint
    rw [contains_call, hevict] at hprint
    exact ⟨print.key, isLive_iff.mp (hprint.2.resolve_left nofun)⟩
  · rintro ⟨key, hkey⟩
    exact hstep.remembered key print hkey

/-- What a call adds to the counts of a session: each fingerprint that is new costs one
classification, all else is found, and what is not current at the end is dropped. -/
structure Costs (s : Session) (c : Call) (s' : Session) : Prop where
  misses : s'.cache.stats.misses = s.cache.stats.misses + (s.cache.fresh c.observed).card
  predicateCalls : s'.cache.stats.predicateCalls =
    s.cache.stats.predicateCalls + (s.cache.fresh c.observed).card
  hits : s'.cache.stats.hits + (s.cache.fresh c.observed).card =
    s.cache.stats.hits + c.observed.length
  extractCalls : s'.cache.stats.extractCalls = s.cache.stats.extractCalls +
    ((s.cache.fresh c.observed).filter (Cache.marksFirst c.observed ·)).card
  evicted_stale : s.config.eviction = .evictStale → s'.cache.stats.evicted + s'.snapshot.size =
    s.cache.stats.evicted + (s.cache.known ∪ prints c.observed).card
  evicted_retain : s.config.eviction = .retain → s'.cache.stats.evicted = s.cache.stats.evicted

theorem InStep.costs (h : s.InStep) (c : Call) : s.Costs c (s.call c).2 := by
  obtain ⟨hpredicate, hmisses, hextract, hhits, hsize⟩ := s.spent_call c
  rw [← cache_call] at hpredicate hmisses hextract hhits hsize
  rw [Cache.missed_append, missed_evictions, List.append_nil] at hpredicate hmisses hextract hhits hsize
  rw [Cache.resolved_append, resolved_evictions, List.append_nil, Cache.resolved_resolving] at hhits
  have hfresh := s.cache.card_fresh c.observed
  have hmarked := s.cache.card_filter_fresh c.observed
  rw [Cache.classified] at hfresh hmarked
  rw [← hfresh] at hpredicate hmisses hhits hsize
  rw [← hmarked] at hextract
  refine ⟨hmisses, hpredicate, hhits, hextract, fun hevict => ?_, fun hretain => ?_⟩
  · have hunion := Finset.card_sdiff_add_card (prints c.observed) s.cache.known
    rw [Finset.union_comm, ← Cache.fresh, Cache.card_known] at hunion
    rw [h.size_call hevict] at hsize
    omega
  · have hnone : (s.collecting c).evictions = [] := by
      rw [evictions, config_collecting, hretain]
    rw [cache_call, hnone, List.append_nil, Cache.evicted_resolving]

/-! Histories. -/

/-- The declarations that some calls classify, one after another. -/
def classified (s : Session) : List Call → List Node
  | [] => []
  | c :: calls => s.cache.classified c.observed ++ (s.call c).2.classified calls

/-- No call classifies what is current. -/
theorem InStep.not_classified (h : s.InStep) (hlive : s.isLive node.fingerprint = true) (c : Call) :
    node.fingerprint ∉ (s.classified [c]).map Node.fingerprint := by
  rw [classified, classified, List.append_nil, Cache.mem_classified_iff]
  exact fun hmem => hmem.2 (h.remembered _ _ (isLive_iff.mp hlive))

/-- A session classifies as often as it says. -/
theorem InStep.predicateCalls_after (h : s.InStep) (calls : List Call) :
    (s.after calls).cache.stats.predicateCalls =
      s.cache.stats.predicateCalls + (s.classified calls).length := by
  induction calls generalizing s with
  | nil => rfl
  | cons c calls ih =>
    have hfirst := (h.costs c).predicateCalls
    rw [Cache.card_fresh] at hfirst
    rw [classified, List.length_append, ← Nat.add_assoc, ← hfirst]
    exact ih (h.call c)

/-- Without eviction nothing is classified twice, and nothing that is remembered. -/
theorem nodup_classified_of_retain (hretain : s.config.eviction = .retain) (calls : List Call) :
    ((s.classified calls).map Node.fingerprint).Nodup ∧
    ∀ print ∈ (s.classified calls).map Node.fingerprint, ¬s.cache.contains print = true := by
  induction calls generalizing s with
  | nil => exact ⟨.nil, nofun⟩
  | cons c calls ih =>
    obtain ⟨hnodup, hnew⟩ := ih (s := (s.call c).2) (by rwa [config_call])
    have hnext : ∀ print, (s.call c).2.cache.contains print = true ↔
        s.cache.contains print = true ∨ ∃ node ∈ c.observed, node.fingerprint = print := by
      intro print
      rw [contains_call, hretain]
      simp
    rw [classified, List.map_append]
    refine ⟨(s.cache.nodup_classified c.observed).append hnodup fun print hfirst hlater => ?_,
      fun print hprint => ?_⟩
    · refine hnew print hlater ((hnext print).mpr (.inr ?_))
      exact List.mem_map.mp (Cache.mem_classified_iff.mp hfirst).1
    · rcases List.mem_append.mp hprint with hprint | hprint
      · exact (Cache.mem_classified_iff.mp hprint).2
      · exact fun hknown => hnew print hprint ((hnext print).mpr (.inl hknown))

/-- After any calls, failed ones included, and whatever the digests are: the next call, whatever it
observes, costs what `Costs` says. So nothing that is current is classified again, a single change costs
one classification at most, and a session that does not evict classifies no fingerprint twice. -/
theorem pass_classifies_new (config : Config) (calls : List Call) :
    let s := (start config).after calls
    (∀ c, s.Costs c (s.call c).2) ∧
    (∀ c (node : Node), s.isLive node.fingerprint = true →
      node.fingerprint ∉ (s.classified [c]).map Node.fingerprint) ∧
    (∀ node, (s.apply [.changed node]).2.cache.stats.predicateCalls ≤
      s.cache.stats.predicateCalls + 1) ∧
    s.cache.stats.predicateCalls = ((start config).classified calls).length ∧
    (config.eviction = .retain → (((start config).classified calls).map Node.fingerprint).Nodup) := by
  intro s
  have hstart : (start config).InStep := inStep_start config
  have hstep : s.InStep := hstart.after calls
  refine ⟨hstep.costs, fun c node hlive => hstep.not_classified hlive c, fun node => ?_, ?_,
    fun hretain => (nodup_classified_of_retain hretain calls).1⟩
  · have hcosts := hstep.costs (.apply [.changed node])
    have hone : (s.cache.fresh [node]).card ≤ 1 := by
      refine (Finset.card_le_card Finset.sdiff_subset).trans ?_
      exact (List.toFinset_card_le _).trans (Nat.le_refl 1)
    have hpredicate : (s.apply [.changed node]).2.cache.stats.predicateCalls =
        s.cache.stats.predicateCalls + (s.cache.fresh [node]).card := hcosts.predicateCalls
    omega
  · exact (hstart.predicateCalls_after calls).trans (Nat.zero_add _)

/-- A component that is there, one that is given twice with other attributes, and the first one again. -/
def givenTwice : List Node :=
  let edited : Node := ⟨⟨"lib.rs", 0⟩, [], "#[Component]#[doc]struct A;"⟩
  [⟨⟨"lib.rs", 1⟩, [], "struct B;"⟩, edited, edited, ⟨⟨"lib.rs", 0⟩, [], "#[Component]struct A;"⟩]

theorem pass_classifies_givenTwice :
    let first : Call := .run [⟨⟨"lib.rs", 0⟩, [], "#[Component]struct A;"⟩]
    let s := (start {}).after [first]
    let kept := start { eviction := .retain }
    s.Costs (.run givenTwice) (s.call (.run givenTwice)).2 ∧
    (s.call (.run givenTwice)).2.cache.stats =
      { predicateCalls := 3, extractCalls := 2, hits := 2, misses := 3, evicted := 1 } ∧
    (∀ node ∈ first.observed, s.isLive node.fingerprint = true ∧
      node.fingerprint ∉ (s.classified [.run givenTwice]).map Node.fingerprint) ∧
    ((kept.classified [first, .run givenTwice, first]).map Node.fingerprint).Nodup := by
  intro first s kept
  obtain ⟨hcosts, hlive, -⟩ := pass_classifies_new {} [first]
  obtain ⟨-, -, -, -, hretain⟩ :=
    pass_classifies_new { eviction := .retain } [first, .run givenTwice, first]
  have hcurrent : ∀ node ∈ first.observed, s.isLive node.fingerprint = true := by decide +kernel
  exact ⟨hcosts _, by decide +kernel, fun node hnode => ⟨hcurrent node hnode, hlive _ node
    (hcurrent node hnode)⟩, hretain rfl⟩

end Session

end ComponentRegistry
