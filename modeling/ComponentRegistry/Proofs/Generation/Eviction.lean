import ComponentRegistry.Proofs.Generation.Published
import Mathlib.Data.List.Nodup

/-! What a session remembers. Snapshot and cache stay in step (`Session.snapshot_in_step`): what is
current is remembered, and eviction leaves nothing else, whatever the digests are. Two sessions that
differ only in what they evict are then compared: as long as no two declarations are taken for the
same one, they give the same results, and the one that keeps everything does no more work
(`Session.eviction_spares_memory`). The invariants are `Session.InStep` and `Session.Outlasts`. -/

namespace ComponentRegistry

namespace Cache

theorem contains_resolve (cache : Cache) (node : Node) (print : Fingerprint) :
    (cache.resolve node).2.contains print = true ↔
      cache.contains print = true ∨ node.fingerprint = print := by
  rw [contains, SortedMap.contains, get?_resolve]
  split
  next heq => simp [heq]
  next hne => simp [contains, SortedMap.contains, Ne.symm hne]

theorem contains_retain (cache : Cache) (keep : Fingerprint → Bool) (print : Fingerprint) :
    (cache.retain keep).2.contains print = true ↔
      cache.contains print = true ∧ keep print = true := by
  rw [contains, SortedMap.contains, get?_retain, contains, SortedMap.contains]
  cases cache.entries.get? print <;> cases keep print <;> simp [Option.filter]

end Cache

namespace Session

variable {s : Session} {config : Config} {c : Call}

theorem isLive_iff {print : Fingerprint} :
    s.isLive print = true ↔ s.snapshot.get? print.key = some print := by
  simp [isLive]

/-- What is current stands under its own key, and is remembered. -/
structure InStep (s : Session) : Prop where
  own : ∀ key print, s.snapshot.get? key = some print → print.key = key
  remembered : ∀ key print, s.snapshot.get? key = some print → s.cache.contains print = true

theorem inStep_start (config : Config) : (start config).InStep where
  own key print h := by simp [start] at h
  remembered key print h := by simp [start] at h

theorem inStep_clear (s : Session) : InStep { s with snapshot := .empty } where
  own key print hk := by simp at hk
  remembered key print hk := by simp at hk

theorem InStep.observe (h : s.InStep) (node : Node) : (s.observe node).InStep where
  own key print hk := by
    rw [Session.observe, SortedMap.get?_insert] at hk
    split at hk
    next heq =>
      obtain rfl := Option.some.inj hk
      exact heq.symm
    next => exact h.own key print hk
  remembered key print hk := by
    rw [Session.observe, SortedMap.get?_insert] at hk
    apply (Cache.contains_resolve _ _ _).mpr
    split at hk
    next => exact .inr (Option.some.inj hk)
    next => exact .inl (h.remembered key print hk)

theorem InStep.change (h : s.InStep) (change : Change) : (s.change change).InStep := by
  cases change with
  | added node => exact h.observe node
  | changed node => exact h.observe node
  | removed key =>
    have hkept : ∀ other print, (s.snapshot.erase key).get? other = some print →
        s.snapshot.get? other = some print := by
      intro other print hk
      rw [SortedMap.get?_erase] at hk
      split at hk
      · cases hk
      · exact hk
    exact ⟨fun other print hk => h.own other print (hkept other print hk),
      fun other print hk => h.remembered other print (hkept other print hk)⟩

theorem InStep.collecting (h : s.InStep) (c : Call) : (s.collecting c).InStep := by
  cases c with
  | run nodes =>
    have hrun : ∀ {s : Session}, s.InStep → (nodes.foldl Session.observe s).InStep := by
      induction nodes with
      | nil => exact id
      | cons node nodes ih => exact fun h => ih (h.observe node)
    exact hrun (inStep_clear s)
  | apply changes =>
    change (changes.foldl Session.change s).InStep
    induction changes generalizing s with
    | nil => exact h
    | cons change changes ih => exact ih (h.change change)

theorem snapshot_evict (s : Session) : s.evict.snapshot = s.snapshot := by
  unfold evict
  split <;> rfl

/-- Eviction spares what is current, and with the default policy nothing else. -/
theorem contains_evict (s : Session) (print : Fingerprint) :
    s.evict.cache.contains print = true ↔
      s.cache.contains print = true ∧ (s.config.eviction = .retain ∨ s.isLive print = true) := by
  unfold evict
  cases s.config.eviction with
  | retain => simp
  | evictStale => simp [Cache.contains_retain]

theorem InStep.evict (h : s.InStep) : s.evict.InStep where
  own := by
    rw [snapshot_evict]
    exact h.own
  remembered key print hk := by
    rw [snapshot_evict] at hk
    apply (contains_evict s print).mpr
    refine ⟨h.remembered key print hk, .inr (isLive_iff.mpr ?_)⟩
    rwa [h.own key print hk]

theorem snapshot_finish (s : Session) : s.finish.2.snapshot = s.snapshot := by
  rw [finish_eq]
  split <;> exact snapshot_evict s

theorem snapshot_foldl_observe (s : Session) (nodes : List Node) :
    (nodes.foldl observe s).snapshot =
      s.snapshot.insertAll (nodes.map fun node => (node.key, node.fingerprint)) := by
  induction nodes generalizing s with
  | nil => rfl
  | cons node nodes ih => exact ih (s.observe node)

/-- The snapshot after a pass over all declarations holds the fingerprint of the last one with each
key. -/
theorem snapshot_run (s : Session) (nodes : List Node) : (s.run nodes).2.snapshot =
    SortedMap.empty.insertAll (nodes.map fun node => (node.key, node.fingerprint)) := by
  rw [run, snapshot_finish, snapshot_foldl_observe]

theorem cache_finish (s : Session) : s.finish.2.cache = s.evict.cache := by
  rw [finish_eq]
  split <;> rfl

theorem InStep.finish (h : s.InStep) : s.finish.2.InStep := by
  obtain ⟨hown, hremembered⟩ := h.evict
  rw [snapshot_evict] at hown hremembered
  exact ⟨by rwa [snapshot_finish], by rwa [snapshot_finish, cache_finish]⟩

theorem InStep.call (h : s.InStep) (c : Call) : (s.call c).2.InStep := by
  rw [call_eq]
  exact (h.collecting c).finish

theorem InStep.after (h : s.InStep) (calls : List Call) : (s.after calls).InStep := by
  induction calls generalizing s with
  | nil => exact h
  | cons c calls ih => exact ih (h.call c)

/-! What is remembered beyond that depends on the policy. -/

theorem contains_foldl_observe (s : Session) (nodes : List Node) (print : Fingerprint) :
    (nodes.foldl observe s).cache.contains print = true ↔
      s.cache.contains print = true ∨ ∃ node ∈ nodes, node.fingerprint = print := by
  induction nodes generalizing s with
  | nil => simp
  | cons node nodes ih =>
    rw [List.foldl_cons, ih, observe, Cache.contains_resolve, List.exists_mem_cons_iff, or_assoc]

theorem contains_foldl_change (s : Session) (changes : List Change) (print : Fingerprint) :
    (changes.foldl change s).cache.contains print = true ↔ s.cache.contains print = true ∨
      ∃ node ∈ changes.filterMap Change.node?, node.fingerprint = print := by
  induction changes generalizing s with
  | nil => simp
  | cons first changes ih =>
    rw [List.foldl_cons, ih]
    cases first with
    | removed key => rfl
    | added node | changed node =>
      simp only [change, observe, Cache.contains_resolve, List.filterMap_cons, Change.node?,
        List.exists_mem_cons_iff, or_assoc]

theorem contains_collecting (s : Session) (c : Call) (print : Fingerprint) :
    (s.collecting c).cache.contains print = true ↔
      s.cache.contains print = true ∨ ∃ node ∈ c.observed, node.fingerprint = print := by
  cases c with
  | run nodes => exact contains_foldl_observe _ nodes print
  | apply changes => exact contains_foldl_change s changes print

theorem contains_call (s : Session) (c : Call) (print : Fingerprint) :
    (s.call c).2.cache.contains print = true ↔
      (s.cache.contains print = true ∨ ∃ node ∈ c.observed, node.fingerprint = print) ∧
      (s.config.eviction = .retain ∨ (s.call c).2.isLive print = true) := by
  have hlive : (s.call c).2.isLive print = (s.collecting c).isLive print := by
    rw [call_eq, isLive, isLive, snapshot_finish]
  rw [hlive, call_eq, cache_finish, contains_evict, contains_collecting, config_collecting]

/-- Without eviction everything is remembered that has ever come up. -/
theorem contains_after (hretain : s.config.eviction = .retain) (calls : List Call)
    (print : Fingerprint) :
    (s.after calls).cache.contains print = true ↔ s.cache.contains print = true ∨
      ∃ node ∈ calls.flatMap Call.observed, node.fingerprint = print := by
  induction calls generalizing s with
  | nil => simp [after]
  | cons c calls ih =>
    have hnext : (s.call c).2.config.eviction = .retain := by rwa [config_call]
    have hrest := ih hnext
    rw [contains_call] at hrest
    simp only [hretain, true_or, and_true] at hrest
    rw [List.flatMap_cons, after, List.foldl_cons]
    rw [after] at hrest
    simp only [hrest, List.mem_append, or_and_right, exists_or, or_assoc]

/-- With eviction only what is current is remembered. -/
theorem isLive_of_contains (hevict : s.config.eviction = .evictStale)
    (hs : ∀ print, s.cache.contains print = true → s.isLive print = true) (calls : List Call) :
    ∀ print, (s.after calls).cache.contains print = true →
      (s.after calls).isLive print = true := by
  induction calls generalizing s with
  | nil => exact hs
  | cons c calls ih =>
    apply ih (by rwa [config_call])
    intro print hprint
    rw [contains_call, hevict] at hprint
    exact hprint.2.resolve_left nofun

/-- When everything that is remembered is current, there is one entry for each key. -/
theorem InStep.size_eq (h : s.InStep)
    (hlive : ∀ print, s.cache.contains print = true ↔ print ∈ s.snapshot.values) :
    s.cache.size = s.snapshot.size := by
  have hvalues : s.snapshot.values.map Fingerprint.key = s.snapshot.keys := by
    rw [SortedMap.values, SortedMap.keys, List.map_map]
    refine List.map_congr_left fun e he => ?_
    exact h.own e.1 e.2 (SortedMap.mem_entries_iff.mp he)
  have hnodup : s.snapshot.values.Nodup := by
    apply List.Nodup.of_map Fingerprint.key
    rw [hvalues]
    exact s.snapshot.nodup_keys
  have hperm : s.cache.entries.keys.Perm s.snapshot.values := by
    refine (List.perm_ext_iff_of_nodup s.cache.entries.nodup_keys hnodup).mpr fun print => ?_
    rw [← hlive, Cache.contains, SortedMap.mem_keys_iff]
  have hlength := hperm.length_eq
  rwa [SortedMap.keys, SortedMap.values, List.length_map, List.length_map] at hlength

/-- After any calls, failed ones included, and whatever the digests are: all that is current stands
under its own key and is remembered, and so it is when the next pass, whatever it observes, looks up
what it has collected. With eviction nothing else is remembered, and without it everything that has
ever been observed. -/
theorem snapshot_in_step (config : Config) (calls : List Call) :
    let s := (start config).after calls
    (∀ key print, s.snapshot.get? key = some print →
      print.key = key ∧ s.cache.contains print = true) ∧
    (∀ c : Call, ∀ print ∈ (s.collecting c).evict.snapshot.values,
      (s.collecting c).evict.cache.contains print = true) ∧
    (config.eviction = .evictStale →
      (∀ print, s.cache.contains print = true ↔ print ∈ s.snapshot.values) ∧
      s.cache.size = s.snapshot.size) ∧
    (config.eviction = .retain → ∀ print, s.cache.contains print = true ↔
      ∃ node ∈ calls.flatMap Call.observed, node.fingerprint = print) := by
  intro s
  have hstep : s.InStep := (inStep_start config).after calls
  refine ⟨fun key print h => ⟨hstep.own key print h, hstep.remembered key print h⟩, ?_, ?_, ?_⟩
  · intro c print hprint
    obtain ⟨key, hkey⟩ := SortedMap.mem_values_iff.mp hprint
    exact (hstep.collecting c).evict.remembered key print hkey
  · intro hevict
    have hlive : ∀ print, s.cache.contains print = true ↔ print ∈ s.snapshot.values := by
      intro print
      rw [SortedMap.mem_values_iff]
      constructor
      · intro hprint
        have hempty : ∀ print, (start config).cache.contains print = true →
            (start config).isLive print = true := by
          intro print h
          cases h
        exact ⟨print.key, isLive_iff.mp (isLive_of_contains hevict hempty calls print hprint)⟩
      · rintro ⟨key, hkey⟩
        exact hstep.remembered key print hkey
    exact ⟨hlive, hstep.size_eq hlive⟩
  · intro hretain print
    have hnone : ¬(start config).cache.contains print = true := Bool.false_ne_true
    rw [contains_after hretain, or_iff_right hnone]

/-- A declaration is edited twice in one pass, and moved to another place in the next one. -/
def editedTwice : List Call :=
  [.run [⟨⟨"lib.rs", 0⟩, [], "struct A;"⟩],
    .apply [.changed ⟨⟨"lib.rs", 0⟩, [], "enum A{}"⟩, .changed ⟨⟨"lib.rs", 0⟩, [], "union A{}"⟩],
    .apply [.removed ⟨"lib.rs", 0⟩, .added ⟨⟨"lib.rs", 1⟩, [], "union A{}"⟩]]

/-- One entry is left of it, or four. -/
theorem snapshot_editedTwice :
    ((start {}).after editedTwice).cache.size = ((start {}).after editedTwice).snapshot.size ∧
    ((start {}).after editedTwice).snapshot.size = 1 ∧
    ((start { eviction := .retain }).after editedTwice).cache.size = 4 ∧
    ∀ node ∈ editedTwice.flatMap Call.observed,
      ((start { eviction := .retain }).after editedTwice).cache.contains node.fingerprint = true := by
  obtain ⟨-, -, hevict, -⟩ := snapshot_in_step {} editedTwice
  obtain ⟨-, -, -, hretain⟩ := snapshot_in_step { eviction := .retain } editedTwice
  refine ⟨(hevict rfl).2, by decide +kernel, by decide +kernel, fun node hnode => ?_⟩
  exact (hretain rfl node.fingerprint).mpr ⟨node, hnode, rfl⟩

end Session

/-! Two sessions that differ in what they evict. -/

/-- What is remembered in `stale` is so in `kept`, too, which has not done more work for as many
declarations. -/
structure Cache.Outlasts (kept stale : Cache) : Prop where
  entries : ∀ print found, stale.entries.get? print = some found →
    kept.entries.get? print = some found
  predicateCalls : kept.stats.predicateCalls ≤ stale.stats.predicateCalls
  extractCalls : kept.stats.extractCalls ≤ stale.stats.extractCalls
  hits : stale.stats.hits ≤ kept.stats.hits
  lookups : kept.stats.hits + kept.stats.misses = stale.stats.hits + stale.stats.misses

namespace Cache

variable {kept stale : Cache} {nodes : List Node} {node : Node}

theorem resolve_of_some {cache : Cache} {found : Option Descriptor}
    (h : cache.entries.get? node.fingerprint = some found) :
    (cache.resolve node).2 = { cache with stats.hits := cache.stats.hits + 1 } := by
  rw [resolve, h]

theorem resolve_of_none {cache : Cache} (h : cache.entries.get? node.fingerprint = none) :
    (cache.resolve node).2 = ⟨cache.entries.insert node.fingerprint node.descriptor?,
      cache.stats.miss node.isMarked⟩ := by
  rw [resolve, h, classified_eq]

theorem Outlasts.resolve (h : kept.Outlasts stale) (hs : kept.Sound nodes) (hn : node ∈ nodes) :
    (kept.resolve node).2.Outlasts (stale.resolve node).2 := by
  obtain ⟨hentries, hpredicate, hextract, hhits, hlookups⟩ := h
  cases hstale : stale.entries.get? node.fingerprint with
  | some found =>
    rw [resolve_of_some hstale, resolve_of_some (hentries _ _ hstale)]
    exact ⟨hentries, hpredicate, hextract, by dsimp only; omega, by dsimp only; omega⟩
  | none =>
    rw [resolve_of_none hstale]
    cases hkept : kept.entries.get? node.fingerprint with
    | some found =>
      -- It has been forgotten; what is found anew is what `kept` remembers.
      rw [resolve_of_some hkept]
      have hmiss : stale.stats.extractCalls ≤ (stale.stats.miss node.isMarked).extractCalls := by
        unfold CacheStats.miss
        cases node.isMarked <;> simp
      refine ⟨fun print other hother => ?_, ?_, Nat.le_trans hextract hmiss, ?_, ?_⟩
      · rw [SortedMap.get?_insert] at hother
        split at hother
        next heq =>
          rw [heq, hkept, hs node hn found hkept]
          exact hother
        next => exact hentries print other hother
      all_goals dsimp only [CacheStats.miss]; omega
    | none =>
      rw [resolve_of_none hkept]
      refine ⟨fun print other hother => ?_, ?_, ?_, hhits, ?_⟩
      · rw [SortedMap.get?_insert] at hother ⊢
        split at hother
        next heq => rwa [if_pos heq]
        next hne => rw [if_neg hne, hentries print other hother]
      · exact Nat.succ_le_succ hpredicate
      · unfold CacheStats.miss
        cases node.isMarked
        · exact hextract
        · exact Nat.succ_le_succ hextract
      · dsimp only [CacheStats.miss]
        omega

theorem Outlasts.retain (h : kept.Outlasts stale) (keep : Fingerprint → Bool) :
    kept.Outlasts (stale.retain keep).2 where
  entries print found hf := by
    rw [get?_retain, Option.filter_eq_some_iff] at hf
    exact h.entries print found hf.1
  predicateCalls := h.predicateCalls
  extractCalls := h.extractCalls
  hits := h.hits
  lookups := h.lookups

end Cache

namespace Session

/-- Two sessions with the same past, of which only `stale` evicts. `observed` holds all declarations
that come up in the history, those to come included. -/
structure Outlasts (kept stale : Session) (observed : List Node) : Prop where
  config : kept.config = { stale.config with eviction := .retain }
  snapshot : kept.snapshot = stale.snapshot
  committed : kept.committed = stale.committed
  cache : kept.cache.Outlasts stale.cache
  sound : kept.cache.Sound observed
  inStep : stale.InStep

variable {kept stale : Session} {observed : List Node}

theorem outlasts_start (config : Config) (observed : List Node) :
    (start { config with eviction := .retain }).Outlasts
      (start { config with eviction := .evictStale }) observed where
  config := rfl
  snapshot := rfl
  committed := rfl
  cache := ⟨fun _ _ h => h, Nat.le_refl _, Nat.le_refl _, Nat.le_refl _, rfl⟩
  sound := Cache.sound_empty observed
  inStep := inStep_start _

theorem Outlasts.clear (h : kept.Outlasts stale observed) :
    Outlasts { kept with snapshot := .empty } { stale with snapshot := .empty } observed :=
  { h with snapshot := rfl, inStep := inStep_clear stale }

theorem Outlasts.observe (h : kept.Outlasts stale observed) (hd : DistinctPrints observed)
    {node : Node} (hn : node ∈ observed) :
    (kept.observe node).Outlasts (stale.observe node) observed where
  config := h.config
  snapshot := by rw [Session.observe, Session.observe, h.snapshot]
  committed := h.committed
  cache := h.cache.resolve h.sound hn
  sound := h.sound.resolve hd hn
  inStep := h.inStep.observe node

theorem Outlasts.change (h : kept.Outlasts stale observed) (hd : DistinctPrints observed)
    {c : Change} (hc : ∀ node, c.node? = some node → node ∈ observed) :
    (kept.change c).Outlasts (stale.change c) observed := by
  cases c with
  | added node => exact h.observe hd (hc node rfl)
  | changed node => exact h.observe hd (hc node rfl)
  | removed key =>
    refine { h with snapshot := ?_, inStep := h.inStep.change (.removed key) }
    rw [Session.change, Session.change, h.snapshot]

theorem Outlasts.collecting (h : kept.Outlasts stale observed) (hd : DistinctPrints observed)
    {c : Call} (hc : ∀ node ∈ c.observed, node ∈ observed) :
    (kept.collecting c).Outlasts (stale.collecting c) observed := by
  cases c with
  | run nodes =>
    have hrun : ∀ {kept stale : Session}, kept.Outlasts stale observed →
        (nodes.foldl Session.observe kept).Outlasts (nodes.foldl Session.observe stale) observed := by
      change ∀ node ∈ nodes, node ∈ observed at hc
      induction nodes with
      | nil => exact id
      | cons node nodes ih =>
        obtain ⟨hnode, hnodes⟩ := List.forall_mem_cons.mp hc
        exact fun h => ih hnodes (h.observe hd hnode)
    exact hrun h.clear
  | apply changes =>
    change ∀ node ∈ changes.filterMap Change.node?, node ∈ observed at hc
    change (changes.foldl Session.change kept).Outlasts (changes.foldl Session.change stale) observed
    induction changes generalizing kept stale with
    | nil => exact h
    | cons c changes ih =>
      have hfirst : ∀ node, c.node? = some node → node ∈ observed := fun node hnode =>
        hc node (List.mem_filterMap.mpr ⟨c, List.mem_cons_self, hnode⟩)
      have hrest : ∀ node ∈ changes.filterMap Change.node?, node ∈ observed := by
        intro node hnode
        obtain ⟨other, hother, he⟩ := List.mem_filterMap.mp hnode
        exact hc node (List.mem_filterMap.mpr ⟨other, List.mem_cons_of_mem _ hother, he⟩)
      exact ih (h.change hd hfirst) hrest

theorem Outlasts.evict (h : kept.Outlasts stale observed) :
    kept.evict.Outlasts stale.evict observed := by
  have hkept : kept.evict = kept := by rw [Session.evict, h.config]
  have hcache : kept.cache.Outlasts stale.evict.cache := by
    unfold Session.evict
    split
    · exact h.cache.retain _
    · exact h.cache
  rw [hkept]
  exact {
    config := by rw [config_evict, h.config]
    snapshot := by rw [snapshot_evict, h.snapshot]
    committed := by rw [committed_evict, h.committed]
    cache := hcache
    sound := h.sound
    inStep := h.inStep.evict }

/-- Everything current is remembered by both, and they remember the same of it. -/
theorem Outlasts.descriptors_eq (h : kept.Outlasts stale observed) :
    kept.descriptors = stale.descriptors := by
  rw [descriptors, descriptors, h.snapshot]
  refine List.filterMap_congr fun print hprint => ?_
  obtain ⟨key, hkey⟩ := SortedMap.mem_values_iff.mp hprint
  obtain ⟨found, hfound⟩ := Option.isSome_iff_exists.mp (h.inStep.remembered key print hkey)
  rw [Cache.lookup, Cache.lookup, hfound, h.cache.entries print found hfound]

/-- What a pass comes to does not depend on what is evicted. -/
theorem outcome_eviction (config : Config) (eviction : EvictionPolicy)
    (committed : Option AcceptedSet) (ds : List Descriptor) :
    outcome { config with eviction } committed ds = outcome config committed ds := rfl

theorem Outlasts.finish (h : kept.Outlasts stale observed) :
    kept.finish.1 = stale.finish.1 ∧ kept.finish.2.Outlasts stale.finish.2 observed := by
  obtain ⟨hconfig, hsnapshot, hcommitted, hcache, hsound, ⟨hown, hremembered⟩⟩ := h.evict
  rw [finish_eq, finish_eq, h.evict.descriptors_eq, hcommitted, hconfig, outcome_eviction]
  cases outcome stale.evict.config stale.evict.committed stale.evict.descriptors with
  | error e => exact ⟨rfl, hconfig, hsnapshot, hcommitted, hcache, hsound, hown, hremembered⟩
  | ok result => exact ⟨rfl, hconfig, hsnapshot, rfl, hcache, hsound, hown, hremembered⟩

theorem Outlasts.call (h : kept.Outlasts stale observed) (hd : DistinctPrints observed) {c : Call}
    (hc : ∀ node ∈ c.observed, node ∈ observed) :
    (kept.call c).1 = (stale.call c).1 ∧ (kept.call c).2.Outlasts (stale.call c).2 observed := by
  rw [call_eq, call_eq]
  exact (h.collecting hd hc).finish

theorem Outlasts.results (h : kept.Outlasts stale observed) (hd : DistinctPrints observed)
    {calls : List Call} (hc : ∀ c ∈ calls, ∀ node ∈ c.observed, node ∈ observed) :
    kept.results calls = stale.results calls := by
  induction calls generalizing kept stale with
  | nil => rfl
  | cons c calls ih =>
    obtain ⟨hfirst, hrest⟩ := List.forall_mem_cons.mp hc
    obtain ⟨hresult, hnext⟩ := h.call hd hfirst
    rw [Session.results, Session.results, hresult, hnext.committed, ih hnext hrest]

theorem Outlasts.after (h : kept.Outlasts stale observed) (hd : DistinctPrints observed)
    {calls : List Call} (hc : ∀ c ∈ calls, ∀ node ∈ c.observed, node ∈ observed) :
    (kept.after calls).Outlasts (stale.after calls) observed := by
  induction calls generalizing kept stale with
  | nil => exact h
  | cons c calls ih =>
    obtain ⟨hfirst, hrest⟩ := List.forall_mem_cons.mp hc
    exact ih (h.call hd hfirst).2 hrest

/-- As long as no two declarations of a history are taken for the same one, a session that evicts
and one that does not give the same results and commit the same sets. After each of the calls the
first remembers nothing that the second does not remember, and the second has done no more work. -/
theorem eviction_spares_memory (config : Config) (calls : List Call)
    (hd : DistinctPrints (calls.flatMap Call.observed)) :
    let kept := start { config with eviction := .retain }
    let stale := start { config with eviction := .evictStale }
    kept.results calls = stale.results calls ∧
    ∀ past, past <+: calls → (kept.after past).cache.Outlasts (stale.after past).cache := by
  intro kept stale
  have hstart : kept.Outlasts stale (calls.flatMap Call.observed) := outlasts_start config _
  have hobserved : ∀ c ∈ calls, ∀ node ∈ c.observed, node ∈ calls.flatMap Call.observed :=
    fun c hc _ hnode => List.mem_flatMap.mpr ⟨c, hc, hnode⟩
  refine ⟨hstart.results hd hobserved, fun past hpast => ?_⟩
  exact (hstart.after hd fun c hc => hobserved c (hpast.subset hc)).cache

/-- A component is removed and put back, next to one that cannot be registered. -/
def comesBack : List Call :=
  let node : Node := ⟨⟨"lib.rs", 0⟩, ["a"], "#[Component]struct A;"⟩
  [.run [node], .apply [.removed node.key],
    .apply [.added node, .added ⟨⟨"lib.rs", 1⟩, [], "#[Component]struct B<T>(T);"⟩]]

/-- It is classified twice if its classification has been dropped. -/
theorem eviction_comesBack :
    let kept := start { eviction := .retain }
    let stale := start { eviction := .evictStale }
    DistinctPrints (comesBack.flatMap Call.observed) ∧
    kept.results comesBack = stale.results comesBack ∧
    (kept.after comesBack).cache.Outlasts (stale.after comesBack).cache ∧
    (kept.after comesBack).cache.stats.extractCalls = 2 ∧
    (stale.after comesBack).cache.stats.extractCalls = 3 := by
  intro kept stale
  have hd : DistinctPrints (comesBack.flatMap Call.observed) := by
    unfold DistinctPrints
    decide +kernel
  obtain ⟨hresults, hpasts⟩ := eviction_spares_memory {} comesBack hd
  exact ⟨hd, hresults, hpasts comesBack List.prefix_rfl, by decide +kernel, by decide +kernel⟩

end Session

end ComponentRegistry
