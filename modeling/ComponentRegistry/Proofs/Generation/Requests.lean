import ComponentRegistry.Proofs.Generation.Eviction
import Mathlib.Data.List.Induction

/-! A cache that is asked anything in any order. What it answers is what a classification of the
declaration at hand would give, what it remembers is what has been resolved and not been dropped since,
and its counts add up (`Cache.answers_of_requests`). The invariants are `Cache.Sound` and `Cache.Spent`:
what some requests cost is settled by those that miss, from whatever state of the cache on. -/

namespace ComponentRegistry

namespace Cache

/-- What a cache can be asked to do. -/
inductive Request where
  | resolve (node : Node)
  | lookup (print : Fingerprint)
  | contains (print : Fingerprint)
  | retain (keep : Fingerprint → Bool)

/-- What comes back. -/
inductive Answer where
  | description (found : Option Descriptor)
  | remembered (known : Bool)
  | dropped (count : Nat)

/-- The answer to a request, and the cache after it. -/
def ask (cache : Cache) : Request → Answer × Cache
  | .resolve node => (.description (cache.resolve node).1, (cache.resolve node).2)
  | .lookup print => (.description (cache.lookup print), cache)
  | .contains print => (.remembered (cache.contains print), cache)
  | .retain keep => (.dropped (cache.retain keep).1, (cache.retain keep).2)

/-- The cache after some requests. -/
def after (cache : Cache) (requests : List Request) : Cache :=
  requests.foldl (fun cache request => (cache.ask request).2) cache

def Request.node? : Request → Option Node
  | .resolve node => some node
  | .lookup _ | .contains _ | .retain _ => none

/-- The declarations that some requests resolve. -/
def resolved (requests : List Request) : List Node := requests.filterMap Request.node?

/-- The declaration that a request makes the cache classify. -/
def missed? (cache : Cache) : Request → Option Node
  | .resolve node => if cache.contains node.fingerprint then none else some node
  | .lookup _ | .contains _ | .retain _ => none

/-- The declarations that are classified in the course of some requests. -/
def missed (cache : Cache) : List Request → List Node
  | [] => []
  | request :: rest => (cache.missed? request).toList ++ (cache.ask request).2.missed rest

/-- The declaration has been resolved, and its fingerprint has not been dropped since. -/
def Remembered (past : List Request) (node : Node) : Prop :=
  ∃ before since, past = before ++ .resolve node :: since ∧
    ∀ keep, .retain keep ∈ since → keep node.fingerprint = true

variable {cache : Cache} {past requests : List Request} {node : Node} {print : Fingerprint}

theorem after_concat (cache : Cache) (past : List Request) (request : Request) :
    cache.after (past ++ [request]) = ((cache.after past).ask request).2 := by
  rw [after, List.foldl_append]
  rfl

theorem after_append (cache : Cache) (past requests : List Request) :
    cache.after (past ++ requests) = (cache.after past).after requests := List.foldl_append ..

theorem resolved_append (past requests : List Request) :
    resolved (past ++ requests) = resolved past ++ resolved requests := List.filterMap_append ..

theorem missed_append (cache : Cache) (past requests : List Request) :
    cache.missed (past ++ requests) = cache.missed past ++ (cache.after past).missed requests := by
  induction past generalizing cache with
  | nil => rfl
  | cons request past ih =>
    rw [List.cons_append, missed, missed, ih, List.append_assoc]
    rfl

/-! What is remembered. -/

theorem remembered_concat {request : Request} : Remembered (past ++ [request]) node ↔
    request = .resolve node ∨
      Remembered past node ∧ ∀ keep, request = .retain keep → keep node.fingerprint = true := by
  constructor
  · rintro ⟨before, since, hpast, hsince⟩
    rcases List.eq_nil_or_concat since with rfl | ⟨since, last, rfl⟩
    · exact .inl (List.singleton_inj.mp (List.append_inj' hpast rfl).2)
    · rw [List.concat_eq_append, ← List.cons_append, ← List.append_assoc] at hpast
      obtain ⟨rfl, hlast⟩ := List.append_inj' hpast rfl
      obtain rfl := List.head_eq_of_cons_eq hlast
      simp only [List.concat_eq_append, List.mem_append, List.mem_singleton] at hsince
      exact .inr ⟨⟨before, since, rfl, fun keep hkeep => hsince keep (.inl hkeep)⟩,
        fun keep hkeep => hsince keep (.inr hkeep.symm)⟩
  · rintro (rfl | ⟨⟨before, since, rfl, hsince⟩, hlast⟩)
    · exact ⟨past, [], rfl, nofun⟩
    · refine ⟨before, since ++ [request], by simp, fun keep hkeep => ?_⟩
      rcases List.mem_append.mp hkeep with hkeep | hkeep
      · exact hsince keep hkeep
      · exact hlast keep (List.mem_singleton.mp hkeep).symm

/-- A fingerprint is contained if it has been resolved and not been dropped since. -/
theorem contains_after (past : List Request) (print : Fingerprint) :
    (empty.after past).contains print = true ↔
      ∃ node, node.fingerprint = print ∧ Remembered past node := by
  induction past using List.reverseRecOn with
  | nil => simp [Remembered, after, contains, empty, SortedMap.contains]
  | append_singleton past request ih =>
    simp only [after_concat, remembered_concat]
    cases request with
    | resolve node =>
      simp only [ask, contains_resolve, ih, Request.resolve.injEq, reduceCtorEq, false_implies,
        implies_true, and_true]
      constructor
      · rintro (⟨known, hprint, hknown⟩ | hprint)
        · exact ⟨known, hprint, .inr hknown⟩
        · exact ⟨node, hprint, .inl rfl⟩
      · rintro ⟨known, hprint, rfl | hknown⟩
        · exact .inr hprint
        · exact .inl ⟨known, hprint, hknown⟩
    | lookup other => simp [ask, ih]
    | contains other => simp [ask, ih]
    | retain keep =>
      simp only [ask, contains_retain, ih, Request.retain.injEq, reduceCtorEq, false_or,
        forall_eq']
      constructor
      · rintro ⟨⟨known, rfl, hknown⟩, hkeep⟩
        exact ⟨known, rfl, hknown, hkeep⟩
      · rintro ⟨known, rfl, hknown, hkeep⟩
        exact ⟨⟨known, rfl, hknown⟩, hkeep⟩

theorem mem_resolved (h : Remembered past node) : node ∈ resolved past := by
  obtain ⟨before, since, rfl, -⟩ := h
  rw [resolved_append]
  exact List.mem_append_right _ List.mem_cons_self

/-! What it answers. -/

theorem Sound.ask {nodes : List Node} (h : cache.Sound nodes) (hd : DistinctPrints nodes)
    {request : Request} (hn : ∀ node, request = .resolve node → node ∈ nodes) :
    (cache.ask request).2.Sound nodes := by
  cases request with
  | resolve node => exact h.resolve hd (hn node rfl)
  | lookup _ | contains _ => exact h
  | retain keep => exact h.retain keep

theorem sound_after {nodes : List Node} (hd : DistinctPrints nodes)
    (hn : resolved past ⊆ nodes) : (empty.after past).Sound nodes := by
  induction past using List.reverseRecOn with
  | nil => exact sound_empty nodes
  | append_singleton past request ih =>
    rw [resolved_append] at hn
    rw [after_concat]
    refine (ih fun _ h => hn (List.mem_append_left _ h)).ask hd fun node hnode => ?_
    subst hnode
    exact hn (List.mem_append_right _ List.mem_cons_self)

theorem resolve_fst {nodes : List Node} (h : cache.Sound nodes) (hn : node ∈ nodes) :
    (cache.resolve node).1 = node.descriptor? := by
  cases hfound : cache.entries.get? node.fingerprint with
  | some found => rw [resolve, hfound, ← h node hn found hfound]
  | none => rw [resolve, hfound, classified_eq]

theorem lookup_of_contains {nodes : List Node} (h : cache.Sound nodes) (hn : node ∈ nodes)
    (hknown : cache.contains node.fingerprint = true) :
    cache.lookup node.fingerprint = node.descriptor? := by
  obtain ⟨found, hfound⟩ := Option.isSome_iff_exists.mp hknown
  rw [lookup, hfound, ← h node hn found hfound]
  rfl

theorem lookup_of_not_contains (h : ¬cache.contains print = true) : cache.lookup print = none := by
  rw [contains, SortedMap.contains, Option.not_isSome_iff_eq_none] at h
  rw [lookup, h]
  rfl

/-! What it costs. -/

/-- What has become of a cache in the course of some requests: only those that miss make it classify
and grow. -/
structure Spent (cache : Cache) (requests : List Request) : Prop where
  predicateCalls : (cache.after requests).stats.predicateCalls =
    cache.stats.predicateCalls + (cache.missed requests).length
  misses : (cache.after requests).stats.misses =
    cache.stats.misses + (cache.missed requests).length
  extractCalls : (cache.after requests).stats.extractCalls =
    cache.stats.extractCalls + (cache.missed requests).countP Node.isMarked
  hits : (cache.after requests).stats.hits + (cache.missed requests).length =
    cache.stats.hits + (resolved requests).length
  size : (cache.after requests).size + (cache.after requests).stats.evicted =
    cache.size + cache.stats.evicted + (cache.missed requests).length

theorem spent_nil (cache : Cache) : cache.Spent [] := ⟨rfl, rfl, rfl, rfl, rfl⟩

theorem Spent.append (h : cache.Spent past) (h' : (cache.after past).Spent requests) :
    cache.Spent (past ++ requests) := by
  obtain ⟨hpredicate, hmisses, hextract, hhits, hsize⟩ := h
  obtain ⟨hpredicate', hmisses', hextract', hhits', hsize'⟩ := h'
  constructor
  all_goals
    simp only [after_append, missed_append, resolved_append, List.length_append, List.countP_append]
    omega

theorem size_retain (cache : Cache) (keep : Fingerprint → Bool) :
    (cache.retain keep).1 + (cache.retain keep).2.size = cache.size := by
  have hle : (cache.entries.filter fun print _ => keep print).size ≤ cache.entries.size :=
    List.length_filter_le ..
  simp only [retain, size]
  omega

theorem spent_singleton (cache : Cache) (request : Request) : cache.Spent [request] := by
  cases request with
  | lookup _ | contains _ => exact ⟨rfl, rfl, rfl, rfl, rfl⟩
  | retain keep =>
    have hsize := cache.size_retain keep
    refine ⟨rfl, rfl, rfl, rfl, ?_⟩
    change (cache.retain keep).2.size + (cache.stats.evicted + (cache.retain keep).1) = _ + 0
    omega
  | resolve node =>
    cases hfound : cache.entries.get? node.fingerprint with
    | some found =>
      have hmissed : cache.missed [.resolve node] = [] := by
        simp [missed, missed?, contains, SortedMap.contains, hfound]
      have hafter : cache.after [.resolve node] = { cache with stats.hits := cache.stats.hits + 1 } :=
        resolve_of_some hfound
      constructor <;> rw [hafter, hmissed] <;> rfl
    | none =>
      have hmissed : cache.missed [.resolve node] = [node] := by
        simp [missed, missed?, contains, SortedMap.contains, hfound]
      have hafter : cache.after [.resolve node] =
          ⟨cache.entries.insert node.fingerprint node.descriptor?, cache.stats.miss node.isMarked⟩ :=
        resolve_of_none hfound
      have hsize : (cache.entries.insert node.fingerprint node.descriptor?).size =
          cache.entries.size + 1 := by
        rw [SortedMap.size_insert, hfound]
        rfl
      constructor
      case size =>
        rw [hafter, hmissed]
        change (cache.entries.insert node.fingerprint node.descriptor?).size + cache.stats.evicted = _
        rw [hsize, size, List.length_singleton]
        omega
      case extractCalls =>
        rw [hafter, hmissed, List.countP_singleton, CacheStats.miss]
        split <;> rfl
      all_goals
        rw [hafter, hmissed]
        rfl

theorem spent (cache : Cache) (requests : List Request) : cache.Spent requests := by
  induction requests using List.reverseRecOn with
  | nil => exact cache.spent_nil
  | append_singleton past request ih => exact ih.append (spent_singleton _ request)

/-- The counts of a cache add up after these requests. -/
structure AddsUp (cache : Cache) (past : List Request) : Prop where
  resolved : cache.stats.hits + cache.stats.misses = (resolved past).length
  misses : cache.stats.misses = (empty.missed past).length
  predicateCalls : cache.stats.predicateCalls = cache.stats.misses
  extractCalls : cache.stats.extractCalls = (empty.missed past).countP Node.isMarked
  size : cache.size + cache.stats.evicted = cache.stats.misses

theorem addsUp_after (past : List Request) : (empty.after past).AddsUp past := by
  obtain ⟨hpredicate, hmisses, hextract, hhits, hsize⟩ := empty.spent past
  have hempty : empty.stats = {} ∧ empty.size = 0 := ⟨rfl, rfl⟩
  simp only [hempty, Nat.zero_add] at hpredicate hmisses hextract hhits hsize
  exact ⟨by omega, hmisses, by rw [hpredicate, hmisses], hextract, by rw [hsize, hmisses]⟩

/-- The answer that a request has to get after others, and what it leaves of the cache. -/
inductive Answers (cache : Cache) (past : List Request) : Request → Answer → Cache → Prop
  | resolve {node : Node} {next : Cache} :
    Answers cache past (.resolve node) (.description node.descriptor?) next
  | lookup {node : Node} : Remembered past node →
    Answers cache past (.lookup node.fingerprint) (.description node.descriptor?) cache
  | lookup_unknown {print : Fingerprint} :
    (∀ node, node.fingerprint = print → ¬Remembered past node) →
    Answers cache past (.lookup print) (.description none) cache
  | contains {print : Fingerprint} {known : Bool} :
    (known = true ↔ ∃ node, node.fingerprint = print ∧ Remembered past node) →
    Answers cache past (.contains print) (.remembered known) cache
  | retain {keep : Fingerprint → Bool} {count : Nat} {next : Cache} :
    count + next.size = cache.size → Answers cache past (.retain keep) (.dropped count) next

theorem answers_ask {nodes : List Node} (hd : DistinctPrints nodes) {request : Request}
    (hn : resolved (past ++ [request]) ⊆ nodes) :
    (empty.after past).Answers past request ((empty.after past).ask request).1
      ((empty.after past).ask request).2 := by
  rw [resolved_append] at hn
  have hpast : resolved past ⊆ nodes := fun _ h => hn (List.mem_append_left _ h)
  have hsound : (empty.after past).Sound nodes := sound_after hd hpast
  cases request with
  | resolve node =>
    rw [ask, resolve_fst hsound (hn (List.mem_append_right _ List.mem_cons_self))]
    exact .resolve
  | lookup print =>
    by_cases hknown : (empty.after past).contains print = true
    · obtain ⟨node, rfl, hremembered⟩ := (contains_after past print).mp hknown
      rw [ask, lookup_of_contains hsound (hpast (mem_resolved hremembered)) hknown]
      exact .lookup hremembered
    · rw [ask, lookup_of_not_contains hknown]
      refine .lookup_unknown fun node hprint hremembered => hknown ?_
      exact (contains_after past print).mpr ⟨node, hprint, hremembered⟩
  | contains print => exact .contains (contains_after past print)
  | retain keep => exact .retain (size_retain _ keep)

/-- As long as no two declarations that are resolved are taken for the same one: whatever has been
asked before, a declaration is resolved to what it is classified as, remembered or not; what has been
resolved and not been dropped since is contained and can be looked up, and to ask for that changes
nothing. The counts add up throughout. -/
theorem answers_of_requests {requests : List Request} (hd : DistinctPrints (resolved requests)) :
    (∀ past request later, requests = past ++ request :: later →
      (empty.after past).Answers past request ((empty.after past).ask request).1
        ((empty.after past).ask request).2) ∧
    (∀ past, past <+: requests → (empty.after past).AddsUp past) ∧
    ∀ node : Node, node.isMarked = true → node.descriptor?.isSome = true := by
  refine ⟨fun past request later hrequests => ?_, fun past _ => addsUp_after past, fun node hmarked => ?_⟩
  · refine answers_ask hd fun node hnode => ?_
    rw [hrequests, List.append_cons, resolved_append]
    exact List.mem_append_left _ hnode
  · rwa [Node.descriptor?, Option.isSome_map]

/-- A declaration that is no component. -/
def plainNode : Node := ⟨⟨"lib.rs", 1⟩, [], "struct B;"⟩

/-- A component and a declaration that is none are resolved, the component once more after it has been
dropped. -/
def droppedOnce : List Request :=
  let component : Node := ⟨⟨"lib.rs", 0⟩, [], "#[Component]struct A;"⟩
  [.resolve component, .resolve plainNode, .resolve plainNode, .retain (·.key.ordinal != 0),
    .lookup component.fingerprint, .resolve component]

/-- The component is classified twice, and what is known of the other declaration is found once. -/
theorem answers_droppedOnce :
    let cache := empty.after droppedOnce
    let request := Request.contains plainNode.fingerprint
    DistinctPrints (resolved (droppedOnce ++ [request])) ∧ cache.AddsUp droppedOnce ∧
    cache.stats = { predicateCalls := 3, extractCalls := 2, hits := 1, misses := 3, evicted := 1 } ∧
    cache.Answers droppedOnce request (.remembered true) cache := by
  intro cache request
  have hd : DistinctPrints (resolved (droppedOnce ++ [request])) := by
    unfold DistinctPrints
    decide +kernel
  have hknown : cache.contains plainNode.fingerprint = true := by decide +kernel
  have hask : cache.ask request = (.remembered true, cache) := by rw [ask, hknown]
  obtain ⟨hanswers, hcounts, -⟩ := answers_of_requests hd
  have hlast := hanswers droppedOnce request [] rfl
  change cache.Answers _ _ (cache.ask request).1 (cache.ask request).2 at hlast
  simp only [hask] at hlast
  exact ⟨hd, hcounts droppedOnce (List.prefix_append ..), by decide +kernel, hlast⟩

end Cache

end ComponentRegistry
