import ComponentRegistry.Proofs.Generation.Eviction

/-! The order of delivery. Two changes at different places can be made in either order: snapshot,
classifications and counts are the same (`Session.change_comm`). So a pass does not depend on the order
in which declarations or changes are handed over, as long as no place comes up twice
(`Session.run_and_apply_perm`), and neither does a whole history (`Session.results_of_reordered`). -/

namespace ComponentRegistry

/-- The place that a change is about. -/
def Change.key : Change → NodeKey
  | added node | changed node => node.key
  | removed key => key

/-- The same call, or one that hands over the same in another order, where no place comes up
twice. -/
inductive Call.Reordered : Call → Call → Prop
  | same (c : Call) : Reordered c c
  | run {nodes nodes' : List Node} :
    nodes.Perm nodes' → (nodes.map Node.key).Nodup → Reordered (.run nodes) (.run nodes')
  | apply {changes changes' : List Change} :
    changes.Perm changes' → (changes.map Change.key).Nodup →
    Reordered (.apply changes) (.apply changes')

theorem CacheStats.miss_comm (stats : CacheStats) (a b : Bool) :
    (stats.miss a).miss b = (stats.miss b).miss a := by
  cases a <;> cases b <;> rfl

namespace Cache

/-- Declarations with different fingerprints do not see each other's classifications. -/
theorem resolve_comm (cache : Cache) {a b : Node} (h : a.fingerprint ≠ b.fingerprint) :
    ((cache.resolve a).2.resolve b).2 = ((cache.resolve b).2.resolve a).2 := by
  have ha := get?_resolve cache b a.fingerprint
  have hb := get?_resolve cache a b.fingerprint
  rw [if_neg h] at ha
  rw [if_neg h.symm] at hb
  cases hfounda : cache.entries.get? a.fingerprint with
  | some _ =>
    cases hfoundb : cache.entries.get? b.fingerprint with
    | some _ =>
      rw [resolve_of_some (ha.trans hfounda), resolve_of_some (hb.trans hfoundb),
        resolve_of_some hfounda, resolve_of_some hfoundb]
    | none =>
      rw [resolve_of_some (ha.trans hfounda), resolve_of_none (hb.trans hfoundb),
        resolve_of_some hfounda, resolve_of_none hfoundb]
      rfl
  | none =>
    cases hfoundb : cache.entries.get? b.fingerprint with
    | some _ =>
      rw [resolve_of_none (ha.trans hfounda), resolve_of_some (hb.trans hfoundb),
        resolve_of_none hfounda, resolve_of_some hfoundb]
      rfl
    | none =>
      rw [resolve_of_none (ha.trans hfounda), resolve_of_none (hb.trans hfoundb),
        resolve_of_none hfounda, resolve_of_none hfoundb]
      dsimp only
      rw [SortedMap.insert_comm _ h, CacheStats.miss_comm]

end Cache

namespace Session

variable {s : Session} {nodes nodes' : List Node} {changes changes' : List Change}

theorem observe_comm (s : Session) {a b : Node} (h : a.key ≠ b.key) :
    (s.observe a).observe b = (s.observe b).observe a := by
  have hprint : a.fingerprint ≠ b.fingerprint := fun heq => h (congrArg Fingerprint.key heq)
  simp only [observe, SortedMap.insert_comm _ h, Cache.resolve_comm _ hprint]

/-- A declaration can be taken out before another one is put in, or after that. -/
theorem observe_removed_comm (s : Session) {key : NodeKey} {node : Node} (h : key ≠ node.key) :
    (s.change (.removed key)).observe node = (s.observe node).change (.removed key) := by
  simp only [observe, change, SortedMap.erase_insert_comm _ h]

theorem change_comm (s : Session) {a b : Change} (h : a.key ≠ b.key) :
    (s.change a).change b = (s.change b).change a := by
  cases a with
  | added x | changed x =>
    cases b with
    | added y | changed y => exact observe_comm s h
    | removed key => exact (observe_removed_comm s h.symm).symm
  | removed key =>
    cases b with
    | added y | changed y => exact observe_removed_comm s h
    | removed other => simp only [change, SortedMap.erase_comm _ key other]

theorem foldl_change_perm (h : changes.Perm changes') (hkeys : (changes.map Change.key).Nodup)
    (s : Session) : changes.foldl change s = changes'.foldl change s := by
  refine h.foldl_eq' (fun a ha b hb s => ?_) s
  by_cases hkey : a.key = b.key
  · rw [List.inj_on_of_nodup_map hkeys ha hb hkey]
  · exact change_comm s hkey

/-- To observe declarations is to add them. -/
theorem foldl_observe_eq (s : Session) (nodes : List Node) :
    nodes.foldl observe s = (nodes.map Change.added).foldl change s := by
  rw [List.foldl_map]
  rfl

theorem run_of_perm (h : nodes.Perm nodes') (hkeys : (nodes.map Node.key).Nodup) (s : Session) :
    s.run nodes = s.run nodes' := by
  have hadded : ((nodes.map Change.added).map Change.key).Nodup := by
    rw [List.map_map]
    exact hkeys
  rw [run, run, foldl_observe_eq, foldl_observe_eq, foldl_change_perm (h.map _) hadded]

theorem apply_of_perm (h : changes.Perm changes') (hkeys : (changes.map Change.key).Nodup)
    (s : Session) : s.apply changes = s.apply changes' := by
  rw [apply, apply, foldl_change_perm h hkeys]

theorem call_of_reordered {c c' : Call} (h : c.Reordered c') (s : Session) :
    s.call c = s.call c' := by
  cases h with
  | same => rfl
  | run hperm hkeys => exact run_of_perm hperm hkeys s
  | apply hperm hkeys => exact apply_of_perm hperm hkeys s

/-- A whole history gives the same results, and leaves the same session, if some of its calls hand
over what they do in another order. -/
theorem results_of_reordered {calls calls' : List Call} (h : List.Forall₂ Call.Reordered calls calls')
    (s : Session) : s.results calls = s.results calls' ∧ s.after calls = s.after calls' := by
  induction h generalizing s with
  | nil => exact ⟨rfl, rfl⟩
  | cons hcall _ ih =>
    have hsame := call_of_reordered hcall s
    rw [results, results, after, after, List.foldl_cons, List.foldl_cons, hsame]
    obtain ⟨hresults, hafter⟩ := ih (s.call _).2
    exact ⟨by rw [hresults], hafter⟩

/-- In whatever state a session is: a pass over declarations that have different places, or over
changes that are about different places, gives the same result and leaves the same session, with its
snapshot, its classifications and counts, its committed set and its number of passes, in whatever order
they are handed over. -/
theorem run_and_apply_perm (s : Session) :
    (∀ nodes nodes' : List Node, nodes.Perm nodes' → (nodes.map Node.key).Nodup →
      s.run nodes = s.run nodes') ∧
    ∀ changes changes' : List Change, changes.Perm changes' → (changes.map Change.key).Nodup →
      s.apply changes = s.apply changes' :=
  ⟨fun _ _ h hkeys => run_of_perm h hkeys s, fun _ _ h hkeys => apply_of_perm h hkeys s⟩

/-- Three declarations that are there, two of them the same but for their places. -/
def threeNodes : List Node :=
  [⟨⟨"lib.rs", 0⟩, [], "#[Component]struct A;"⟩, ⟨⟨"lib.rs", 1⟩, [], "#[Component]struct B;"⟩,
    ⟨⟨"a.rs", 0⟩, [], "#[Component]struct A;"⟩]

/-- One of them is edited, one is removed, one is given again, and another one is added. -/
def mixedChanges : List Change :=
  [.changed ⟨⟨"lib.rs", 1⟩, [], "#[Component]enum B{}"⟩, .removed ⟨"lib.rs", 0⟩,
    .changed ⟨⟨"a.rs", 0⟩, [], "#[Component]struct A;"⟩,
    .added ⟨⟨"b.rs", 0⟩, ["b"], "#[Component]struct C;"⟩]

/-- Either way two of the changes are classified and one is found. -/
theorem run_and_apply_reversed :
    let s := ((start {}).run threeNodes).2
    (threeNodes.map Node.key).Nodup ∧ (mixedChanges.map Change.key).Nodup ∧
    (start {}).run threeNodes = (start {}).run threeNodes.reverse ∧
    s.apply mixedChanges = s.apply mixedChanges.reverse ∧
    (s.apply mixedChanges).2.cache.stats =
      { predicateCalls := 5, extractCalls := 5, hits := 1, misses := 5, evicted := 2 } := by
  intro s
  have hnodes : (threeNodes.map Node.key).Nodup := by decide
  have hchanges : (mixedChanges.map Change.key).Nodup := by decide
  refine ⟨hnodes, hchanges, ?_, ?_, by decide +kernel⟩
  · exact (run_and_apply_perm (start {})).1 _ _ (List.reverse_perm _).symm hnodes
  · exact (run_and_apply_perm s).2 _ _ (List.reverse_perm _).symm hchanges

end Session

end ComponentRegistry
