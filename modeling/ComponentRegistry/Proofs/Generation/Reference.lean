import ComponentRegistry.Generation.Session
import ComponentRegistry.Proofs.SortedMap
import Mathlib.Data.List.Basic

/-! Sessions compared with a reference that remembers nothing but the current declarations and the
committed set, and that classifies every declaration anew in every pass. As long as no two
declarations are taken for the same one by their fingerprints, a session gives the results of the
reference (`results_eq_reference`): snapshot, cache and eviction do not show. The invariant is
`Session.Tracks`; each part of a pass keeps it. -/

namespace ComponentRegistry

/-- A call of a session. -/
inductive Call where
  | run (nodes : List Node)
  | apply (changes : List Change)

def Change.node? : Change → Option Node
  | added node | changed node => some node
  | removed _ => none

/-- The declarations that a call brings. -/
def Call.observed : Call → List Node
  | run nodes => nodes
  | apply changes => changes.filterMap Change.node?

namespace Session

def call (s : Session) : Call → Except GenerateError Output × Session
  | .run nodes => s.run nodes
  | .apply changes => s.apply changes

/-- What calls come to, one after another, each with the set that is committed after it. -/
def results (s : Session) : List Call → List (Except GenerateError Output × Option AcceptedSet)
  | [] => []
  | c :: rest => ((s.call c).1, (s.call c).2.committed) :: (s.call c).2.results rest

end Session

/-- The current declarations by their places, and the set of the last successful pass. -/
structure Reference where
  nodes : SortedMap NodeKey Node
  committed : Option AcceptedSet

namespace Reference

def start : Reference := ⟨.empty, none⟩

def insert (nodes : SortedMap NodeKey Node) (node : Node) : SortedMap NodeKey Node :=
  nodes.insert node.key node

def change (nodes : SortedMap NodeKey Node) : Change → SortedMap NodeKey Node
  | .added node | .changed node => insert nodes node
  | .removed key => nodes.erase key

/-- The components among the current declarations. -/
def accepted (r : Reference) : AcceptedSet := .collect (r.nodes.values.filterMap Node.descriptor?)

def finish (config : Config) (r : Reference) : Except GenerateError Output × Reference :=
  if r.committed = some r.accepted then (.ok .unchanged, r)
  else match Artifact.emit r.accepted config with
    | .ok none => (.ok .suppressed, { r with committed := some r.accepted })
    | .ok (some artifact) => (.ok (.emitted artifact), { r with committed := some r.accepted })
    | .error e => (.error e, r)

/-- The reference ends a pass as a session does that has found the same components. -/
theorem finish_eq (config : Config) (r : Reference) :
    r.finish config =
      match Session.outcome config r.committed (r.nodes.values.filterMap Node.descriptor?) with
      | .ok (output, committed) => (.ok output, { r with committed })
      | .error e => (.error e, r) := by
  by_cases hsame : r.committed = some r.accepted
  · have hunchanged : Aggregate.ofDescriptors r.committed
        (r.nodes.values.filterMap Node.descriptor?) = .unchanged r.accepted := if_pos hsame
    rw [finish, if_pos hsame, Session.outcome, hunchanged]
  · have hchanged : Aggregate.ofDescriptors r.committed
        (r.nodes.values.filterMap Node.descriptor?) = .changed r.accepted := if_neg hsame
    rw [finish, if_neg hsame, Session.outcome, hchanged]
    dsimp only
    cases Artifact.emit r.accepted config with
    | error e => rfl
    | ok result => cases result <;> rfl

def call (config : Config) (r : Reference) : Call → Except GenerateError Output × Reference
  | .run nodes => finish config { r with nodes := nodes.foldl insert .empty }
  | .apply changes => finish config { r with nodes := changes.foldl change r.nodes }

def results (config : Config) (r : Reference) :
    List Call → List (Except GenerateError Output × Option AcceptedSet)
  | [] => []
  | c :: rest =>
    ((r.call config c).1, (r.call config c).2.committed) :: (r.call config c).2.results config rest

end Reference

/-- Declarations in the same place and with the same digest are the same. -/
def DistinctPrints (nodes : List Node) : Prop :=
  ∀ a ∈ nodes, ∀ b ∈ nodes, a.key = b.key → a.fingerprint.digest = b.fingerprint.digest →
    a.modulePath = b.modulePath ∧ a.content = b.content

theorem DistinctPrints.eq {nodes : List Node} (h : DistinctPrints nodes) {a b : Node}
    (ha : a ∈ nodes) (hb : b ∈ nodes) (hab : a.fingerprint = b.fingerprint) : a = b := by
  have hkey : a.key = b.key := congrArg Fingerprint.key hab
  obtain ⟨hpath, hcontent⟩ := h a ha b hb hkey (congrArg Fingerprint.digest hab)
  cases a; cases b; simp_all

namespace Cache

/-- Whatever is remembered of one of these declarations is right. -/
def Sound (cache : Cache) (nodes : List Node) : Prop :=
  ∀ node ∈ nodes, ∀ found, cache.entries.get? node.fingerprint = some found →
    found = node.descriptor?

theorem sound_empty (nodes : List Node) : empty.Sound nodes := by
  intro node _ found h
  simp [empty] at h

/-- What a declaration is classified as when it is not remembered. -/
theorem classified_eq (node : Node) :
    (if node.isMarked then node.descriptor? else none) = node.descriptor? := by
  cases h : node.component? <;> simp [Node.isMarked, Node.descriptor?, h]

theorem entries_resolve (cache : Cache) (node : Node) :
    (cache.resolve node).2.entries =
      if (cache.entries.get? node.fingerprint).isSome then cache.entries
      else cache.entries.insert node.fingerprint node.descriptor? := by
  unfold resolve
  rw [classified_eq]
  cases cache.entries.get? node.fingerprint <;> rfl

theorem get?_resolve (cache : Cache) (node : Node) (print : Fingerprint) :
    (cache.resolve node).2.entries.get? print =
      if print = node.fingerprint then
        some ((cache.entries.get? node.fingerprint).getD node.descriptor?)
      else cache.entries.get? print := by
  rw [entries_resolve]
  cases h : cache.entries.get? node.fingerprint with
  | some found =>
    by_cases hp : print = node.fingerprint
    · simp [hp, h]
    · simp [hp]
  | none => simp [SortedMap.get?_insert]

theorem Sound.resolve {cache : Cache} {nodes : List Node} (h : cache.Sound nodes)
    (hd : DistinctPrints nodes) {node : Node} (hn : node ∈ nodes) :
    (cache.resolve node).2.Sound nodes := by
  intro other ho found hf
  rw [get?_resolve] at hf
  split at hf
  · next heq =>
    obtain rfl := hd.eq ho hn heq
    cases hc : cache.entries.get? other.fingerprint with
    | none => simpa [hc] using hf.symm
    | some known =>
      have hknown : known = found := by simpa [hc] using hf
      rw [← hknown, h other ho known hc]
  · exact h other ho found hf

theorem get?_retain (cache : Cache) (keep : Fingerprint → Bool) (print : Fingerprint) :
    (cache.retain keep).2.entries.get? print =
      (cache.entries.get? print).filter fun _ => keep print :=
  SortedMap.get?_filter ..

theorem Sound.retain {cache : Cache} {nodes : List Node} (h : cache.Sound nodes)
    (keep : Fingerprint → Bool) : (cache.retain keep).2.Sound nodes := by
  intro node hn found hf
  rw [get?_retain, Option.filter_eq_some_iff] at hf
  exact h node hn found hf.1

end Cache

namespace Session

/-- The session knows what the reference knows. `observed` holds all declarations that come up in
the history, those to come included. -/
structure Tracks (s : Session) (r : Reference) (observed : List Node) : Prop where
  committed : s.committed = r.committed
  snapshot : s.snapshot = r.nodes.mapValues Node.fingerprint
  /-- Every current declaration has its own place, and is remembered. -/
  current : ∀ key node, r.nodes.get? key = some node →
    node.key = key ∧ node ∈ observed ∧ (s.cache.entries.get? node.fingerprint).isSome
  sound : s.cache.Sound observed

variable {s : Session} {r : Reference} {observed : List Node}

theorem tracks_start (config : Config) (observed : List Node) :
    (start config).Tracks Reference.start observed where
  committed := rfl
  snapshot := rfl
  current key node h := by simp [Reference.start] at h
  sound := Cache.sound_empty observed

/-- A session whose snapshot has been emptied knows what a reference without declarations knows. -/
theorem Tracks.clear (h : s.Tracks r observed) :
    Tracks { s with snapshot := .empty } { r with nodes := .empty } observed where
  committed := h.committed
  snapshot := rfl
  current key node hk := by simp at hk
  sound := h.sound

theorem Tracks.observe (h : s.Tracks r observed) (hd : DistinctPrints observed) {node : Node}
    (hn : node ∈ observed) :
    (s.observe node).Tracks { r with nodes := Reference.insert r.nodes node } observed where
  committed := h.committed
  snapshot := by
    rw [Reference.insert, SortedMap.mapValues_insert, ← h.snapshot]; rfl
  current key other hk := by
    simp only [Session.observe, Cache.get?_resolve]
    rw [Reference.insert, SortedMap.get?_insert] at hk
    split at hk
    · next heq =>
      obtain rfl := Option.some.inj hk
      exact ⟨heq.symm, hn, by simp⟩
    · obtain ⟨hkey, hmem, hcached⟩ := h.current key other hk
      refine ⟨hkey, hmem, ?_⟩
      split
      · rfl
      · exact hcached
  sound := h.sound.resolve hd hn

theorem Tracks.change (h : s.Tracks r observed) (hd : DistinctPrints observed) {c : Change}
    (hc : ∀ node, c.node? = some node → node ∈ observed) :
    (s.change c).Tracks { r with nodes := Reference.change r.nodes c } observed := by
  cases c with
  | added node => exact h.observe hd (hc node rfl)
  | changed node => exact h.observe hd (hc node rfl)
  | removed key =>
    refine ⟨h.committed, ?_, fun other node hk => ?_, h.sound⟩
    · simp only [Session.change, Reference.change]
      rw [SortedMap.mapValues_erase, ← h.snapshot]
    · simp only [Reference.change, SortedMap.get?_erase] at hk
      split at hk
      · cases hk
      · exact h.current other node hk

theorem Tracks.foldl_observe {nodes : List Node} (h : s.Tracks r observed)
    (hd : DistinctPrints observed) (hn : ∀ node ∈ nodes, node ∈ observed) :
    (nodes.foldl Session.observe s).Tracks
      { r with nodes := nodes.foldl Reference.insert r.nodes } observed := by
  induction nodes generalizing s r with
  | nil => exact h
  | cons node nodes ih =>
    obtain ⟨hnode, hnodes⟩ := List.forall_mem_cons.mp hn
    exact ih (h.observe hd hnode) hnodes

theorem Tracks.foldl_change {changes : List Change} (h : s.Tracks r observed)
    (hd : DistinctPrints observed)
    (hc : ∀ node ∈ changes.filterMap Change.node?, node ∈ observed) :
    (changes.foldl Session.change s).Tracks
      { r with nodes := changes.foldl Reference.change r.nodes } observed := by
  induction changes generalizing s r with
  | nil => exact h
  | cons c changes ih =>
    have hfirst : ∀ node, c.node? = some node → node ∈ observed := fun node hnode =>
      hc node (List.mem_filterMap.mpr ⟨c, List.mem_cons_self, hnode⟩)
    have hrest : ∀ node ∈ changes.filterMap Change.node?, node ∈ observed := by
      intro node hnode
      obtain ⟨other, hother, he⟩ := List.mem_filterMap.mp hnode
      exact hc node (List.mem_filterMap.mpr ⟨other, List.mem_cons_of_mem _ hother, he⟩)
    exact ih (h.change hd hfirst) hrest

/-- Eviction spares the current declarations. -/
theorem Tracks.evict (h : s.Tracks r observed) : s.evict.Tracks r observed := by
  unfold Session.evict
  split
  · refine ⟨h.committed, h.snapshot, fun key node hk => ?_, h.sound.retain _⟩
    obtain ⟨hkey, hmem, hcached⟩ := h.current key node hk
    have hlive : s.isLive node.fingerprint = true := by
      have hprint : s.snapshot.get? node.fingerprint.key = some node.fingerprint := by
        rw [h.snapshot, SortedMap.get?_mapValues]
        change (r.nodes.get? node.key).map _ = _
        rw [hkey, hk]; rfl
      simp [isLive, hprint]
    refine ⟨hkey, hmem, ?_⟩
    obtain ⟨found, hfound⟩ := Option.isSome_iff_exists.mp hcached
    rw [Cache.get?_retain, hfound, Option.filter_some, if_pos hlive]
    rfl
  · exact h

/-- What is remembered of the current declarations is what they are. -/
theorem Tracks.descriptors_eq (h : s.Tracks r observed) :
    s.descriptors = r.nodes.values.filterMap Node.descriptor? := by
  rw [descriptors, h.snapshot, SortedMap.values_mapValues, List.filterMap_map]
  refine List.filterMap_congr fun node hnode => ?_
  obtain ⟨key, hkey⟩ := SortedMap.get?_of_mem_values hnode
  obtain ⟨-, hmem, hcached⟩ := h.current key node hkey
  obtain ⟨found, hfound⟩ := Option.isSome_iff_exists.mp hcached
  obtain rfl := h.sound node hmem found hfound
  simp [Cache.lookup, hfound]

theorem config_evict (s : Session) : s.evict.config = s.config := by
  unfold evict
  split <;> rfl

theorem finish_eq (s : Session) :
    s.finish =
      match outcome s.evict.config s.evict.committed s.evict.descriptors with
      | .ok (output, committed) => (.ok output, { s.evict with committed, passes := s.passes + 1 })
      | .error e => (.error e, { s.evict with passes := s.passes + 1 }) := rfl

theorem config_finish (s : Session) : s.finish.2.config = s.config := by
  rw [finish_eq]
  split <;> exact config_evict s

/-- The end of a pass comes to what the reference says, and leaves what it knows in step. -/
theorem Tracks.finish (h : s.Tracks r observed) :
    s.finish.1 = (r.finish s.config).1 ∧ s.finish.2.Tracks (r.finish s.config).2 observed := by
  obtain ⟨hcommitted, hsnapshot, hcurrent, hsound⟩ := h.evict
  rw [finish_eq, Reference.finish_eq, h.evict.descriptors_eq, hcommitted, config_evict]
  cases outcome s.config r.committed (r.nodes.values.filterMap Node.descriptor?) with
  | error e => exact ⟨rfl, hcommitted, hsnapshot, hcurrent, hsound⟩
  | ok result => exact ⟨rfl, rfl, hsnapshot, hcurrent, hsound⟩

theorem config_foldl_observe (s : Session) (nodes : List Node) :
    (nodes.foldl observe s).config = s.config := by
  induction nodes generalizing s with
  | nil => rfl
  | cons node nodes ih => exact ih (s.observe node)

theorem config_foldl_change (s : Session) (changes : List Change) :
    (changes.foldl change s).config = s.config := by
  induction changes generalizing s with
  | nil => rfl
  | cons c changes ih =>
    rw [List.foldl_cons, ih]
    cases c <;> rfl

theorem config_call (s : Session) (c : Call) : (s.call c).2.config = s.config := by
  cases c with
  | run nodes => exact (config_finish _).trans (config_foldl_observe _ nodes)
  | apply changes => exact (config_finish _).trans (config_foldl_change s changes)

/-- A call comes to what the reference says, and leaves what it knows in step. -/
theorem Tracks.call (h : s.Tracks r observed) (hd : DistinctPrints observed) {c : Call}
    (hc : ∀ node ∈ c.observed, node ∈ observed) :
    (s.call c).1 = (r.call s.config c).1 ∧
      (s.call c).2.Tracks (r.call s.config c).2 observed := by
  cases c with
  | run nodes =>
    have hfinish := (h.clear.foldl_observe hd hc).finish
    rwa [config_foldl_observe] at hfinish
  | apply changes =>
    have hfinish := (h.foldl_change hd hc).finish
    rwa [config_foldl_change] at hfinish

theorem Tracks.results (h : s.Tracks r observed) (hd : DistinctPrints observed) {calls : List Call}
    (hc : ∀ c ∈ calls, ∀ node ∈ c.observed, node ∈ observed) :
    s.results calls = r.results s.config calls := by
  induction calls generalizing s r with
  | nil => rfl
  | cons c calls ih =>
    obtain ⟨hfirst, hrest⟩ := List.forall_mem_cons.mp hc
    obtain ⟨hresult, htracks⟩ := h.call hd hfirst
    simp only [Session.results, Reference.results]
    rw [hresult, htracks.committed, ih htracks hrest, config_call]

/-- Every call of a history gives the result of the reference and commits what the reference
commits. -/
theorem results_eq_reference (config : Config) (calls : List Call)
    (hd : DistinctPrints (calls.flatMap Call.observed)) :
    (start config).results calls = Reference.start.results config calls :=
  (tracks_start config _).results hd fun c hc _ hnode =>
    List.mem_flatMap.mpr ⟨c, hc, hnode⟩

/-- A declaration is edited in its place, removed, and put back as it was before. -/
def editAndRevert : List Call :=
  let key : NodeKey := ⟨"lib.rs", 0⟩
  [.run [⟨key, ["a"], "struct A;"⟩], .apply [.changed ⟨key, ["a"], "enum A{}"⟩],
    .apply [.removed key, .added ⟨key, ["a"], "struct A;"⟩]]

theorem results_editAndRevert :
    DistinctPrints (editAndRevert.flatMap Call.observed) ∧
      (start {}).results editAndRevert = Reference.start.results {} editAndRevert := by
  have hd : DistinctPrints (editAndRevert.flatMap Call.observed) := by
    unfold DistinctPrints
    decide +kernel
  exact ⟨hd, results_eq_reference {} editAndRevert hd⟩

end Session

end ComponentRegistry
