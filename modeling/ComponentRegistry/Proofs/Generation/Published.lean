import ComponentRegistry.Proofs.Generation.Reference

/-! What a session has given out last, compared with what it has committed. The committed set is that
of the last successful pass, and what has been given out last is the registry of that set
(`Session.published_matches_committed`), whatever has failed or has been unchanged since. A pass has
one of four ends (`Session.call_cases`), and each of them keeps that. -/

namespace ComponentRegistry

/-- A pass that has come to its end. -/
structure Pass where
  result : Except GenerateError Output
  /-- The set that it has collected. -/
  accepted : AcceptedSet

namespace Pass

/-- The set of a pass that has been successful. -/
def success? (p : Pass) : Option AcceptedSet :=
  match p.result with
  | .ok _ => some p.accepted
  | .error _ => none

/-- The output of a pass that has given out a registry, or that there is none any more. -/
def renewal? (p : Pass) : Option Output :=
  match p.result with
  | .ok .unchanged => none
  | .ok output => some output
  | .error _ => none

end Pass

/-- The set of the last successful pass. -/
def lastSuccess (past : List Pass) : Option AcceptedSet := (past.filterMap Pass.success?).getLast?

/-- The last output that has told of a change. -/
def lastRenewal (past : List Pass) : Option Output := (past.filterMap Pass.renewal?).getLast?

/-- The registries that have been given out. -/
def givenOut (past : List Pass) : List Artifact :=
  (past.filterMap Pass.renewal?).filterMap Output.artifact?

namespace Session

variable {s : Session} {config : Config} {c : Call} {e : GenerateError}

/-- The set of the components that are known now. -/
def accepted (s : Session) : AcceptedSet := .collect s.descriptors

/-- The session after some calls. -/
def after (s : Session) (calls : List Call) : Session := calls.foldl (fun s c => (s.call c).2) s

/-- The pass that a call makes. -/
def pass (s : Session) (c : Call) : Pass := ⟨(s.call c).1, (s.call c).2.accepted⟩

/-- The passes of some calls, one after another. -/
def history (s : Session) : List Call → List Pass
  | [] => []
  | c :: calls => s.pass c :: (s.call c).2.history calls

theorem committed_evict (s : Session) : s.evict.committed = s.committed := by
  unfold evict
  split <;> rfl

/-- The session after a pass that has committed this set. -/
def ended (s : Session) (committed : Option AcceptedSet) : Session :=
  { s.evict with committed, passes := s.passes + 1 }

theorem finish_of_eq (h : s.committed = some (.collect s.evict.descriptors)) :
    s.finish = (.ok .unchanged, s.ended s.committed) := by
  have houtcome : outcome s.evict.config s.evict.committed s.evict.descriptors =
      .ok (.unchanged, s.committed) := by
    rw [outcome, Aggregate.ofDescriptors, committed_evict, if_pos h]
  rw [finish_eq, houtcome]
  rfl

theorem finish_of_ne (h : s.committed ≠ some (.collect s.evict.descriptors)) :
    s.finish =
      match Artifact.emit (.collect s.evict.descriptors) s.config with
      | .error e => (.error e, s.ended s.committed)
      | .ok none => (.ok .suppressed, s.ended (some (.collect s.evict.descriptors)))
      | .ok (some artifact) =>
        (.ok (.emitted artifact), s.ended (some (.collect s.evict.descriptors))) := by
  have hended : s.ended s.committed = { s.evict with passes := s.passes + 1 } := by
    rw [ended, ← committed_evict]
  have houtcome : outcome s.evict.config s.evict.committed s.evict.descriptors =
      match Artifact.emit (.collect s.evict.descriptors) s.config with
      | .error e => .error e
      | .ok none => .ok (.suppressed, some (.collect s.evict.descriptors))
      | .ok (some artifact) => .ok (.emitted artifact, some (.collect s.evict.descriptors)) := by
    rw [outcome, Aggregate.ofDescriptors, committed_evict, if_neg h]
    exact config_evict s ▸ rfl
  rw [finish_eq, houtcome, hended]
  cases Artifact.emit (.collect s.evict.descriptors) s.config with
  | error e => rfl
  | ok result => cases result <;> rfl

/-- How a pass ends, for a session that it leaves as `s'`. -/
inductive Ends (s s' : Session) : Except GenerateError Output → Prop
  | unchanged : s.committed = some s'.accepted → s'.committed = s.committed →
    Ends s s' (.ok .unchanged)
  | suppressed : Artifact.emit s'.accepted s.config = .ok none →
    s'.committed = some s'.accepted → Ends s s' (.ok .suppressed)
  | emitted {artifact : Artifact} : Artifact.emit s'.accepted s.config = .ok (some artifact) →
    s'.committed = some s'.accepted → Ends s s' (.ok (.emitted artifact))
  | failed {e : GenerateError} : s.committed ≠ some s'.accepted →
    Artifact.emit s'.accepted s.config = .error e → s'.committed = s.committed →
    Ends s s' (.error e)

theorem finish_ends (s : Session) : s.Ends s.finish.2 s.finish.1 := by
  by_cases hsame : s.committed = some (.collect s.evict.descriptors)
  · rw [finish_of_eq hsame]
    exact .unchanged hsame rfl
  · rw [finish_of_ne hsame]
    cases hemit : Artifact.emit (.collect s.evict.descriptors) s.config with
    | error e => exact .failed hsame hemit rfl
    | ok result =>
      cases result with
      | none => exact .suppressed hemit rfl
      | some artifact => exact .emitted hemit rfl

/-- The session before the end of the pass that a call makes. -/
def collecting (s : Session) : Call → Session
  | .run nodes => nodes.foldl observe { s with snapshot := .empty }
  | .apply changes => changes.foldl change s

theorem call_eq (s : Session) (c : Call) : s.call c = (s.collecting c).finish := by
  cases c <;> rfl

theorem committed_foldl_observe (s : Session) (nodes : List Node) :
    (nodes.foldl observe s).committed = s.committed := by
  induction nodes generalizing s with
  | nil => rfl
  | cons node nodes ih => exact ih (s.observe node)

theorem committed_foldl_change (s : Session) (changes : List Change) :
    (changes.foldl change s).committed = s.committed := by
  induction changes generalizing s with
  | nil => rfl
  | cons c changes ih =>
    rw [List.foldl_cons, ih]
    cases c <;> rfl

theorem committed_collecting (s : Session) (c : Call) :
    (s.collecting c).committed = s.committed := by
  cases c with
  | run nodes => exact committed_foldl_observe _ nodes
  | apply changes => exact committed_foldl_change s changes

theorem config_collecting (s : Session) (c : Call) : (s.collecting c).config = s.config := by
  cases c with
  | run nodes => exact config_foldl_observe _ nodes
  | apply changes => exact config_foldl_change s changes

theorem call_ends (s : Session) (c : Call) : s.Ends (s.call c).2 (s.call c).1 := by
  have hends := finish_ends (s.collecting c)
  rw [← call_eq] at hends
  generalize (s.call c).1 = result at hends ⊢
  cases hends with
  | unchanged h h' =>
    rw [committed_collecting] at h h'
    exact .unchanged h h'
  | suppressed h h' =>
    rw [config_collecting] at h
    exact .suppressed h h'
  | emitted h h' =>
    rw [config_collecting] at h
    exact .emitted h h'
  | failed h h' h'' =>
    rw [committed_collecting] at h h''
    rw [config_collecting] at h'
    exact .failed h h' h''

/-! A pass over no changes finds what the pass before it has found. -/

theorem isLive_ended (committed : Option AcceptedSet) : (s.ended committed).isLive = s.isLive := by
  have hsnapshot : (s.ended committed).snapshot = s.snapshot := by
    unfold ended evict
    split <;> rfl
  funext print
  rw [isLive, isLive, hsnapshot]

theorem evict_ended (committed : Option AcceptedSet) :
    (s.ended committed).evict.descriptors = s.evict.descriptors := by
  have hlive := isLive_ended (s := s) committed
  have hconfig : (s.ended committed).config = s.config := config_evict s
  have hdescriptors : (s.ended committed).descriptors = s.evict.descriptors := rfl
  cases heviction : s.config.eviction with
  | retain => rw [evict, hconfig, heviction, hdescriptors]
  | evictStale =>
    -- What is left in the cache is live, and stays in it.
    have hcache : (s.ended committed).cache = (s.cache.retain s.isLive).2 := by
      simp only [ended, evict, heviction]
    have hentries : ((s.ended committed).cache.retain s.isLive).2.entries =
        (s.ended committed).cache.entries := by
      rw [hcache]
      exact SortedMap.ext (by simp [Cache.retain, SortedMap.filter])
    have hlookup : ((s.ended committed).cache.retain s.isLive).2.lookup =
        (s.ended committed).cache.lookup := by
      funext print
      rw [Cache.lookup, Cache.lookup, hentries]
    rw [evict, hconfig, heviction, hlive, ← hdescriptors]
    simp only [descriptors, hlookup]

theorem finish_again (h : s.finish.1 = .error e) : (s.finish.2.apply []).1 = .error e := by
  by_cases hsame : s.committed = some (.collect s.evict.descriptors)
  · rw [finish_of_eq hsame] at h
    cases h
  · rw [finish_of_ne hsame] at h ⊢
    cases hemit : Artifact.emit (.collect s.evict.descriptors) s.config with
    | ok result => rw [hemit] at h; cases result <;> cases h
    | error e' =>
      rw [hemit] at h
      have hagain : (s.ended s.committed).committed ≠
          some (.collect (s.ended s.committed).evict.descriptors) := by
        rwa [evict_ended]
      have hconfig : (s.ended s.committed).config = s.config := config_evict s
      change (s.ended s.committed).finish.1 = _
      rw [finish_of_ne hagain, evict_ended, hconfig, hemit]
      exact h

theorem call_again (h : (s.call c).1 = .error e) : ((s.call c).2.apply []).1 = .error e := by
  rw [call_eq] at h ⊢
  exact finish_again h

/-! The whole history. -/

theorem isEmpty_of_emit {set : AcceptedSet} (h : Artifact.emit set config = .ok none) :
    set.isEmpty = true := by
  unfold Artifact.emit at h
  split at h
  next hempty => exact hempty
  next =>
    cases hmodel : Model.build set config with
    | error e => simp [hmodel, bind, Except.bind] at h
    | ok model => simp [hmodel, bind, Except.bind, pure, Except.pure] at h

/-- The session has committed the set of the last successful pass, and what has been given out last
is the registry of this set, or that there is none. -/
structure Published (s : Session) (past : List Pass) : Prop where
  committed : s.committed = lastSuccess past
  renewal : ∀ set, s.committed = some set → ∃ output, lastRenewal past = some output ∧
    output ≠ .unchanged ∧ Artifact.emit set s.config = .ok output.artifact?

variable {past : List Pass} {p : Pass}

theorem published_start (config : Config) : (start config).Published [] where
  committed := rfl
  renewal set h := by cases h

/-- What a pass adds at the end of the past. -/
theorem lastSuccess_append (past : List Pass) (p : Pass) :
    lastSuccess (past ++ [p]) = p.success?.or (lastSuccess past) := by
  unfold lastSuccess
  rw [List.filterMap_append, List.getLast?_append]
  cases h : p.success? <;> simp [h]

theorem lastRenewal_append (past : List Pass) (p : Pass) :
    lastRenewal (past ++ [p]) = p.renewal?.or (lastRenewal past) := by
  unfold lastRenewal
  rw [List.filterMap_append, List.getLast?_append]
  cases h : p.renewal? <;> simp [h]

/-- A pass that gives nothing out keeps what has been committed. -/
theorem Published.keep {s' : Session} (h : s.Published past) (hconfig : s'.config = s.config)
    (hcommitted : s'.committed = s.committed) (hrenewal : p.renewal? = none)
    (hsuccess : p.success?.or s.committed = s.committed) : s'.Published (past ++ [p]) where
  committed := by rw [lastSuccess_append, ← h.committed, hsuccess, hcommitted]
  renewal set hset := by
    rw [lastRenewal_append, hrenewal, hconfig]
    exact h.renewal set (hcommitted ▸ hset)

/-- A pass that gives something out commits the set that this is made of. -/
theorem published_renewed {s' : Session} {set : AcceptedSet} (output : Output)
    (hcommitted : s'.committed = some set) (hsuccess : p.success? = some set)
    (hrenewal : p.renewal? = some output) (hne : output ≠ .unchanged)
    (hemit : Artifact.emit set s'.config = .ok output.artifact?) : s'.Published (past ++ [p]) where
  committed := by rw [lastSuccess_append, hsuccess, hcommitted]; rfl
  renewal other hother := by
    obtain rfl : set = other := Option.some.inj (hcommitted ▸ hother)
    exact ⟨output, by rw [lastRenewal_append, hrenewal]; rfl, hne, hemit⟩

theorem Published.call (h : s.Published past) (c : Call) :
    (s.call c).2.Published (past ++ [s.pass c]) := by
  have hconfig := config_call s c
  have hends := call_ends s c
  have hpass : s.pass c = ⟨(s.call c).1, (s.call c).2.accepted⟩ := rfl
  generalize (s.call c).1 = result at hends hpass
  generalize (s.call c).2 = s' at hconfig hends hpass ⊢
  rw [hpass]
  cases hends with
  | unchanged hsame hcommitted => exact h.keep hconfig hcommitted rfl (by rw [hsame]; rfl)
  | suppressed hemit hcommitted =>
    exact published_renewed .suppressed hcommitted rfl rfl nofun (hconfig ▸ hemit)
  | @emitted artifact hemit hcommitted =>
    exact published_renewed (.emitted artifact) hcommitted rfl rfl nofun (hconfig ▸ hemit)
  | failed _ _ hcommitted => exact h.keep hconfig hcommitted rfl rfl

theorem Published.history (h : s.Published past) (calls : List Call) :
    (s.after calls).Published (past ++ s.history calls) := by
  induction calls generalizing s past with
  | nil => simpa [after, Session.history] using h
  | cons c calls ih =>
    have hrest := ih (h.call c)
    rwa [List.append_assoc] at hrest

theorem config_after (s : Session) (calls : List Call) : (s.after calls).config = s.config := by
  induction calls generalizing s with
  | nil => rfl
  | cons c calls ih => exact (ih _).trans (config_call s c)

theorem history_append (s : Session) (calls : List Call) (c : Call) :
    s.history (calls ++ [c]) = s.history calls ++ [(s.after calls).pass c] := by
  induction calls generalizing s with
  | nil => rfl
  | cons first calls ih => rw [List.cons_append, history, ih]; rfl

/-- The registry that has been given out last, if it is still the one to use. -/
theorem getLast?_givenOut {artifact : Artifact} (h : lastRenewal past = some (.emitted artifact)) :
    (givenOut past).getLast? = some artifact := by
  obtain ⟨before, hbefore⟩ := List.getLast?_eq_some_iff.mp h
  simp [givenOut, hbefore, Output.artifact?]

/-- After any calls, failed ones included, the committed set is that of the last successful pass, and
what has been given out last is the registry of this set, or that there is none as the set is empty.
A pass that comes to nothing new has found this very set, so that the registry that has been given
out last is what would be made now. A pass that fails changes neither, and fails again for the same
reason when it is repeated. -/
theorem published_matches_committed (config : Config) (calls : List Call) :
    let s := (start config).after calls
    let past := (start config).history calls
    s.committed = lastSuccess past ∧
    (∀ set, s.committed = some set →
      (∃ artifact, lastRenewal past = some (.emitted artifact) ∧
        Artifact.emit set config = .ok (some artifact)) ∨
      lastRenewal past = some .suppressed ∧ set.isEmpty = true) ∧
    ∀ c : Call,
      ((s.call c).1 = .ok .unchanged →
        s.committed = some (s.call c).2.accepted ∧ (s.call c).2.committed = s.committed ∧
        Artifact.emit (s.call c).2.accepted config =
          .ok ((lastRenewal past).bind Output.artifact?) ∧
        ∀ artifact, Artifact.emit (s.call c).2.accepted config = .ok (some artifact) →
          (givenOut past).getLast? = some artifact) ∧
      ∀ e, (s.call c).1 = .error e →
        (s.call c).2.committed = s.committed ∧
        lastRenewal ((start config).history (calls ++ [c])) = lastRenewal past ∧
        ((s.call c).2.apply []).1 = .error e := by
  intro s past
  have hpublished : s.Published past := by
    simpa using (published_start config).history calls
  have hconfig : s.config = config := config_after (start config) calls
  have hrenewal : ∀ set, s.committed = some set →
      (∃ artifact, lastRenewal past = some (.emitted artifact) ∧
        Artifact.emit set config = .ok (some artifact)) ∨
      lastRenewal past = some .suppressed ∧ Artifact.emit set config = .ok none := by
    intro set hset
    obtain ⟨output, hlast, hne, hemit⟩ := hpublished.renewal set hset
    rw [hconfig] at hemit
    cases output with
    | emitted artifact => exact .inl ⟨artifact, hlast, hemit⟩
    | unchanged => exact absurd rfl hne
    | suppressed => exact .inr ⟨hlast, hemit⟩
  refine ⟨hpublished.committed, fun set hset => ?_, fun c => ⟨fun hresult => ?_, fun e hresult => ?_⟩⟩
  · exact (hrenewal set hset).imp_right fun ⟨hlast, hemit⟩ => ⟨hlast, isEmpty_of_emit hemit⟩
  · have hends := call_ends s c
    rw [hresult] at hends
    obtain ⟨hsame, hcommitted⟩ : s.committed = some (s.call c).2.accepted ∧
        (s.call c).2.committed = s.committed := by
      cases hends with
      | unchanged hsame hcommitted => exact ⟨hsame, hcommitted⟩
    refine ⟨hsame, hcommitted, ?_⟩
    rcases hrenewal _ hsame with ⟨artifact, hlast, hemit⟩ | ⟨hlast, hemit⟩
    · rw [hlast, hemit]
      refine ⟨rfl, fun other hother => ?_⟩
      rw [getLast?_givenOut hlast]
      exact (Except.ok.inj hother)
    · rw [hlast, hemit]
      exact ⟨rfl, nofun⟩
  · have hends := call_ends s c
    rw [hresult] at hends
    obtain hcommitted : (s.call c).2.committed = s.committed := by
      cases hends with
      | failed _ _ hcommitted => exact hcommitted
    have hquiet : (s.pass c).renewal? = none := by simp [Pass.renewal?, pass, hresult]
    refine ⟨hcommitted, ?_, call_again hresult⟩
    rw [history_append, lastRenewal_append, hquiet]
    rfl

/-- A component comes, and then another one that is refused. -/
def refusedOnce : List Call :=
  [.run [⟨⟨"lib.rs", 0⟩, [], "#[Component]struct A;"⟩],
    .apply [.added ⟨⟨"lib.rs", 1⟩, [], "#[Component]struct B<T>(T);"⟩]]

/-- The refused component is given up, and what has been given out before is still right. -/
theorem published_refusedOnce :
    let s := (start {}).after refusedOnce
    let giveUp := s.call (.apply [.removed ⟨"lib.rs", 1⟩])
    (s.call (.apply [])).1 = .error (.genericComponent "B") ∧ giveUp.1 = .ok .unchanged ∧
    s.committed = some giveUp.2.accepted ∧
    Artifact.emit giveUp.2.accepted {} =
      .ok ((lastRenewal ((start {}).history refusedOnce)).bind Output.artifact?) := by
  intro s giveUp
  have hfailed : (s.call (.apply [])).1 = .error (.genericComponent "B") := by decide +kernel
  have hunchanged : giveUp.1 = .ok .unchanged := by decide +kernel
  obtain ⟨-, -, hpasses⟩ := published_matches_committed {} refusedOnce
  obtain ⟨hsame, -, hemit, -⟩ := (hpasses (.apply [.removed ⟨"lib.rs", 1⟩])).1 hunchanged
  exact ⟨hfailed, hunchanged, hsame, hemit⟩

end Session

end ComponentRegistry
