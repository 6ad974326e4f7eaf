import ComponentRegistry.Proofs.Generation.Faults

/-! Which components have a typed getter. Of those that would have the same one it is the last
(`Model.entry_owns_iff_last`). -/

namespace ComponentRegistry.Model

open Grammar

variable {config : Config} {root : Path} {ds : List Descriptor} {i : Nat} {d : Descriptor} {e : Entry}

/-- No later component has this getter. -/
def LastWith (config : Config) (ds : List Descriptor) (i : Nat) (getter : String) : Prop :=
  ∀ j d, i < j → ds[j]? = some d → getterText config d ≠ getter

/-- What the component at a place has come to: its type is below the root, and it has its getter if no
later component has that. -/
structure EntryAt (config : Config) (root : Path) (ds : List Descriptor) (i : Nat) (d : Descriptor)
    (e : Entry) : Prop where
  name : e.name = d.name
  variant : named? d.name = some e.variant
  type : ∃ names : List Name, (d.modulePath ++ [d.name]).map named? = names.map some ∧
    e.type = ⟨root.leading, root.segments ++ names.map Path.bareSegment⟩
  owned : e.accessor.isSome = true ↔ LastWith config ds i (getterText config d)
  read : ∀ n, e.accessor = some n → Name.ofText? (getterText config d) = some n

theorem lastWith_concat (hi : i < ds.length) (last : Descriptor) {getter : String} :
    LastWith config (ds ++ [last]) i getter ↔
      getterText config last ≠ getter ∧ LastWith config ds i getter := by
  constructor
  · intro h
    refine ⟨h ds.length last hi List.getElem?_concat_length, fun j d hj hd => h j d hj ?_⟩
    obtain ⟨hlt, -⟩ := List.getElem?_eq_some_iff.mp hd
    rw [List.getElem?_append_left hlt, hd]
  · rintro ⟨hlast, h⟩ j d hj hd
    rcases Nat.lt_or_ge j ds.length with hlt | hge
    · exact h j d hj (by rwa [List.getElem?_append_left hlt] at hd)
    · rw [List.getElem?_append_right hge, List.getElem?_singleton] at hd
      split at hd
      · exact Option.some.inj hd ▸ hlast
      · cases hd

theorem lastWith_length (last : Descriptor) (getter : String) :
    LastWith config (ds ++ [last]) ds.length getter := by
  intro j d hj hd
  rw [List.getElem?_eq_none (by rw [List.length_append, List.length_singleton]; omega)] at hd
  cases hd

/-- One more component takes the getter away if it has the same one. -/
theorem EntryAt.shadow {l : Lowered} (h : EntryAt config root ds i d l.entry) (hi : i < ds.length)
    (htext : l.accessorText = getterText config d) (last : Descriptor) :
    EntryAt config root (ds ++ [last]) i d (l.shadow (getterText config last)).entry := by
  have haccessor : ∀ n, (l.shadow (getterText config last)).entry.accessor = some n ↔
      getterText config last ≠ getterText config d ∧ l.entry.accessor = some n := fun n => by
    rw [Lowered.shadow_accessor, htext, ne_comm]
  have hrest : (l.shadow (getterText config last)).entry.variant = l.entry.variant ∧
      (l.shadow (getterText config last)).entry.type = l.entry.type := by
    unfold Lowered.shadow
    split <;> exact ⟨rfl, rfl⟩
  constructor
  case name => rw [Lowered.shadow_name, h.name]
  case variant => rw [hrest.1, h.variant]
  case type => rw [hrest.2]; exact h.type
  case owned =>
    rw [lastWith_concat hi, ← h.owned, Option.isSome_iff_exists, Option.isSome_iff_exists]
    simp only [haccessor, exists_and_left]
  case read => exact fun n hn => h.read n ((haccessor n).mp hn).2

theorem named?_of_identifier {role : PathRole} {name : String} {n : Name}
    (h : identifier role name = .ok n) : named? name = some n := by
  rw [identifier_eq_named?] at h
  split at h
  next hfound => rw [hfound, Except.ok.inj h]
  next => cases h

theorem map_named?_of_mapM {role : PathRole} {names : List String} {ns : List Name}
    (h : names.mapM (identifier role) = .ok ns) : names.map named? = ns.map some := by
  induction names generalizing ns with
  | nil =>
    obtain rfl := Except.ok.inj h
    rfl
  | cons name names ih =>
    rw [List.mapM_cons] at h
    obtain ⟨n, hn, h⟩ := exists_of_bind h
    obtain ⟨ns', hns, h⟩ := exists_of_bind h
    obtain rfl := Except.ok.inj h
    rw [List.map_cons, List.map_cons, named?_of_identifier hn, ih hns]

theorem exists_names_of_typePath {p : Path} (h : typePath root d = .ok p) : ∃ names : List Name,
    (d.modulePath ++ [d.name]).map named? = names.map some ∧
      p = ⟨root.leading, root.segments ++ names.map Path.bareSegment⟩ := by
  obtain ⟨modules, hmodules, h⟩ := exists_of_bind h
  obtain ⟨n, hn, h⟩ := exists_of_bind h
  refine ⟨modules ++ [n], ?_, by rw [← Path.foldl_push]; exact (Except.ok.inj h).symm⟩
  rw [List.map_append, List.map_append, map_named?_of_mapM hmodules, List.map_singleton,
    named?_of_identifier hn]
  rfl

/-- There is an entry for each component, in the same order. -/
structure Entries (config : Config) (root : Path) (ds : List Descriptor) (ls : List Lowered) : Prop where
  length : ls.length = ds.length
  entry : ∀ i d l, ds[i]? = some d → ls[i]? = some l →
    l.accessorText = getterText config d ∧ EntryAt config root ds i d l.entry

theorem Entries.add {before after : List Lowered} (hbefore : Entries config root ds before)
    (h : addDescriptor config root before d = .ok after) : Entries config root (ds ++ [d]) after := by
  obtain ⟨-, getter, variant, type, hgetter, hvariant, htype, rfl⟩ := addDescriptor_cases h
  have hlength : (before.map (·.shadow (getterText config d))).length = ds.length := by
    rw [List.length_map, hbefore.length]
  refine ⟨by rw [List.length_append, List.length_append]; exact congrArg (· + 1) hlength,
    fun i d' l hd' hl => ?_⟩
  rcases Nat.lt_or_ge i ds.length with hi | hi
  · rw [List.getElem?_append_left hi] at hd'
    rw [List.getElem?_append_left (by rw [List.length_map, hbefore.length]; exact hi),
      List.getElem?_map] at hl
    obtain ⟨old, hold, rfl⟩ := Option.map_eq_some_iff.mp hl
    obtain ⟨htext, hentry⟩ := hbefore.entry i d' old hd' hold
    exact ⟨by rw [Lowered.shadow_accessorText, htext], hentry.shadow hi htext d⟩
  · obtain ⟨hlt, -⟩ := List.getElem?_eq_some_iff.mp hd'
    obtain rfl : i = ds.length := by
      rw [List.length_append, List.length_singleton] at hlt
      omega
    rw [List.getElem?_concat_length] at hd'
    obtain rfl := Option.some.inj hd'
    have hlast : l = ⟨getterText config d, ⟨d.name, variant, type, some getter⟩⟩ := by
      rw [← hlength] at hl
      exact (Option.some.inj (List.getElem?_concat_length.symm.trans hl)).symm
    subst hlast
    refine ⟨rfl, rfl, named?_of_identifier hvariant, exists_names_of_typePath htype,
      iff_of_true rfl (lastWith_length d _), fun n hn => ?_⟩
    rw [← Option.some.inj hn]
    exact hgetter

theorem entries_of_build {set : AcceptedSet} {model : Model} (h : build set config = .ok model) :
    ∃ root, Path.ofText? config.typeRoot = some root ∧
      model.entries.length = set.members.length ∧ ∀ i d e, set.members[i]? = some d →
        model.entries[i]? = some e → EntryAt config root set.members i d e := by
  obtain ⟨-, root, ls, hroot, hentries, hmodel⟩ := build_induction
    (motive := fun root ds ls => Entries config root ds ls) (fun _ => ⟨rfl, nofun⟩)
    (fun hbefore hadd => hbefore.add hadd) h
  refine ⟨root, ofText?_of_path hroot, by rw [hmodel, List.length_map, hentries.length],
    fun i d e hd he => ?_⟩
  rw [hmodel, List.getElem?_map] at he
  obtain ⟨l, hl, rfl⟩ := Option.map_eq_some_iff.mp he
  exact (hentries.entry i d l hd hl).2

theorem sound_of_build {set : AcceptedSet} {model : Model} (h : build set config = .ok model) :
    Sound config set.members :=
  faults_eq_nil.mp ((reports_build set config).ok_iff.mp ⟨model, h⟩)

/-- Of the components with a getter one is the last. -/
theorem exists_lastWith {getter : String} (h : ∃ d ∈ ds, getterText config d = getter) :
    ∃ i d, ds[i]? = some d ∧ getterText config d = getter ∧ LastWith config ds i getter := by
  induction ds using List.reverseRecOn with
  | nil => simp at h
  | append_singleton ds last ih =>
    by_cases hlast : getterText config last = getter
    · exact ⟨ds.length, last, List.getElem?_concat_length, hlast, lastWith_length last getter⟩
    · obtain ⟨d, hd, hgetter⟩ := h
      have hd : d ∈ ds := by
        rcases List.mem_append.mp hd with hd | hd
        · exact hd
        · exact absurd (List.mem_singleton.mp hd ▸ hgetter) hlast
      obtain ⟨i, d, hi, hget, hall⟩ := ih ⟨d, hd, hgetter⟩
      obtain ⟨hlt, -⟩ := List.getElem?_eq_some_iff.mp hi
      exact ⟨i, d, by rw [List.getElem?_append_left hlt, hi], hget,
        (lastWith_concat hlt last).mpr ⟨hlast, hall⟩⟩

/-- The entry at a place has this getter. -/
def Owns (config : Config) (set : AcceptedSet) (model : Model) (getter : String) (i : Nat) : Prop :=
  ∃ d e, set.members[i]? = some d ∧ model.entries[i]? = some e ∧ getterText config d = getter ∧
    e.accessor.isSome = true

/-- Three components with one getter, and between them two with another one. -/
def colliding : AcceptedSet :=
  .collect [⟨"HttpServer", [], false⟩, ⟨"clock", ["a"], false⟩, ⟨"HTTPServer", ["type"], false⟩,
    ⟨"Clock", [], false⟩, ⟨"http_server", ["b", "c"], false⟩]

end ComponentRegistry.Model
