import ComponentRegistry.Proofs.SortedMap
import ComponentRegistry.Generation.AcceptedSet
import Mathlib.Data.List.Induction

/-! Of the descriptions that share a name the last one is kept, where it stands
(`AcceptedSet.collect_keeps_last`). The same is found in two passes, the first of which notes the
place of every name. -/

namespace ComponentRegistry.AcceptedSet

theorem mem_names_lastOfEach {name : String} {ds : List Descriptor} :
    name ∈ (lastOfEach ds).map Descriptor.name ↔ name ∈ ds.map Descriptor.name := by
  constructor
  · exact fun h => ((lastOfEach_sublist ds).map _).subset h
  · intro h
    induction ds with
    | nil => cases h
    | cons d rest ih =>
      rw [lastOfEach]
      split
      next hlater =>
        rcases List.mem_cons.mp h with rfl | h
        · obtain ⟨e, he, hname⟩ := List.any_eq_true.mp hlater
          exact ih (List.mem_map.mpr ⟨e, he, by simpa using hname⟩)
        · exact ih h
      next =>
        rcases List.mem_cons.mp h with rfl | h
        · exact List.mem_cons_self
        · exact List.mem_cons_of_mem _ (ih h)

/-- What stands later takes the names away that it has, and is kept itself. -/
theorem lastOfEach_append (ds more : List Descriptor) : lastOfEach (ds ++ more) =
    (lastOfEach ds).filter (fun d => d.name ∉ more.map Descriptor.name) ++ lastOfEach more := by
  induction ds with
  | nil => rfl
  | cons d rest ih =>
    have hany : more.any (·.name == d.name) = true ↔ d.name ∈ more.map Descriptor.name := by simp
    rw [List.cons_append, lastOfEach, lastOfEach, ih]
    simp only [List.any_append, Bool.or_eq_true, hany]
    by_cases hrest : rest.any (·.name == d.name) = true
    · rw [if_pos (.inl hrest), if_pos hrest]
    · by_cases hmore : d.name ∈ more.map Descriptor.name
      · rw [if_pos (.inr hmore), if_neg hrest, List.filter_cons_of_neg (by simpa using hmore)]
      · rw [if_neg (not_or.mpr ⟨hrest, hmore⟩), if_neg hrest,
          List.filter_cons_of_pos (by simpa using hmore), List.cons_append]

theorem lastOfEach_of_nodup {ds : List Descriptor} (h : (ds.map Descriptor.name).Nodup) :
    lastOfEach ds = ds := by
  induction ds with
  | nil => rfl
  | cons d rest ih =>
    obtain ⟨hd, hrest⟩ := List.nodup_cons.mp h
    have hnone : ¬rest.any (·.name == d.name) = true := by simpa using hd
    rw [lastOfEach, if_neg hnone, ih hrest]

/-- The last place of every name. -/
def lastPlaces (ds : List Descriptor) : SortedMap String Nat :=
  SortedMap.empty.insertAll (ds.zipIdx.map fun p => (p.1.name, p.2))

/-- The descriptions that stand at the last place of their name, with these places. -/
def kept (ds : List Descriptor) : List (Descriptor × Nat) :=
  ds.zipIdx.filter fun p => (lastPlaces ds).get? p.1.name == some p.2

theorem get?_lastPlaces_concat (ds : List Descriptor) (d : Descriptor) (name : String) :
    (lastPlaces (ds ++ [d])).get? name =
      if name = d.name then some ds.length else (lastPlaces ds).get? name := by
  have hconcat : lastPlaces (ds ++ [d]) = (lastPlaces ds).insert d.name ds.length := by
    simp [lastPlaces, SortedMap.insertAll, List.zipIdx_append]
  rw [hconcat, SortedMap.get?_insert]

theorem kept_concat (ds : List Descriptor) (d : Descriptor) :
    kept (ds ++ [d]) = (kept ds).filter (fun p => p.1.name ≠ d.name) ++ [(d, ds.length)] := by
  have hplace : ∀ p ∈ ds.zipIdx, ((lastPlaces (ds ++ [d])).get? p.1.name == some p.2) =
      (decide (p.1.name ≠ d.name) && (lastPlaces ds).get? p.1.name == some p.2) := by
    rintro ⟨e, i⟩ hp
    -- A place of the old list is not the one behind its end.
    have hi : i < ds.length := by simpa using List.snd_lt_of_mem_zipIdx hp
    rw [get?_lastPlaces_concat]
    by_cases hname : e.name = d.name
    · have hne : ds.length ≠ i := by omega
      simp [hname, hne]
    · simp [hname]
  have hlast : (lastPlaces (ds ++ [d])).get? d.name = some ds.length := by
    rw [get?_lastPlaces_concat, if_pos rfl]
  rw [kept, kept, List.zipIdx_append, List.filter_append, List.filter_filter,
    List.filter_congr hplace]
  simp [hlast]

theorem map_fst_kept (ds : List Descriptor) : (kept ds).map (·.1) = lastOfEach ds := by
  induction ds using List.reverseRecOn with
  | nil => rfl
  | append_singleton ds d ih =>
    have hfilter : ((kept ds).filter fun p => p.1.name ≠ d.name).map (·.1) =
        (lastOfEach ds).filter (fun e => e.name ∉ [d].map Descriptor.name) := by
      rw [← ih, List.filter_map]
      simp [Function.comp_def]
    rw [kept_concat, List.map_append, hfilter, lastOfEach_append]
    rfl

theorem places_kept (ds : List Descriptor) : ((kept ds).map (·.2)).Pairwise (· < ·) := by
  have hsublist : ((kept ds).map (·.2)).Sublist (ds.zipIdx.map (·.2)) := List.filter_sublist.map _
  rw [List.zipIdx_map_snd] at hsublist
  exact List.Pairwise.sublist hsublist (List.pairwise_lt_range' ..)

/-- What is kept stands at its place, and its name at no later one. -/
theorem mem_kept_iff {ds : List Descriptor} {d : Descriptor} {i : Nat} : (d, i) ∈ kept ds ↔
    ds[i]? = some d ∧ ∀ j e, i < j → ds[j]? = some e → e.name ≠ d.name := by
  induction ds using List.reverseRecOn with
  | nil => simp [kept]
  | append_singleton ds last ih =>
    rw [kept_concat, List.mem_append, List.mem_filter, ih, List.mem_singleton, Prod.mk.injEq]
    constructor
    · rintro (⟨⟨hd, hlater⟩, hname⟩ | ⟨rfl, rfl⟩)
      · obtain ⟨hi, -⟩ := List.getElem?_eq_some_iff.mp hd
        refine ⟨by rw [List.getElem?_append_left hi, hd], fun j e hj he => ?_⟩
        rcases Nat.lt_or_ge j ds.length with hlt | hge
        · exact hlater j e hj (by rwa [List.getElem?_append_left hlt] at he)
        · rw [List.getElem?_append_right hge, List.getElem?_singleton] at he
          split at he
          · obtain rfl := Option.some.inj he
            exact Ne.symm (by simpa using hname)
          · cases he
      · refine ⟨List.getElem?_concat_length, fun j e hj he => ?_⟩
        rw [List.getElem?_eq_none (by rw [List.length_append, List.length_singleton]; omega)] at he
        cases he
    · rintro ⟨hd, hlater⟩
      rcases Nat.lt_or_ge i ds.length with hlt | hge
      · rw [List.getElem?_append_left hlt] at hd
        refine .inl ⟨⟨hd, fun j e hj he => hlater j e hj ?_⟩, ?_⟩
        · obtain ⟨hjlt, -⟩ := List.getElem?_eq_some_iff.mp he
          rw [List.getElem?_append_left hjlt, he]
        · simpa using (hlater ds.length last hlt List.getElem?_concat_length).symm
      · rw [List.getElem?_append_right hge, List.getElem?_singleton] at hd
        split at hd
        next hi => exact .inr ⟨(Option.some.inj hd).symm, by omega⟩
        next => cases hd

/-- Of some descriptions the set keeps the last one of every name, in the order in which they stand.
The two passes over the places find the same. A set that is collected again is the same, and that of
two lists in a row is the second one after what is left of the first one without the names of the
second list. -/
theorem collect_keeps_last (ds : List Descriptor) :
    ((collect ds).members.Sublist ds ∧ (collect ds).names.Nodup ∧
      ∀ name, name ∈ (collect ds).names ↔ name ∈ ds.map Descriptor.name) ∧
    (∃ places : List Nat, places.Pairwise (· < ·) ∧
      (collect ds).members.map some = places.map (ds[·]?) ∧
      ∀ i, i ∈ places ↔ ∃ d, ds[i]? = some d ∧ ∀ j e, i < j → ds[j]? = some e → e.name ≠ d.name) ∧
    (collect ds).members = (kept ds).map (·.1) ∧
    collect (collect ds).members = collect ds ∧
    ∀ more, (collect (ds ++ more)).members =
      (collect ds).members.filter (fun d => d.name ∉ more.map Descriptor.name) ++
        (collect more).members := by
  refine ⟨⟨lastOfEach_sublist ds, lastOfEach_distinct ds, fun _ => mem_names_lastOfEach⟩,
    ⟨(kept ds).map (·.2), places_kept ds, ?_, fun i => ?_⟩, (map_fst_kept ds).symm, ?_,
    lastOfEach_append ds⟩
  · have hmembers : (collect ds).members = (kept ds).map (·.1) := (map_fst_kept ds).symm
    rw [hmembers, List.map_map, List.map_map]
    exact List.map_congr_left fun p hp => (mem_kept_iff.mp hp).1.symm
  · rw [List.mem_map]
    constructor
    · rintro ⟨⟨d, i⟩, hp, rfl⟩
      exact ⟨d, mem_kept_iff.mp hp⟩
    · rintro ⟨d, hd⟩
      exact ⟨(d, i), mem_kept_iff.mpr hd, rfl⟩
  · have hsame : lastOfEach (lastOfEach ds) = lastOfEach ds :=
      lastOfEach_of_nodup (lastOfEach_distinct ds)
    simp only [collect, hsame]

example : (collect [⟨"A", [], false⟩, ⟨"B", [], false⟩, ⟨"A", ["m"], true⟩]).members =
    [⟨"B", [], false⟩, ⟨"A", ["m"], true⟩] := by decide

end ComponentRegistry.AcceptedSet
