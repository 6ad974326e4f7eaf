import ComponentRegistry.SortedMap

/-! Entries and values of finite maps, and maps whose values are changed one by one. -/

namespace ComponentRegistry.SortedMap

variable {κ ν μ : Type} [KeyOrder κ] [DecidableEq κ]

omit [KeyOrder κ] in
theorem mem_of_find? {key : κ} {value : ν} {entries : List (κ × ν)}
    (h : find? key entries = some value) : (key, value) ∈ entries := by
  obtain ⟨e, he, rfl⟩ := Option.map_eq_some_iff.mp h
  have hkey : e.1 = key := by simpa using List.find?_some he
  exact hkey ▸ List.mem_of_find?_eq_some he

theorem find?_of_mem {key : κ} {value : ν} {entries : List (κ × ν)}
    (hs : entries.Pairwise fun a b => KeyOrder.lt a.1 b.1 = true) (h : (key, value) ∈ entries) :
    find? key entries = some value := by
  induction entries with
  | nil => cases h
  | cons e entries ih =>
    obtain ⟨hlt, hs⟩ := List.pairwise_cons.mp hs
    rw [find?_cons]
    rcases List.mem_cons.mp h with rfl | h
    · rw [if_pos rfl]
    · have hne : e.1 ≠ key := fun he => by
        simpa [he, KeyOrder.irrefl] using hlt _ h
      rw [if_neg hne, ih hs h]

theorem mem_entries_iff {m : SortedMap κ ν} {key : κ} {value : ν} :
    (key, value) ∈ m.entries ↔ m.get? key = some value :=
  ⟨find?_of_mem m.sorted, mem_of_find?⟩

theorem get?_of_mem_values {m : SortedMap κ ν} {value : ν} (h : value ∈ m.values) :
    ∃ key, m.get? key = some value := by
  obtain ⟨⟨key, _⟩, he, rfl⟩ := List.mem_map.mp h
  exact ⟨key, mem_entries_iff.mp he⟩

omit [DecidableEq κ] in
theorem nodup_keys (m : SortedMap κ ν) : m.keys.Nodup := by
  refine List.pairwise_map.mpr (m.sorted.imp fun hlt heq => ?_)
  rw [heq, KeyOrder.irrefl] at hlt
  cases hlt

theorem mem_keys_iff {m : SortedMap κ ν} {key : κ} : key ∈ m.keys ↔ m.contains key = true := by
  rw [contains, Option.isSome_iff_exists, keys, List.mem_map]
  constructor
  · rintro ⟨⟨key, value⟩, he, rfl⟩
    exact ⟨value, mem_entries_iff.mp he⟩
  · rintro ⟨value, hvalue⟩
    exact ⟨(key, value), mem_entries_iff.mpr hvalue, rfl⟩

theorem mem_values_iff {m : SortedMap κ ν} {value : ν} :
    value ∈ m.values ↔ ∃ key, m.get? key = some value := by
  refine ⟨get?_of_mem_values, fun ⟨key, hkey⟩ => ?_⟩
  exact List.mem_map.mpr ⟨(key, value), mem_entries_iff.mpr hkey, rfl⟩

/-- The map with the image of every value. -/
def mapValues (f : ν → μ) (m : SortedMap κ ν) : SortedMap κ μ :=
  ⟨m.entries.map fun e => (e.1, f e.2), List.pairwise_map.mpr m.sorted⟩

omit [DecidableEq κ] in
theorem put_map (f : ν → μ) (key : κ) (value : ν) (entries : List (κ × ν)) :
    put key (f value) (entries.map fun e => (e.1, f e.2)) =
      (put key value entries).map fun e => (e.1, f e.2) := by
  induction entries with
  | nil => rfl
  | cons e entries ih =>
    simp only [List.map_cons, put]
    split
    · rfl
    · split
      · rw [ih]; rfl
      · rfl

omit [DecidableEq κ] in
@[simp] theorem mapValues_empty (f : ν → μ) : (empty : SortedMap κ ν).mapValues f = empty := rfl

omit [DecidableEq κ] in
theorem mapValues_insert (f : ν → μ) (m : SortedMap κ ν) (key : κ) (value : ν) :
    (m.insert key value).mapValues f = (m.mapValues f).insert key (f value) :=
  ext (put_map f key value m.entries).symm

theorem mapValues_erase (f : ν → μ) (m : SortedMap κ ν) (key : κ) :
    (m.erase key).mapValues f = (m.mapValues f).erase key := by
  ext1
  simp only [mapValues, erase, filter, List.filter_map]
  rfl

omit [DecidableEq κ] in
theorem values_mapValues (f : ν → μ) (m : SortedMap κ ν) :
    (m.mapValues f).values = m.values.map f := by
  simp [values, mapValues]

theorem get?_mapValues (f : ν → μ) (m : SortedMap κ ν) (key : κ) :
    (m.mapValues f).get? key = (m.get? key).map f := by
  simp only [get?, mapValues]
  induction m.entries with
  | nil => rfl
  | cons e entries ih =>
    rw [List.map_cons, find?_cons, find?_cons, ih]
    split <;> rfl

/-! Changes at different keys can be made in either order. -/

/-- Maps in which every key has the same value are equal. -/
theorem ext_get? {m n : SortedMap κ ν} (h : ∀ key, m.get? key = n.get? key) : m = n := by
  have hnodup : ∀ m : SortedMap κ ν, m.entries.Nodup := fun m =>
    m.sorted.imp fun hlt heq => by simp [heq, KeyOrder.irrefl] at hlt
  have hperm : m.entries.Perm n.entries := by
    refine (List.perm_ext_iff_of_nodup (hnodup m) (hnodup n)).mpr fun ⟨key, value⟩ => ?_
    rw [mem_entries_iff, mem_entries_iff, h]
  refine ext (hperm.eq_of_pairwise (fun a b _ _ hab hba => ?_) m.sorted n.sorted)
  simpa [KeyOrder.irrefl] using KeyOrder.trans hab hba

theorem insert_comm (m : SortedMap κ ν) {a b : κ} (h : a ≠ b) (x y : ν) :
    (m.insert a x).insert b y = (m.insert b y).insert a x := by
  refine ext_get? fun key => ?_
  simp only [get?_insert]
  by_cases ha : key = a
  · rw [if_pos ha, if_neg (ha ▸ h), if_pos ha]
  · rw [if_neg ha, if_neg ha]

theorem erase_insert_comm (m : SortedMap κ ν) {a b : κ} (h : a ≠ b) (y : ν) :
    (m.erase a).insert b y = (m.insert b y).erase a := by
  refine ext_get? fun key => ?_
  simp only [get?_insert, get?_erase]
  by_cases ha : key = a
  · rw [if_pos ha, if_neg (ha ▸ h), if_pos ha]
  · rw [if_neg ha, if_neg ha]

theorem erase_comm (m : SortedMap κ ν) (a b : κ) : (m.erase a).erase b = (m.erase b).erase a := by
  refine ext_get? fun key => ?_
  simp only [get?_erase]
  split <;> split <;> rfl

/-! Entries that are put in one after another. -/

theorem find?_eq_none_of_lt {key : κ} {entries : List (κ × ν)}
    (h : ∀ e ∈ entries, KeyOrder.lt key e.1 = true) : find? key entries = none :=
  find?_eq_none fun e he heq => by simpa [heq, KeyOrder.irrefl] using h e he

theorem length_put {key : κ} (value : ν) {entries : List (κ × ν)}
    (h : entries.Pairwise fun a b => KeyOrder.lt a.1 b.1 = true) :
    (put key value entries).length =
      if (find? key entries).isSome then entries.length else entries.length + 1 := by
  induction entries with
  | nil => rfl
  | cons e entries ih =>
    obtain ⟨hlt, hs⟩ := List.pairwise_cons.mp h
    rw [put, find?_cons]
    split
    next hkey =>
      have hne : e.1 ≠ key := fun heq => by simp [heq, KeyOrder.irrefl] at hkey
      have hnone := find?_eq_none_of_lt fun e' he' => KeyOrder.trans hkey (hlt e' he')
      simp [hne, hnone]
    next hkey =>
      split
      next hkey' =>
        have hne : e.1 ≠ key := fun heq => by simp [heq, KeyOrder.irrefl] at hkey'
        rw [if_neg hne, List.length_cons, ih hs]
        split <;> rfl
      next hkey' =>
        have heq : key = e.1 :=
          KeyOrder.connected (Bool.not_eq_true _ ▸ hkey) (Bool.not_eq_true _ ▸ hkey')
        rw [if_pos heq.symm]
        rfl

theorem size_insert (m : SortedMap κ ν) (key : κ) (value : ν) :
    (m.insert key value).size = if (m.get? key).isSome then m.size else m.size + 1 :=
  length_put value m.sorted

/-- The map with all these entries; of two with the same key the later one counts. -/
def insertAll (m : SortedMap κ ν) (entries : List (κ × ν)) : SortedMap κ ν :=
  entries.foldl (fun m e => m.insert e.1 e.2) m

theorem size_insertAll_le (m : SortedMap κ ν) (entries : List (κ × ν)) :
    (m.insertAll entries).size ≤ m.size + entries.length := by
  induction entries generalizing m with
  | nil => exact Nat.le_refl _
  | cons e entries ih =>
    have hsize := size_insert m e.1 e.2
    have hrest : (m.insertAll (e :: entries)).size ≤ (m.insert e.1 e.2).size + entries.length :=
      ih (m.insert e.1 e.2)
    rw [List.length_cons]
    split at hsize <;> omega

theorem get?_insertAll_of_notMem {m : SortedMap κ ν} {entries : List (κ × ν)} {key : κ}
    (h : key ∉ entries.map (·.1)) : (m.insertAll entries).get? key = m.get? key := by
  induction entries generalizing m with
  | nil => rfl
  | cons e entries ih =>
    obtain ⟨hne, hnot⟩ : key ≠ e.1 ∧ key ∉ entries.map (·.1) := by simpa using h
    exact (ih (m := m.insert e.1 e.2) hnot).trans (by rw [get?_insert, if_neg hne])

/-- What a map has come to hold has been there before, or has been put in. -/
theorem mem_of_get?_insertAll {m : SortedMap κ ν} {entries : List (κ × ν)} {key : κ} {value : ν}
    (h : (m.insertAll entries).get? key = some value) :
    m.get? key = some value ∨ (key, value) ∈ entries := by
  induction entries generalizing m with
  | nil => exact .inl h
  | cons e entries ih =>
    rcases ih (m := m.insert e.1 e.2) h with hfirst | hrest
    · rw [get?_insert] at hfirst
      split at hfirst
      next heq =>
        obtain rfl := Option.some.inj hfirst
        exact .inr (heq ▸ List.mem_cons_self)
      next => exact .inl hfirst
    · exact .inr (List.mem_cons_of_mem _ hrest)

/-- With different keys all entries stay. -/
theorem get?_insertAll {m : SortedMap κ ν} {entries : List (κ × ν)}
    (h : (entries.map (·.1)).Nodup) {e : κ × ν} (he : e ∈ entries) :
    (m.insertAll entries).get? e.1 = some e.2 := by
  induction entries generalizing m with
  | nil => cases he
  | cons first entries ih =>
    obtain ⟨hfirst, hnodup⟩ := List.nodup_cons.mp h
    rcases List.mem_cons.mp he with rfl | he
    · exact (get?_insertAll_of_notMem (m := m.insert e.1 e.2) hfirst).trans
        (by rw [get?_insert, if_pos rfl])
    · exact ih (m := m.insert first.1 first.2) hnodup he

/-- A map has as many entries more as have been put in, if and only if their keys are new and
different. -/
theorem size_insertAll_eq_iff (m : SortedMap κ ν) (entries : List (κ × ν)) :
    (m.insertAll entries).size = m.size + entries.length ↔
      (entries.map (·.1)).Nodup ∧ ∀ e ∈ entries, m.get? e.1 = none := by
  induction entries generalizing m with
  | nil => simp [insertAll]
  | cons first entries ih =>
    have hle := size_insertAll_le (m.insert first.1 first.2) entries
    have hsize := size_insert m first.1 first.2
    have hinsert : m.insertAll (first :: entries) =
      (m.insert first.1 first.2).insertAll entries := rfl
    rw [hinsert, List.map_cons, List.nodup_cons, List.forall_mem_cons, List.length_cons]
    cases hfirst : m.get? first.1 with
    | some value =>
      rw [hfirst, Option.isSome_some, if_pos rfl] at hsize
      simp only [reduceCtorEq, false_and, and_false, iff_false]
      omega
    | none =>
      rw [hfirst, Option.isSome_none, if_neg Bool.false_ne_true] at hsize
      have hcount : ((m.insert first.1 first.2).insertAll entries).size =
          m.size + (entries.length + 1) ↔ ((m.insert first.1 first.2).insertAll entries).size =
          (m.insert first.1 first.2).size + entries.length := by omega
      rw [hcount, ih]
      simp only [get?_insert, List.mem_map, not_exists, not_and, true_and]
      constructor
      · rintro ⟨hnodup, hnew⟩
        refine ⟨⟨fun e he heq => ?_, hnodup⟩, fun e he => ?_⟩
        · simpa [heq] using hnew e he
        · have hne : e.1 ≠ first.1 := fun heq => by simpa [heq] using hnew e he
          simpa [hne] using hnew e he
      · rintro ⟨⟨hdifferent, hnodup⟩, hnew⟩
        exact ⟨hnodup, fun e he => by rw [if_neg (hdifferent e he), hnew e he]⟩

end ComponentRegistry.SortedMap
