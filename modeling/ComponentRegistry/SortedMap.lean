/-! Finite maps as lists of entries that are sorted by their keys. Two maps with the same entries
are equal, in whatever order these were put in. -/

namespace ComponentRegistry

/-- A strict total order. -/
class KeyOrder (κ : Type) where
  lt : κ → κ → Bool
  irrefl (a : κ) : lt a a = false
  trans {a b c : κ} : lt a b = true → lt b c = true → lt a c = true
  connected {a b : κ} : lt a b = false → lt b a = false → a = b

namespace KeyOrder

/-- Compare the images under an injective function. -/
@[reducible] def on {κ ι : Type} [KeyOrder ι] (f : κ → ι) (h : ∀ {a b}, f a = f b → a = b) : KeyOrder κ where
  lt a b := lt (f a) (f b)
  irrefl a := irrefl (f a)
  trans := trans
  connected hab hba := h (connected hab hba)

instance : KeyOrder Nat where
  lt a b := decide (a < b)
  irrefl a := by simp
  trans := by simp only [decide_eq_true_eq]; omega
  connected := by simp only [decide_eq_false_iff_not]; omega

instance : KeyOrder UInt64 := on UInt64.toNat UInt64.toNat_inj.mp

instance : KeyOrder Char := on Char.toNat fun h => Char.toNat_inj.mp h

instance {κ ι : Type} [DecidableEq κ] [KeyOrder κ] [KeyOrder ι] : KeyOrder (κ × ι) where
  lt a b := lt a.1 b.1 || (a.1 == b.1 && lt a.2 b.2)
  irrefl a := by simp [irrefl]
  trans := by
    rintro ⟨a, a'⟩ ⟨b, b'⟩ ⟨c, c'⟩ h h'
    simp only [Bool.or_eq_true, Bool.and_eq_true, beq_iff_eq] at h h' ⊢
    rcases h with h | ⟨rfl, h⟩ <;> rcases h' with h' | ⟨rfl, h'⟩
    · exact .inl (trans h h')
    · exact .inl h
    · exact .inl h'
    · exact .inr ⟨rfl, trans h h'⟩
  connected := by
    rintro ⟨a, a'⟩ ⟨b, b'⟩ h h'
    simp only [Bool.or_eq_false_iff, Bool.and_eq_false_imp, beq_iff_eq] at h h'
    obtain rfl := connected h.1 h'.1
    rw [connected (h.2 rfl) (h'.2 rfl)]

/-- Lists by their first difference; a list comes after those that it starts with. -/
def listLt {κ : Type} [DecidableEq κ] [KeyOrder κ] : List κ → List κ → Bool
  | _, [] => false
  | [], _ :: _ => true
  | a :: as, b :: bs => lt a b || (a == b && listLt as bs)

instance {κ : Type} [DecidableEq κ] [KeyOrder κ] : KeyOrder (List κ) where
  lt := listLt
  irrefl as := by induction as <;> simp [listLt, irrefl, *]
  trans := by
    intro as
    induction as with
    | nil => intro bs cs h h'; cases bs <;> cases cs <;> simp_all [listLt]
    | cons a as ih =>
      intro bs cs h h'
      cases bs with
      | nil => simp [listLt] at h
      | cons b bs =>
        cases cs with
        | nil => simp [listLt] at h'
        | cons c cs =>
          simp only [listLt, Bool.or_eq_true, Bool.and_eq_true, beq_iff_eq] at h h' ⊢
          rcases h with h | ⟨rfl, h⟩ <;> rcases h' with h' | ⟨rfl, h'⟩
          · exact .inl (trans h h')
          · exact .inl h
          · exact .inl h'
          · exact .inr ⟨rfl, ih h h'⟩
  connected := by
    intro as
    induction as with
    | nil => intro bs h h'; cases bs <;> simp_all [listLt]
    | cons a as ih =>
      intro bs h h'
      cases bs with
      | nil => simp [listLt] at h'
      | cons b bs =>
        simp only [listLt, Bool.or_eq_false_iff, Bool.and_eq_false_imp, beq_iff_eq] at h h'
        obtain rfl := connected h.1 h'.1
        rw [ih (h.2 rfl) (h'.2 rfl)]

/-- Texts by their code points. -/
instance : KeyOrder String := on String.toList String.toList_inj.mp

end KeyOrder

structure SortedMap (κ ν : Type) [KeyOrder κ] where
  entries : List (κ × ν)
  sorted : entries.Pairwise fun a b => KeyOrder.lt a.1 b.1 = true

namespace SortedMap

variable {κ ν : Type} [KeyOrder κ]

@[ext] theorem ext {m n : SortedMap κ ν} (h : m.entries = n.entries) : m = n := by
  cases m; cases n; cases h; rfl

instance [DecidableEq κ] [DecidableEq ν] : DecidableEq (SortedMap κ ν) := fun m n =>
  if h : m.entries = n.entries then .isTrue (ext h) else .isFalse fun e => h (e ▸ rfl)

def empty : SortedMap κ ν := ⟨[], .nil⟩

instance : Inhabited (SortedMap κ ν) := ⟨empty⟩

def size (m : SortedMap κ ν) : Nat := m.entries.length

def keys (m : SortedMap κ ν) : List κ := m.entries.map (·.1)

/-- The values in the order of their keys. -/
def values (m : SortedMap κ ν) : List ν := m.entries.map (·.2)

/-- The value of a key in a list of entries. -/
def find? [DecidableEq κ] (key : κ) (entries : List (κ × ν)) : Option ν :=
  (entries.find? (·.1 == key)).map (·.2)

def get? [DecidableEq κ] (m : SortedMap κ ν) (key : κ) : Option ν := find? key m.entries

def contains [DecidableEq κ] (m : SortedMap κ ν) (key : κ) : Bool := (m.get? key).isSome

/-- An entry in its place, instead of the one with the same key. -/
def put (key : κ) (value : ν) : List (κ × ν) → List (κ × ν)
  | [] => [(key, value)]
  | (other, found) :: rest =>
    if KeyOrder.lt key other then (key, value) :: (other, found) :: rest
    else if KeyOrder.lt other key then (other, found) :: put key value rest
    else (key, value) :: rest

theorem mem_put {key : κ} {value : ν} {e : κ × ν} {entries : List (κ × ν)}
    (h : e ∈ put key value entries) : e = (key, value) ∨ e ∈ entries := by
  induction entries with
  | nil => simpa [put] using h
  | cons hd tl ih =>
    unfold put at h
    split at h
    · simpa using h
    · split at h
      · rcases List.mem_cons.mp h with rfl | h
        · simp
        · exact (ih h).imp_right (List.mem_cons_of_mem _)
      · rcases List.mem_cons.mp h with rfl | h
        · simp
        · exact .inr (List.mem_cons_of_mem _ h)

theorem sorted_put (key : κ) (value : ν) {entries : List (κ × ν)}
    (h : entries.Pairwise fun a b => KeyOrder.lt a.1 b.1 = true) :
    (put key value entries).Pairwise fun a b => KeyOrder.lt a.1 b.1 = true := by
  induction entries with
  | nil => simp [put]
  | cons hd tl ih =>
    obtain ⟨hlt, htl⟩ := List.pairwise_cons.mp h
    unfold put
    split <;> rename_i hk
    · refine List.pairwise_cons.mpr ⟨fun e he => ?_, h⟩
      rcases List.mem_cons.mp he with rfl | he
      · exact hk
      · exact KeyOrder.trans hk (hlt e he)
    · split <;> rename_i hk'
      · refine List.pairwise_cons.mpr ⟨fun e he => ?_, ih htl⟩
        rcases mem_put he with rfl | he
        · exact hk'
        · exact hlt e he
      · obtain rfl := KeyOrder.connected (Bool.not_eq_true _ ▸ hk) (Bool.not_eq_true _ ▸ hk')
        exact List.pairwise_cons.mpr ⟨hlt, htl⟩

def insert (m : SortedMap κ ν) (key : κ) (value : ν) : SortedMap κ ν :=
  ⟨put key value m.entries, sorted_put key value m.sorted⟩

/-- The entries that `keep` holds of. -/
def filter (m : SortedMap κ ν) (keep : κ → ν → Bool) : SortedMap κ ν :=
  ⟨m.entries.filter fun e => keep e.1 e.2, m.sorted.filter _⟩

def erase [DecidableEq κ] (m : SortedMap κ ν) (key : κ) : SortedMap κ ν :=
  m.filter fun other _ => other != key

/-! What the operations do to the value of a key. -/

omit [KeyOrder κ] in
theorem find?_cons [DecidableEq κ] (key : κ) (e : κ × ν) (entries : List (κ × ν)) :
    find? key (e :: entries) = if e.1 = key then some e.2 else find? key entries := by
  by_cases h : e.1 = key <;> simp [find?, h]

omit [KeyOrder κ] in
theorem find?_eq_none [DecidableEq κ] {key : κ} {entries : List (κ × ν)}
    (h : ∀ e ∈ entries, e.1 ≠ key) : find? key entries = none := by
  simpa [find?] using h

theorem find?_put [DecidableEq κ] (key other : κ) (value : ν) (entries : List (κ × ν)) :
    find? other (put key value entries) =
      if other = key then some value else find? other entries := by
  induction entries with
  | nil => simp [put, find?_cons, eq_comm]
  | cons hd tl ih =>
    unfold put
    split <;> rename_i hk
    · simp [find?_cons, eq_comm]
    · split <;> rename_i hk'
      · have hne : ¬hd.1 = key := fun e => by simp [e, KeyOrder.irrefl] at hk'
        rw [find?_cons, find?_cons, ih]
        by_cases h : hd.1 = other
        · simp [h, h ▸ hne]
        · simp [h]
      · obtain rfl := KeyOrder.connected (Bool.not_eq_true _ ▸ hk) (Bool.not_eq_true _ ▸ hk')
        by_cases h : other = hd.1
        · simp [find?_cons, h]
        · simp [find?_cons, h, Ne.symm h]

theorem find?_filter [DecidableEq κ] (key : κ) (keep : κ → ν → Bool) {entries : List (κ × ν)}
    (h : entries.Pairwise fun a b => KeyOrder.lt a.1 b.1 = true) :
    find? key (entries.filter fun e => keep e.1 e.2) = (find? key entries).filter (keep key) := by
  induction entries with
  | nil => rfl
  | cons hd tl ih =>
    obtain ⟨hlt, htl⟩ := List.pairwise_cons.mp h
    rw [List.filter_cons, find?_cons]
    by_cases hk : hd.1 = key
    · subst hk
      have hnone : find? hd.1 tl = none := find?_eq_none fun e he h => by
        simpa [h, KeyOrder.irrefl] using hlt e he
      by_cases hp : keep hd.1 hd.2 <;> simp [hp, find?_cons, ih htl, hnone, Option.filter]
    · by_cases hp : keep hd.1 hd.2 <;> simp [hp, find?_cons, hk, ih htl]

@[simp] theorem get?_empty [DecidableEq κ] (key : κ) : (empty : SortedMap κ ν).get? key = none := rfl

theorem get?_insert [DecidableEq κ] (m : SortedMap κ ν) (key other : κ) (value : ν) :
    (m.insert key value).get? other = if other = key then some value else m.get? other :=
  find?_put key other value m.entries

theorem get?_filter [DecidableEq κ] (m : SortedMap κ ν) (keep : κ → ν → Bool) (key : κ) :
    (m.filter keep).get? key = (m.get? key).filter (keep key) :=
  find?_filter key keep m.sorted

theorem get?_erase [DecidableEq κ] (m : SortedMap κ ν) (key other : κ) :
    (m.erase key).get? other = if other = key then none else m.get? other := by
  rw [erase, get?_filter]
  split <;> rename_i h
  · subst h; cases m.get? other <;> simp [Option.filter]
  · cases m.get? other <;> simp [Option.filter, h]

end SortedMap

end ComponentRegistry
