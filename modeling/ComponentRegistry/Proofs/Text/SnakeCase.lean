import ComponentRegistry.Proofs.Token.Word
import ComponentRegistry.Text.SnakeCase

/-! The characters of a name in snake case: each is an underscore, or comes from a letter or digit of the
name (`Text.mem_snakeCase`). They are neither blank nor one of the marks of comments and raw names
(`Text.isSolid_of_snakeCase`). -/

namespace ComponentRegistry.Text

/-- The character is neither blank nor a mark of comments or raw names, nor that of byte order. -/
def isSolid (c : Char) : Bool := !isBlank c && !(['/', '!', '#', '\ufeff'].contains c)

/-- The code points of the other characters. -/
def brokenPoints : List Nat :=
  [0x09, 0x0A, 0x0B, 0x0C, 0x0D, 0x20, 0x21, 0x23, 0x2F, 0xFEFF] ++ wideBlanks

theorem mem_brokenPoints {c : Char} (h : isSolid c = false) : c.toNat ∈ brokenPoints := by
  cases hascii : isAscii c with
  | true =>
    have hall := of_isAscii (p := fun c => isSolid c || brokenPoints.contains c.toNat) (by decide +kernel)
      hascii
    rw [h, Bool.false_or] at hall
    exact List.contains_iff_mem.mp hall
  | false =>
    cases hblank : isBlank c with
    | true => exact List.mem_append_right _ (mem_wideBlanks hblank hascii)
    | false =>
      have hmark : ['/', '!', '#', '\ufeff'].contains c = true := by
        rwa [isSolid, hblank, Bool.not_false, Bool.true_and, Bool.not_eq_false'] at h
      have hall : (['/', '!', '#', '\ufeff'].all (brokenPoints.contains ·.toNat)) = true := by
        decide +kernel
      exact List.contains_iff_mem.mp (List.all_eq_true.mp hall c (List.contains_iff_mem.mp hmark))

theorem not_alphanumeric_of_brokenPoints : ∀ n ∈ brokenPoints,
    isAlphanumeric (Char.ofNat n) = false ∧ isIdentContinue (Char.ofNat n) = false := by
  decide +kernel

theorem isSolid_of_alphanumeric {c : Char} (h : isAlphanumeric c = true ∨ isIdentContinue c = true) :
    isSolid c = true := by
  cases hsolid : isSolid c with
  | true => rfl
  | false =>
    obtain ⟨hnot, hnot'⟩ := not_alphanumeric_of_brokenPoints _ (mem_brokenPoints hsolid)
    rw [Char.ofNat_toNat] at hnot hnot'
    rw [hnot, hnot'] at h
    simp at h

/-- No character that is not solid is the lower-case form of another one. -/
theorem lowerMapStrides_brokenPoints : ∀ e ∈ lowerMapStrides, ∀ n ∈ brokenPoints,
    (n : Int) < e.1 + e.2.2.2 ∨ e.2.1 + e.2.2.2 < (n : Int) := by
  decide +kernel

theorem isSolid_of_lowercase {c d : Char} (h : isAlphanumeric c = true) (hd : d ∈ lowercase c) :
    isSolid d = true := by
  unfold lowercase at hd
  split at hd
  next hascii =>
    obtain rfl := List.mem_singleton.mp hd
    have hall := of_isAscii (p := fun c => !isAlphanumeric c || isSolid c.toLower) (by decide +kernel)
      hascii
    rwa [h, Bool.not_true, Bool.false_or] at hall
  next =>
  split at hd
  next =>
    have hall : (['i', '\u0307'].all isSolid) = true := by decide +kernel
    exact List.all_eq_true.mp hall d hd
  next =>
  split at hd
  next first last step distance hstride =>
    cases hsolid : isSolid d with
    | true => rfl
    | false =>
      have hbroken := mem_brokenPoints hsolid
      obtain hfar := lowerMapStrides_brokenPoints _ (List.mem_of_find?_eq_some hstride) _ hbroken
      have hreach : inStride c first last step = true := by simpa using List.find?_some hstride
      simp only [inStride, Bool.and_eq_true, decide_eq_true_eq] at hreach
      have hne : d.toNat ≠ 0 := by
        intro hzero
        have hnone : 0 ∉ brokenPoints := by decide
        exact hnone (hzero ▸ hbroken)
      have hpoint : d.toNat = (c.toNat + distance).toNat ∨ d.toNat = 0 := by
        rw [List.mem_singleton.mp hd]
        by_cases hvalid : (c.toNat + distance).toNat.isValidChar
        · exact .inl (by rw [Char.ofNat, dif_pos hvalid]; rfl)
        · exact .inr (by rw [Char.ofNat, dif_neg hvalid]; rfl)
      have hpoint := hpoint.resolve_right hne
      dsimp only at hfar
      omega
  next => exact List.mem_singleton.mp hd ▸ isSolid_of_alphanumeric (.inl h)

/-- The pieces have only the letters and digits of the name. -/
theorem mem_of_pieces {cs : List Char} :
    ∀ piece ∈ pieces cs, ∀ c ∈ piece, c ∈ cs ∧ isAlphanumeric c = true := by
  induction cs with
  | nil => simp [pieces]
  | cons c cs ih =>
    have hmore : ∀ piece ∈ pieces cs, ∀ k ∈ piece, k ∈ c :: cs ∧ isAlphanumeric k = true :=
      fun piece hpiece k hk => (ih piece hpiece k hk).imp_left (List.mem_cons_of_mem _)
    rw [pieces]
    split
    next hc =>
      have hfirst : c ∈ c :: cs ∧ isAlphanumeric c = true := ⟨List.mem_cons_self, hc⟩
      split
      next first more hpieces =>
        rw [hpieces] at hmore
        obtain ⟨hpiece, hmore⟩ := List.forall_mem_cons.mp hmore
        exact List.forall_mem_cons.mpr ⟨List.forall_mem_cons.mpr ⟨hfirst, hpiece⟩, hmore⟩
      next => simpa using hc
    next => exact List.forall_mem_cons.mpr ⟨nofun, hmore⟩

/-- The words of a piece have no other characters. -/
theorem mem_of_wordsFrom {mode : WordCase} {word cs : List Char} :
    ∀ found ∈ wordsFrom mode word cs, ∀ c ∈ found, c ∈ word ∨ c ∈ cs := by
  fun_induction wordsFrom mode word cs with
  | case1 => simp
  | case2 mode word c =>
    intro found hfound k hk
    rw [List.mem_singleton.mp hfound, List.mem_reverse, List.mem_cons] at hk
    exact hk.elim (fun hk => .inr (hk ▸ List.mem_cons_self)) .inl
  | case3 mode word c d rest hlower ih =>
    refine List.forall_mem_cons.mpr ⟨fun k hk => ?_, fun found hfound k hk => ?_⟩
    · rw [List.mem_reverse, List.mem_cons] at hk
      exact hk.elim (fun hk => .inr (hk ▸ List.mem_cons_self)) .inl
    · exact .inr (List.mem_cons_of_mem _ ((ih found hfound k hk).resolve_left (by simp)))
  | case4 mode word c d rest _ hupper ih =>
    refine List.forall_mem_cons.mpr ⟨fun k hk => ?_, fun found hfound k hk => ?_⟩
    · exact .inl (List.mem_reverse.mp hk)
    · rcases ih found hfound k hk with hk | hk
      · exact .inr (List.mem_singleton.mp hk ▸ List.mem_cons_self)
      · exact .inr (List.mem_cons_of_mem _ hk)
  | case5 mode word c d rest _ _ ih =>
    intro found hfound k hk
    rcases ih found hfound k hk with hk | hk
    · exact (List.mem_cons.mp hk).elim (fun hk => .inr (hk ▸ List.mem_cons_self)) .inl
    · exact .inr (List.mem_cons_of_mem _ hk)

theorem mem_lowerWord {cs : List Char} {d : Char} (h : d ∈ lowerWord cs) :
    ∃ c ∈ cs, d ∈ lowercase c ∨ c = 'Σ' ∧ d = 'ς' := by
  fun_induction lowerWord cs with
  | case1 => cases h
  | case2 => exact ⟨'Σ', List.mem_cons_self, .inr ⟨rfl, List.mem_singleton.mp h⟩⟩
  | case3 c rest _ ih =>
    rcases List.mem_append.mp h with h | h
    · exact ⟨c, List.mem_cons_self, .inl h⟩
    · obtain ⟨k, hk, hd⟩ := ih h
      exact ⟨k, List.mem_cons_of_mem _ hk, hd⟩

theorem forall_mem_intercalate {p : Char → Prop} {between : String} {parts : List String}
    (hbetween : ∀ c ∈ between.toList, p c) (hparts : ∀ part ∈ parts, ∀ c ∈ part.toList, p c) :
    ∀ c ∈ (between.intercalate parts).toList, p c := by
  induction parts with
  | nil => simp
  | cons part parts ih =>
    obtain ⟨hpart, hmore⟩ := List.forall_mem_cons.mp hparts
    cases parts with
    | nil => rwa [String.intercalate_singleton]
    | cons next parts =>
      rw [String.intercalate_cons_cons, String.toList_append, String.toList_append]
      intro c hc
      rcases List.mem_append.mp hc with hc | hc
      · rcases List.mem_append.mp hc with hc | hc
        · exact hpart c hc
        · exact hbetween c hc
      · exact ih hmore c hc

theorem mem_snakeCase {name : String} : ∀ d ∈ (snakeCase name).toList,
    d = '_' ∨ ∃ c ∈ name.toList, isAlphanumeric c = true ∧ (d ∈ lowercase c ∨ c = 'Σ' ∧ d = 'ς') := by
  refine forall_mem_intercalate (by simp) fun part hpart d hd => .inr ?_
  obtain ⟨word, hword, rfl⟩ := List.mem_map.mp hpart
  obtain ⟨found, hfound, rfl⟩ := List.mem_map.mp hword
  obtain ⟨piece, hpiece, hfound⟩ := List.mem_flatMap.mp hfound
  rw [String.toList_ofList] at hd
  obtain ⟨c, hc, hd⟩ := mem_lowerWord hd
  have hmem := (mem_of_wordsFrom found hfound c hc).resolve_left (by simp)
  obtain ⟨hname, halphanumeric⟩ := mem_of_pieces piece hpiece c hmem
  exact ⟨c, hname, halphanumeric, hd⟩

theorem isSolid_of_snakeCase (name : String) :
    ∀ c ∈ (snakeCase name).toList, isSolid c = true := by
  intro d hd
  rcases mem_snakeCase d hd with rfl | ⟨c, -, hc, hd | ⟨-, rfl⟩⟩
  · decide +kernel
  · exact isSolid_of_lowercase hc hd
  · decide +kernel

/-- A lower-case letter or digit of ASCII, or the underscore. -/
def isSnake (c : Char) : Bool := c.isLower || c.isDigit || c == '_'

/-- An ASCII name has only such characters in snake case. -/
theorem isSnake_of_snakeCase {name : String} (h : ∀ c ∈ name.toList, isAscii c = true) :
    ∀ c ∈ (snakeCase name).toList, isSnake c = true := by
  intro d hd
  rcases mem_snakeCase d hd with rfl | ⟨c, hname, hc, hd | ⟨rfl, -⟩⟩
  · decide
  · have hall := of_isAscii (p := fun c => !isAlphanumeric c || isSnake c.toLower) (by decide +kernel)
      (h c hname)
    rw [lowercase, if_pos (h c hname), List.mem_singleton] at hd
    rwa [hc, Bool.not_true, Bool.false_or, ← hd] at hall
  · exact absurd (h 'Σ' hname) (by decide)

end ComponentRegistry.Text
