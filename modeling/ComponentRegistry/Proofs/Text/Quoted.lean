import ComponentRegistry.Text.Quoted
import ComponentRegistry.Token.Literal
import Mathlib.Algebra.Group.Nat.Defs

/-! A text that has been written as a string literal is read back as it was
(`Literal.string?_literal`), whatever characters it has. -/

namespace ComponentRegistry.Literal

open Text

theorem hexDigit?_digitChar {n : Nat} (h : n < 16) : hexDigit? n.digitChar = some n := by
  revert n
  decide

theorem digitChar_ne {n : Nat} (h : n < 16) : n.digitChar ≠ '\x7d' ∧ n.digitChar ≠ '_' := by
  revert n
  decide

theorem codePoint?_digit {value digits n : Nat} (h : n < 16) (hdigits : digits < 6)
    (rest : List Char) : codePoint? value digits (n.digitChar :: rest) =
      codePoint? (16 * value + n) (digits + 1) rest := by
  obtain ⟨hbrace, hlow⟩ := digitChar_ne h
  rw [codePoint?, if_neg hbrace, if_neg hlow, hexDigit?_digitChar h]
  exact if_neg (Nat.ne_of_lt hdigits)

/-- Hexadecimal digits that are written one after another are read one after another. -/
theorem codePoint?_toDigits (n : Nat) {value digits : Nat}
    (hdigits : digits + (Nat.toDigits 16 n).length ≤ 6) (rest : List Char) :
    codePoint? value digits (Nat.toDigits 16 n ++ rest) =
      codePoint? (16 ^ (Nat.toDigits 16 n).length * value + n)
        (digits + (Nat.toDigits 16 n).length) rest := by
  induction n using Nat.strongRecOn generalizing rest with
  | ind n ih =>
    rcases Nat.lt_or_ge n 16 with hn | hn
    · rw [Nat.toDigits_of_lt_base hn] at hdigits ⊢
      rw [List.length_singleton] at hdigits
      exact codePoint?_digit hn hdigits rest
    · rw [Nat.toDigits_of_base_le (by decide) hn] at hdigits ⊢
      rw [List.length_append, List.length_singleton] at hdigits ⊢
      rw [List.append_assoc, List.singleton_append, ih (n / 16) (by omega) (by omega),
        codePoint?_digit (Nat.mod_lt _ (by decide)) (by omega)]
      congr 1
      have hn := Nat.div_add_mod n 16
      rw [Nat.pow_succ, Nat.mul_add, ← Nat.mul_assoc, Nat.add_assoc, hn, Nat.mul_comm 16]

theorem length_toDigits_toNat (c : Char) : (Nat.toDigits 16 c.toNat).length ≤ 6 := by
  rw [Nat.length_toDigits_le_iff (by decide) (by decide)]
  have := c.valid
  rcases c.valid with h | h
  · exact Nat.lt_trans h (by decide)
  · exact Nat.lt_trans h.2 (by decide)

theorem unicodeEscape?_toDigits (c : Char) (rest : List Char) :
    unicodeEscape? .text ('\x7b' :: (Nat.toDigits 16 c.toNat ++ '\x7d' :: rest)) =
      some (c, rest) := by
  have hpos := Nat.length_toDigits_pos (b := 16) (n := c.toNat)
  have hread : codePoint? 0 0 (Nat.toDigits 16 c.toNat ++ '\x7d' :: rest) =
      some (c.toNat, rest) := by
    rw [codePoint?_toDigits _ (by simpa using length_toDigits_toNat c), codePoint?, if_pos rfl,
      if_pos (by omega)]
    simp
  have hvalid : c.toNat.isValidChar := c.valid
  simp [unicodeEscape?, hread, hvalid, Char.ofNat_toNat]

theorem quoted?_quote (content : Content) (rest : List Char) :
    quoted? content ('\x22' :: rest) = some ([], rest) := by
  rw [quoted?.eq_def]
  simp

/-- An escape is read for the character that it stands for. -/
theorem quoted?_escape {content : Content} {c : Char} {cs next : List Char}
    (hbreak : lineBreak? cs = none) (hescape : escape? content cs = some (c, next)) :
    quoted? content ('\\' :: cs) =
      (quoted? content next).map fun (value, rest) => (c :: value, rest) := by
  rw [quoted?.eq_def]
  simp only [show ¬ '\\' = '\x22' by decide, if_false, if_true]
  split
  next h => simp [hbreak] at h
  next =>
    split
    next found h =>
      rw [hescape] at h
      obtain ⟨rfl, rfl⟩ := Prod.mk.inj (Option.some.inj h)
      rfl
    next h => simp [hescape] at h

theorem quoted?_plain {content : Content} {c : Char} (hquote : c ≠ '\x22') (hslash : c ≠ '\\')
    (hreturn : c ≠ '\r') (hadmits : content.admits c = true) (cs : List Char) :
    quoted? content (c :: cs) =
      (quoted? content cs).map fun (value, rest) => (c :: value, rest) := by
  rw [quoted?.eq_def]
  simp only [if_neg hquote, if_neg hslash, if_neg hreturn, if_pos hadmits]

theorem lineBreak?_of_ne {c : Char} (hfeed : c ≠ '\n') (hreturn : c ≠ '\r') (cs : List Char) :
    lineBreak? (c :: cs) = none := by
  unfold lineBreak?
  split
  next h => simp_all
  next h => simp_all
  next => rfl

/-- What is written for a character other than NUL is read as this character. -/
theorem quoted?_escapeChar (c : Char) (cs : List Char) :
    quoted? .text (escapeChar c ++ cs) =
      (quoted? .text cs).map fun (value, rest) => (c :: value, rest) := by
  unfold escapeChar
  split
  next h => rw [beq_iff_eq.mp h]; exact quoted?_escape rfl rfl
  split
  next h => rw [beq_iff_eq.mp h]; exact quoted?_escape rfl rfl
  split
  next h => rw [beq_iff_eq.mp h]; exact quoted?_escape rfl rfl
  split
  next h => rw [beq_iff_eq.mp h]; exact quoted?_escape rfl rfl
  split
  next h => rw [beq_iff_eq.mp h]; exact quoted?_escape rfl rfl
  next htab hfeed hreturn hslash hquote =>
  split
  next =>
    exact quoted?_plain (by simpa using hquote) (by simpa using hslash) (by simpa using hreturn)
      rfl cs
  next =>
    have hescape : escape? .text ('u' :: '\x7b' :: (Nat.toDigits 16 c.toNat ++ '\x7d' :: cs)) =
        some (c, cs) := by
      rw [escape?]
      simp only [show ¬ 'u' = 'n' by decide, show ¬ 'u' = 'r' by decide, show ¬ 'u' = 't' by decide,
        show ¬ 'u' = '0' by decide, show ¬ 'u' = 'x' by decide, if_false]
      simpa using unicodeEscape?_toDigits c cs
    simpa [codePointEscape] using quoted?_escape (lineBreak?_of_ne (by decide) (by decide) _) hescape

/-- A NUL is read from both forms in which it is written. -/
theorem quoted?_null (long : Bool) (cs : List Char) :
    quoted? .text ((if long then ['\\', 'x', '0', '0'] else ['\\', '0']) ++ cs) =
      (quoted? .text cs).map fun (value, rest) => ('\x00' :: value, rest) := by
  cases long with
  | false => exact quoted?_escape rfl rfl
  | true => exact quoted?_escape rfl rfl

/-- What is written for a text is read as this text up to the quote behind it. -/
theorem quoted?_escape_text (octalSafe : Bool) (cs rest : List Char) :
    quoted? .text (escape octalSafe cs ++ '\x22' :: rest) = some (cs, rest) := by
  induction cs with
  | nil => exact quoted?_quote _ _
  | cons c cs ih =>
    rw [escape.eq_def]
    dsimp only
    split
    next h =>
      rw [beq_iff_eq.mp h, List.append_assoc, quoted?_null, ih]
      rfl
    next => rw [List.append_assoc, quoted?_escapeChar, ih]; rfl

theorem string?_literal (cs rest : List Char) :
    string? (Text.literal cs ++ rest) = some (cs, rest) := by
  simpa [Text.literal, string?] using quoted?_escape_text true cs rest

end ComponentRegistry.Literal
