import ComponentRegistry.Token.Lexer

/-! Words before something that ends them. Where a word stands, a text holds neither a literal nor a
mark nor a comment, so the lexer reads the word and nothing else (`Lexer.token?_word`). -/

namespace ComponentRegistry

namespace Text

/-- The blanks outside of ASCII. -/
def wideBlanks : List Nat :=
  [0x85, 0xA0, 0x1680, 0x2000, 0x2001, 0x2002, 0x2003, 0x2004, 0x2005, 0x2006, 0x2007, 0x2008,
    0x2009, 0x200A, 0x200E, 0x200F, 0x2028, 0x2029, 0x202F, 0x205F, 0x3000]

theorem mem_wideBlanks {c : Char} (hblank : isBlank c = true) (hascii : isAscii c = false) :
    c.toNat ∈ wideBlanks := by
  simp only [isBlank, hascii, Bool.false_eq_true, if_false, inRanges, List.any_cons, List.any_nil,
    Bool.or_eq_true, Bool.and_eq_true, decide_eq_true_eq, or_false] at hblank
  simp only [wideBlanks, List.mem_cons, List.not_mem_nil, or_false]
  omega

theorem identStart_of_wideBlanks : ∀ n ∈ wideBlanks, isIdentStart (Char.ofNat n) = false := by
  decide +kernel

/-- What holds of the characters of ASCII, checked one by one. -/
theorem of_isAscii {p : Char → Bool} (h : ∀ n < 0x80, p (Char.ofNat n) = true) {c : Char}
    (hascii : isAscii c = true) : p c = true := by
  have hc := h c.toNat (of_decide_eq_true hascii)
  rwa [Char.ofNat_toNat] at hc

theorem isBlank_of_identStart {c : Char} (h : isIdentStart c = true) : isBlank c = false := by
  cases hblank : isBlank c with
  | false => rfl
  | true =>
    cases hascii : isAscii c with
    | false =>
      have hnone := identStart_of_wideBlanks _ (mem_wideBlanks hblank hascii)
      rw [Char.ofNat_toNat, h] at hnone
      cases hnone
    | true =>
      have hnone := of_isAscii (p := fun c => !(isIdentStart c && isBlank c)) (by decide_cbv)
        hascii
      simp [h, hblank] at hnone

theorem isDigit_of_identStart {c : Char} (h : isIdentStart c = true) : c.isDigit = false := by
  cases hdigit : c.isDigit with
  | false => rfl
  | true =>
    have hascii : isAscii c = true := by
      simp only [Char.isDigit, Bool.and_eq_true, decide_eq_true_eq] at hdigit
      exact decide_eq_true (Nat.lt_of_le_of_lt hdigit.2 (by decide))
    have hnone := of_isAscii (p := fun c => !(isIdentStart c && c.isDigit)) (by decide_cbv)
      hascii
    simp [h, hdigit] at hnone

/-- A character of a class is none of those outside it. -/
theorem ne_of_class {p : Char → Bool} {c k : Char} (h : p c = true) (hk : p k = false) : c ≠ k := by
  rintro rfl
  rw [h] at hk
  cases hk

end Text

open Text

namespace Lexer

/-- What a check finds of every mark holds of a mark. -/
theorem of_isMark {p : Char → Bool} {c : Char} (h : isMark c = true)
    (hall : ['~', '!', '@', '#', '$', '%', '^', '&', '*', '-', '=', '+', '|', ';', ':', ',',
      '<', '.', '>', '/', '?', '\x27'].all p = true) : p c = true :=
  List.all_eq_true.mp hall c (List.contains_iff_mem.mp h)

theorem isMark_of_identStart {c : Char} (h : isIdentStart c = true) : isMark c = false := by
  cases hmark : isMark c with
  | false => rfl
  | true =>
    have hc := of_isMark (p := fun k => !isIdentStart k) hmark (by decide)
    simp [h] at hc

theorem bracket?_of_identStart {c : Char} (h : isIdentStart c = true) : bracket? c = none := by
  unfold bracket?
  split
  all_goals first | rfl | exact absurd h (by decide)

/-- A name that is written as an identifier. -/
def IsName (name : String) : Prop :=
  Literal.identifier? name.toList = some (name.toList, [])

instance (name : String) : Decidable (IsName name) := by
  unfold IsName
  infer_instance

theorem IsName.chars {name : String} (h : IsName name) :
    ∃ c cs, name.toList = c :: cs ∧ isIdentStart c = true ∧ cs.all isIdentContinue = true := by
  unfold IsName Literal.identifier? at h
  split at h
  next c cs hname =>
    split at h
    next hstart =>
      obtain ⟨htake, -⟩ := Prod.mk.inj (Option.some.inj h)
      refine ⟨c, cs, hname, hstart, ?_⟩
      rw [hname, List.cons.injEq] at htake
      rw [← htake.2]
      exact List.all_takeWhile
    next => cases h
  next => cases h

/-- What may stand directly after a word: neither more of a word nor what makes a literal or a raw
word of it. -/
def EndsWord (cs : List Char) : Prop :=
  ∀ c ∈ cs.head?, isIdentContinue c = false ∧ c ≠ '\x22' ∧ c ≠ '\x27' ∧ c ≠ '#'

/-- The end of a word from anywhere in it on, and what stands after the word. -/
def WordEnd (cs : List Char) : Prop :=
  ∃ word rest, cs = word ++ rest ∧ word.all isIdentContinue = true ∧ EndsWord rest

theorem WordEnd.head_ne {c : Char} {cs : List Char} (h : WordEnd (c :: cs)) :
    c ≠ '\x22' ∧ c ≠ '\x27' ∧ c ≠ '#' := by
  obtain ⟨word, rest, hcs, hword, hrest⟩ := h
  cases word with
  | nil =>
    subst hcs
    exact (hrest c rfl).2
  | cons first word =>
    obtain ⟨rfl, -⟩ := List.cons.inj hcs
    rw [List.all_cons, Bool.and_eq_true] at hword
    exact ⟨ne_of_class hword.1 (by decide), ne_of_class hword.1 (by decide),
      ne_of_class hword.1 (by decide)⟩

theorem WordEnd.tail {c : Char} {cs : List Char} (h : WordEnd (c :: cs))
    (hc : isIdentContinue c = true) : WordEnd cs := by
  obtain ⟨word, rest, hcs, hword, hrest⟩ := h
  cases word with
  | nil =>
    subst hcs
    rw [(hrest c rfl).1] at hc
    cases hc
  | cons first word =>
    obtain ⟨rfl, rfl⟩ := List.cons.inj hcs
    exact ⟨word, rest, rfl, (by rw [List.all_cons, Bool.and_eq_true] at hword; exact hword.2), hrest⟩

theorem takeWhile_append {cs rest : List Char} (h : cs.all isIdentContinue = true)
    (hrest : EndsWord rest) : (cs ++ rest).takeWhile isIdentContinue = cs ∧
      (cs ++ rest).dropWhile isIdentContinue = rest := by
  have hnone : rest.takeWhile isIdentContinue = [] ∧ rest.dropWhile isIdentContinue = rest := by
    cases rest with
    | nil => exact ⟨rfl, rfl⟩
    | cons c rest =>
      have hc := (hrest c rfl).1
      simp [hc]
  rw [List.all_eq_true] at h
  rw [List.takeWhile_append_of_pos h, List.dropWhile_append_of_pos h, hnone.1, hnone.2,
    List.append_nil]
  exact ⟨rfl, rfl⟩

theorem identifier?_append {name : String} (h : IsName name) {rest : List Char}
    (hrest : EndsWord rest) : Literal.identifier? (name.toList ++ rest) = some (name.toList, rest) := by
  obtain ⟨c, cs, hname, hstart, hcs⟩ := h.chars
  rw [hname, List.cons_append, Literal.identifier?, if_pos hstart, (takeWhile_append hcs hrest).1,
    (takeWhile_append hcs hrest).2]

end Lexer

namespace Literal

open Lexer

theorem raw?_of_wordEnd {content : Content} {cs : List Char} (h : WordEnd cs) :
    raw? content cs = none := by
  cases cs with
  | nil => rfl
  | cons c cs =>
    obtain ⟨hquote, -, hsharp⟩ := h.head_ne
    simp [raw?, hsharp, hquote]

theorem floatDigits?_of_identStart {c : Char} (h : isIdentStart c = true) (cs : List Char) :
    floatDigits? (c :: cs) = none := by
  simp [floatDigits?, isDigit_of_identStart h]

theorem int?_of_not_isDigit {c : Char} (h : c.isDigit = false) (cs : List Char) :
    int? (c :: cs) = none := by
  have hbase : intBase (c :: cs) = (10, c :: cs) := by
    have hzero : c ≠ '0' := by
      rintro rfl
      cases h
    simp [intBase, hzero]
  have hdigits : intDigits? 10 true (c :: cs) = none := by
    rw [intDigits?]
    split
    · simp
    · split
      next digit hdigit =>
        split
        next hlt =>
          have hvalue := hdigit
          simp only [hexDigit?, h, Bool.false_eq_true, if_false] at hvalue
          split at hvalue
          · rw [← Option.some.inj hvalue] at hlt
            omega
          · split at hvalue
            · rw [← Option.some.inj hvalue] at hlt
              omega
            · cases hvalue
        next => simp
      next => simp
  simp [int?, hbase, hdigits]

theorem int?_of_identStart {c : Char} (h : isIdentStart c = true) (cs : List Char) :
    int? (c :: cs) = none :=
  int?_of_not_isDigit (isDigit_of_identStart h) cs

/-- No literal stands where a word does. -/
theorem end?_of_wordEnd {c : Char} {cs : List Char} (hc : isIdentStart c = true)
    (h : WordEnd cs) : end? (c :: cs) = none := by
  have hquote : c ≠ '\x22' := ne_of_class hc (by decide)
  have hticks : c ≠ '\x27' := ne_of_class hc (by decide)
  have hstring : string? (c :: cs) = none := by
    unfold string?
    split
    next hcs => exact absurd (List.cons.inj hcs).1 hquote
    next hcs => rw [← (List.cons.inj hcs).2]; exact raw?_of_wordEnd h
    next => rfl
  have hbytes : byteString? (c :: cs) = none := by
    unfold byteString?
    split
    next hcs => rw [(List.cons.inj hcs).2] at h; exact absurd rfl h.head_ne.1
    next hcs =>
      rw [(List.cons.inj hcs).2] at h
      exact raw?_of_wordEnd (h.tail (by decide))
    next => rfl
  have hcString : cString? (c :: cs) = none := by
    unfold cString?
    split
    next hcs => rw [(List.cons.inj hcs).2] at h; exact absurd rfl h.head_ne.1
    next hcs =>
      rw [(List.cons.inj hcs).2] at h
      exact raw?_of_wordEnd (h.tail (by decide))
    next => rfl
  have hcharacter : character? (c :: cs) = none := by
    unfold character?
    split
    next hcs => exact absurd (List.cons.inj hcs).1 hticks
    next hcs => rw [(List.cons.inj hcs).2] at h; exact absurd rfl h.head_ne.2.1
    next => rfl
  simp [end?, hstring, hbytes, hcString, hcharacter, float?, floatDigits?_of_identStart hc,
    int?_of_identStart hc]

theorem end?_rawWord {c : Char} {cs : List Char}
    (hc : isIdentStart c = true) : end? ('r' :: '#' :: c :: cs) = none := by
  have hquote : c ≠ '\x22' := ne_of_class hc (by decide)
  have hsharp : c ≠ '#' := ne_of_class hc (by decide)
  have hraw : ∀ content, raw? content ('#' :: c :: cs) = none := by
    intro content
    simp [raw?, hsharp, hquote]
  simp [end?, string?, byteString?, cString?, character?, float?, hraw,
    floatDigits?_of_identStart (show isIdentStart 'r' = true by decide),
    int?_of_identStart (show isIdentStart 'r' = true by decide)]

end Literal

namespace Lexer

/-- The names that are no raw identifiers. -/
def rawless : List String := ["_", "super", "self", "Self", "crate"]

/-- A name that can be written as an identifier, after a raw mark if it has one. -/
structure IsWord (raw : Bool) (name : String) : Prop where
  isName : IsName name
  rawable : raw = true → rawless.contains name = false

instance (raw : Bool) (name : String) : Decidable (IsWord raw name) :=
  decidable_of_iff (IsName name ∧ (raw = true → rawless.contains name = false))
    ⟨fun h => ⟨h.1, h.2⟩, fun h => ⟨h.1, h.2⟩⟩

/-- How a word is written. -/
def wordChars (raw : Bool) (name : String) : List Char :=
  (if raw then ['r', '#'] else []) ++ name.toList

theorem wordEnd_append {name : String} {c : Char} {cs rest : List Char}
    (hname : name.toList = c :: cs) (hcs : cs.all isIdentContinue = true) (hrest : EndsWord rest) :
    ∃ after, name.toList ++ rest = c :: after ∧ WordEnd after :=
  ⟨cs ++ rest, by rw [hname, List.cons_append], cs, rest, rfl, hcs, hrest⟩

/-- A word starts with a character that starts identifiers. Neither a literal stands there nor a
character behind an apostrophe. -/
theorem IsWord.start {raw : Bool} {name : String} (h : IsWord raw name) {rest : List Char}
    (hrest : EndsWord rest) : ∃ c after, wordChars raw name ++ rest = c :: after ∧
      isIdentStart c = true ∧ Literal.end? (c :: after) = none ∧ ∀ next, after ≠ '\x27' :: next := by
  obtain ⟨c, cs, hname, hc, hcs⟩ := h.isName.chars
  obtain ⟨after, hafter, hend⟩ := wordEnd_append hname hcs hrest
  cases raw with
  | false =>
    refine ⟨c, after, by simpa [wordChars] using hafter, hc, Literal.end?_of_wordEnd hc hend, ?_⟩
    rintro next rfl
    exact hend.head_ne.2.1 rfl
  | true =>
    refine ⟨'r', '#' :: c :: after, ?_, by decide, Literal.end?_rawWord hc, by simp⟩
    simp only [wordChars, if_true, List.append_assoc, hafter]
    rfl

theorem spoiledLiteral_of_wordEnd {c : Char} {cs : List Char} (h : WordEnd cs) :
    spoiledLiteral (c :: cs) = false := by
  unfold spoiledLiteral
  split
  all_goals first
    | rfl
    | next hcs =>
      obtain ⟨-, rfl⟩ := List.cons.inj hcs
      first
        | exact absurd rfl h.head_ne.1
        | exact absurd rfl h.head_ne.2.1
        | exact absurd rfl h.head_ne.2.2
        | exact absurd rfl (h.tail (by decide)).head_ne.1
        | exact absurd rfl (h.tail (by decide)).head_ne.2.2

theorem anyWord?_word {raw : Bool} {name : String} (h : IsWord raw name) {rest : List Char}
    (hrest : EndsWord rest) :
    anyWord? (wordChars raw name ++ rest) = some (raw, name.toList, rest) := by
  have hread := identifier?_append h.isName hrest
  cases raw with
  | false =>
    obtain ⟨c, cs, hname, hc, hcs⟩ := h.isName.chars
    obtain ⟨after, hafter, hend⟩ := wordEnd_append hname hcs hrest
    simp only [wordChars, Bool.false_eq_true, if_false, List.nil_append]
    unfold anyWord?
    split
    next hcs =>
      rw [hafter] at hcs
      obtain ⟨-, rfl⟩ := List.cons.inj hcs
      exact absurd rfl hend.head_ne.2.2
    next => rw [hread]; rfl
  | true =>
    have hrawable := h.rawable rfl
    rw [rawless] at hrawable
    simp only [wordChars, if_true, List.cons_append, List.nil_append, anyWord?, hread,
      Option.bind_eq_bind, Option.bind_some, String.ofList_toList, hrawable, Bool.false_eq_true,
      if_false]

theorem spoiledLiteral_word {raw : Bool} {name : String} (h : IsWord raw name) {rest : List Char}
    (hrest : EndsWord rest) : spoiledLiteral (wordChars raw name ++ rest) = false := by
  obtain ⟨c, cs, hname, hc, hcs⟩ := h.isName.chars
  obtain ⟨after, hafter, hend⟩ := wordEnd_append hname hcs hrest
  cases raw with
  | false =>
    simp only [wordChars, Bool.false_eq_true, if_false, List.nil_append, hafter]
    exact spoiledLiteral_of_wordEnd hend
  | true =>
    have hquote : c ≠ '\x22' := ne_of_class hc (by decide)
    have hsharp : c ≠ '#' := ne_of_class hc (by decide)
    simp [wordChars, hafter, spoiledLiteral, hquote, hsharp]

theorem word?_word {raw : Bool} {name : String} (h : IsWord raw name) {rest : List Char}
    (hrest : EndsWord rest) :
    word? (wordChars raw name ++ rest) = some (raw, name.toList, rest) := by
  rw [word?, spoiledLiteral_word h hrest, anyWord?_word h hrest]
  rfl

theorem startsMark_of_identStart {c : Char} (h : isIdentStart c = true) (cs : List Char) :
    startsMark (c :: cs) = false := by
  have hslash : c ≠ '/' := ne_of_class h (by decide)
  simp [startsMark, hslash, isMark_of_identStart h]

theorem token?_word {raw : Bool} {name : String} (h : IsWord raw name) {rest : List Char}
    (hrest : EndsWord rest) :
    token? (wordChars raw name ++ rest) = some (.word raw name, rest) := by
  have hword := word?_word h hrest
  obtain ⟨c, after, hcs, hc, hend, -⟩ := h.start hrest
  rw [hcs] at hword ⊢
  simp [token?, literal?, hend, mark?, startsMark_of_identStart hc, hword]

/-- A slash that is a mark opens no comment. -/
theorem comment?_of_startsMark {cs : List Char} (h : startsMark ('/' :: cs) = true) :
    comment? ('/' :: cs) = none ∧ docComment? ('/' :: cs) = none := by
  cases cs with
  | nil => exact ⟨rfl, rfl⟩
  | cons d cs =>
    have hslash : d ≠ '/' := by
      rintro rfl
      cases h
    have hstar : d ≠ '*' := by
      rintro rfl
      cases h
    simp [comment?, docComment?, hslash, hstar]

/-- The start of a token that is no comment. -/
theorem step?_of_token? {c : Char} {cs rest : List Char} {token : Token}
    (hblank : isBlank c = false) (hslash : c ≠ '/' ∨ startsMark (c :: cs) = true)
    (hbracket : bracket? c = none) (h : token? (c :: cs) = some (token, rest)) :
    step? (c :: cs) = some ([.token token], rest) := by
  have hparen : c ≠ '(' := by
    rintro rfl
    cases hbracket
  have hcomment : comment? (c :: cs) = none ∧ docComment? (c :: cs) = none := by
    by_cases hc : c = '/'
    · subst hc
      exact comment?_of_startsMark (hslash.resolve_left (by simp))
    · simp [comment?, docComment?, hc]
  have herror : errorLiteral.isPrefixOf (c :: cs) = false := by
    simp [errorLiteral, List.isPrefixOf, Ne.symm hparen]
  simp [step?, blank?, hblank, hcomment, doc?, herror, hbracket, h]

/-- A word is read up to what ends it. -/
theorem step?_word {raw : Bool} {name : String} (h : IsWord raw name) {rest : List Char}
    (hrest : EndsWord rest) :
    step? (wordChars raw name ++ rest) = some ([.token (.word raw name)], rest) := by
  have htoken := token?_word h hrest
  obtain ⟨c, after, hcs, hc, -, -⟩ := h.start hrest
  rw [hcs] at htoken ⊢
  exact step?_of_token? (isBlank_of_identStart hc) (.inl (ne_of_class hc (by decide)))
    (bracket?_of_identStart hc) htoken

/-- A lifetime is read up to what ends its name. -/
theorem step?_lifetime {raw : Bool} {name : String} (h : IsWord raw name) {rest : List Char}
    (hrest : EndsWord rest) : step? ('\x27' :: (wordChars raw name ++ rest)) =
      some ([.token (.lifetime (String.ofList (wordChars raw name)))], rest) := by
  have hany := anyWord?_word h hrest
  have hword := word?_word h hrest
  obtain ⟨c, after, hcs, hc, hend, hticks⟩ := h.start hrest
  have hnone : Literal.end? (wordChars raw name ++ rest) = none := by rw [hcs, hend]
  have hcharacter : Literal.end? ('\x27' :: (wordChars raw name ++ rest)) = none := by
    have hslash : c ≠ '\\' := ne_of_class hc (by decide)
    simp [hcs, Literal.end?, Literal.string?, Literal.byteString?, Literal.cString?,
      Literal.character?, Literal.charEnd?, hslash, Literal.Content.admits, Literal.float?,
      Literal.floatDigits?, Literal.int?, Literal.intBase, Literal.intDigits?, Literal.hexDigit?]
  have hlifetime : lifetime? (wordChars raw name ++ rest) =
      some (.lifetime (String.ofList (wordChars raw name)), rest) := by
    have hchars : (if raw = true then 'r' :: '#' :: name.toList else name.toList) =
        wordChars raw name := by cases raw <;> rfl
    generalize wordChars raw name ++ rest = text at hany hword hnone
    cases rest with
    | nil => simp [lifetime?, hany, hword, hnone, hchars]
    | cons d rest =>
      obtain ⟨-, -, hticks, hsharp⟩ := hrest d rfl
      simp [lifetime?, hany, hword, hnone, hchars, hticks, hsharp]
  have htoken : token? ('\x27' :: (wordChars raw name ++ rest)) =
      some (.lifetime (String.ofList (wordChars raw name)), rest) := by
    simp [token?, literal?, hcharacter, mark?, hlifetime, startsMark, isMark]
  exact step?_of_token? (by decide) (.inl (by decide)) rfl htoken

end Lexer

end ComponentRegistry
