import ComponentRegistry.Proofs.Token.Steady

/-! Tokens at the end of a text. A token is read in the same way when the text is cut off behind it
(`Lexer.token?_cut`), and a blank ends it as the end of the text does (`Lexer.token?_blank`). Numbers
are the exception: one may end in a point or in a sign that belongs to something else as the text goes
on. -/

namespace ComponentRegistry

open Text

namespace Literal

theorem closed?_cut {front rest after : List Char}
    (h : closed? (front ++ rest) = some (after ++ rest)) : closed? front = some after := by
  obtain ⟨taken, -, htaken, hmore⟩ := closed?_ends h
  rw [← List.append_assoc] at htaken
  rw [List.append_cancel_right htaken, hmore]

theorem closed?_append {front after : List Char} (h : closed? front = some after)
    (more : List Char) : closed? (front ++ more) = some (after ++ more) := by
  obtain ⟨taken, -, rfl, hmore⟩ := closed?_ends h
  rw [List.append_assoc, hmore]

theorem end?_suffix {cs rest : List Char} (h : end? cs = some rest) :
    rest <:+ cs ∧ rest.length < cs.length := by
  cases cs with
  | nil => cases h
  | cons c cs =>
    cases hdigit : c.isDigit with
    | false =>
      rw [end?_of_not_isDigit hdigit] at h
      obtain ⟨mid, hmid, rfl⟩ := Option.map_eq_some_iff.mp h
      obtain ⟨taken, hne, hcs, -⟩ := closed?_ends hmid
      have hrest : dropSuffix mid <:+ mid := steady_dropSuffix.suffix rfl
      have hlength := congrArg List.length hcs
      have htaken := List.length_pos_iff.mpr hne
      rw [List.length_append] at hlength
      exact ⟨hrest.trans ⟨taken, hcs.symm⟩, by have := hrest.length_le; omega⟩
    | true =>
      rw [end?_of_isDigit hdigit] at h
      rcases Option.or_eq_some_iff.mp h with h | ⟨-, h⟩
      · exact ⟨steady_float?.suffix h, steady_float?.length_lt rfl h⟩
      · exact ⟨steady_int?.suffix h, steady_int?.length_lt rfl h⟩

/-- A literal is cut off behind it, unless the end of the text makes a float of an integer. -/
theorem end?_cut {c : Char} {front rest after : List Char}
    (hfloat : float? (c :: front ++ rest) = none → float? (c :: front) = none)
    (h : end? (c :: front ++ rest) = some (after ++ rest)) : end? (c :: front) = some after := by
  rw [List.cons_append] at h hfloat
  cases hdigit : c.isDigit with
  | false =>
    rw [end?_of_not_isDigit hdigit, ← List.cons_append] at h
    obtain ⟨mid, hmid, hrest⟩ := Option.map_eq_some_iff.mp h
    obtain ⟨taken, rfl⟩ := steady_dropSuffix.suffix (congrArg some hrest)
    rw [← List.append_assoc] at hmid hrest
    have hafter : dropSuffix (taken ++ after) = after :=
      Option.some.inj (steady_dropSuffix.cut (congrArg some hrest))
    rw [end?_of_not_isDigit hdigit, closed?_cut hmid, Option.map_some, hafter]
  | true =>
    rw [end?_of_isDigit hdigit] at h ⊢
    rcases Option.or_eq_some_iff.mp h with h | ⟨hnone, h⟩
    · rw [steady_float?.cut h]
      rfl
    · rw [hfloat hnone]
      exact steady_int?.cut h

theorem end?_blank {b : Char} (hb : isBlank b = true) {front after : List Char}
    (h : end? front = some after) (more : List Char) : end? (front ++ b :: more) =
      some (after ++ b :: more) := by
  cases front with
  | nil => cases h
  | cons c front =>
    rw [List.cons_append]
    cases hdigit : c.isDigit with
    | false =>
      rw [end?_of_not_isDigit hdigit] at h ⊢
      obtain ⟨mid, hmid, rfl⟩ := Option.map_eq_some_iff.mp h
      rw [← List.cons_append, closed?_append hmid]
      exact steady_dropSuffix.blank hb mid more
    | true =>
      rw [end?_of_isDigit hdigit] at h ⊢
      rw [← List.cons_append, steady_float?.blank hb, steady_int?.blank hb, ← Option.map_or, h]
      rfl

/-- More of the text makes no literal with quotes out of what is one. -/
theorem end?_eq_none {c : Char} (hdigit : c.isDigit = false) {front more : List Char}
    (h : end? (c :: front ++ more) = none) : end? (c :: front) = none := by
  rw [List.cons_append, end?_of_not_isDigit hdigit, Option.map_eq_none_iff] at h
  rw [end?_of_not_isDigit hdigit, Option.map_eq_none_iff]
  cases hclosed : closed? (c :: front) with
  | none => rfl
  | some after =>
    rw [← List.cons_append, closed?_append hclosed] at h
    cases h

theorem raw?_start {content : Content} {cs : List Char} {result : List Char × List Char}
    (h : raw? content cs = some result) :
    ∃ rest, cs = '\x22' :: rest ∨ cs = '#' :: '\x22' :: rest ∨ cs = '#' :: '#' :: rest := by
  match cs with
  | [] => cases h
  | [c] =>
    by_cases hc : c = '#'
    · subst hc
      cases h
    · by_cases hquote : c = '\x22'
      · exact ⟨[], .inl (by rw [hquote])⟩
      · simp [raw?, hc, hquote] at h
  | c :: d :: cs =>
    by_cases hc : c = '#'
    · by_cases hd : d = '#'
      · exact ⟨cs, .inr (.inr (by rw [hc, hd]))⟩
      · by_cases hquote : d = '\x22'
        · exact ⟨cs, .inr (.inl (by rw [hc, hquote]))⟩
        · simp [raw?, hc, hd, hquote] at h
    · by_cases hquote : c = '\x22'
      · exact ⟨d :: cs, .inl (by rw [hquote])⟩
      · simp [raw?, hc, hquote] at h

end Literal

namespace Lexer

theorem prefix_of_blank {start front more : List Char} {b : Char} (hb : isBlank b = true)
    (hstart : start.all (!isBlank ·) = true) (h : start <+: front ++ b :: more) :
    start <+: front := by
  induction start generalizing front with
  | nil => exact List.nil_prefix
  | cons c start ih =>
    cases front with
    | nil =>
      obtain ⟨rfl, -⟩ := List.cons_prefix_cons.mp h
      simp [hb] at hstart
    | cons d front =>
      obtain ⟨rfl, htail⟩ := List.cons_prefix_cons.mp h
      rw [List.all_cons, Bool.and_eq_true] at hstart
      exact List.cons_prefix_cons.mpr ⟨rfl, ih hstart.2 htail⟩

/-- How a literal starts whose quote may be missing or wrong. -/
def spoiledStarts : List (List Char) :=
  [['r', '\x22'], ['r', '#', '\x22'], ['r', '#', '#'], ['b', '\x22'], ['b', '\x27'],
    ['b', 'r', '\x22'], ['b', 'r', '#'], ['c', '\x22'], ['c', 'r', '\x22'], ['c', 'r', '#']]

theorem spoiledLiteral_iff {cs : List Char} :
    spoiledLiteral cs = true ↔ ∃ start ∈ spoiledStarts, start <+: cs := by
  constructor
  · intro h
    unfold spoiledLiteral at h
    split at h
    all_goals first
      | exact ⟨_, by decide, List.prefix_append [_, _] _⟩
      | exact ⟨_, by decide, List.prefix_append [_, _, _] _⟩
      | cases h
  · rintro ⟨start, hstart, more, rfl⟩
    simp only [spoiledStarts, List.mem_cons, List.not_mem_nil, or_false] at hstart
    rcases hstart with rfl | rfl | rfl | rfl | rfl | rfl | rfl | rfl | rfl | rfl <;> rfl

theorem spoiledLiteral_append {front : List Char} (h : spoiledLiteral front = true)
    (more : List Char) : spoiledLiteral (front ++ more) = true := by
  obtain ⟨start, hstart, hprefix⟩ := spoiledLiteral_iff.mp h
  exact spoiledLiteral_iff.mpr ⟨start, hstart, hprefix.trans (List.prefix_append front more)⟩

theorem spoiledLiteral_blank {b : Char} (hb : isBlank b = true) (front more : List Char) :
    spoiledLiteral (front ++ b :: more) = spoiledLiteral front := by
  rw [Bool.eq_iff_iff]
  refine ⟨fun h => ?_, fun h => spoiledLiteral_append h _⟩
  obtain ⟨start, hstart, hprefix⟩ := spoiledLiteral_iff.mp h
  have hsolid : ∀ start ∈ spoiledStarts, start.all (!isBlank ·) = true := by decide
  exact spoiledLiteral_iff.mpr ⟨start, hstart, prefix_of_blank hb (hsolid start hstart) hprefix⟩

/-- A literal that starts with a letter starts in one of the ways that no word does. -/
theorem end?_of_not_spoiled {c : Char} (hc : isIdentStart c = true) {cs : List Char}
    (h : spoiledLiteral (c :: cs) = false) : Literal.end? (c :: cs) = none := by
  have hquote : c ≠ '\x22' := ne_of_class hc (by decide)
  have hticks : c ≠ '\x27' := ne_of_class hc (by decide)
  rw [Literal.end?_of_not_isDigit (isDigit_of_identStart hc), Option.map_eq_none_iff]
  cases hclosed : Literal.closed? (c :: cs) with
  | none => rfl
  | some rest =>
    have hspoiled : spoiledLiteral (c :: cs) = true := by
      unfold Literal.closed? at hclosed
      split at hclosed
      next heq => exact absurd (List.cons.inj heq).1 hquote
      next heq =>
        obtain ⟨result, hraw, -⟩ := Option.map_eq_some_iff.mp hclosed
        obtain ⟨more, rfl | rfl | rfl⟩ := Literal.raw?_start hraw <;> rw [heq] <;> rfl
      next heq => rw [heq]; rfl
      next heq =>
        obtain ⟨result, hraw, -⟩ := Option.map_eq_some_iff.mp hclosed
        obtain ⟨more, rfl | rfl | rfl⟩ := Literal.raw?_start hraw <;> rw [heq] <;> rfl
      next heq => rw [heq]; rfl
      next heq =>
        obtain ⟨result, hraw, -⟩ := Option.map_eq_some_iff.mp hclosed
        obtain ⟨more, rfl | rfl | rfl⟩ := Literal.raw?_start hraw <;> rw [heq] <;> rfl
      next heq => exact absurd (List.cons.inj heq).1 hticks
      next heq => rw [heq]; rfl
      next => cases hclosed
    rw [h] at hspoiled
    cases hspoiled

theorem anyWord?_of_ne {cs : List Char} (h : ∀ rest, cs ≠ 'r' :: '#' :: rest) :
    anyWord? cs = (Literal.identifier? cs).map fun (name, rest) => (false, name, rest) :=
  anyWord?.eq_2 cs h

theorem anyWord?_raw (cs : List Char) : anyWord? ('r' :: '#' :: cs) =
    (Literal.identifier? cs).bind fun (name, rest) =>
      if rawless.contains (String.ofList name) then none else some (true, name, rest) := rfl

theorem anyWord?_raw_suffix {cs rest name : List Char} {raw : Bool}
    (h : anyWord? ('r' :: '#' :: cs) = some (raw, name, rest)) : rest <:+ cs := by
  rw [anyWord?_raw] at h
  obtain ⟨⟨found, after⟩, hfound, h⟩ := Option.bind_eq_some_iff.mp h
  dsimp only at h
  split at h
  next => cases h
  next =>
    obtain ⟨-, -, rfl⟩ : true = raw ∧ found = name ∧ after = rest := by simpa using h
    exact (Literal.identifier?_suffix hfound).1

theorem anyWord?_suffix {cs rest name : List Char} {raw : Bool}
    (h : anyWord? cs = some (raw, name, rest)) : rest <:+ cs ∧ rest.length < cs.length := by
  by_cases hraw : ∃ more, cs = 'r' :: '#' :: more
  · obtain ⟨more, rfl⟩ := hraw
    have hsuffix := anyWord?_raw_suffix h
    refine ⟨hsuffix.trans ((List.suffix_cons ..).trans (List.suffix_cons ..)), ?_⟩
    exact Nat.lt_succ_of_le (Nat.le_succ_of_le hsuffix.length_le)
  · rw [anyWord?_of_ne fun more heq => hraw ⟨more, heq⟩] at h
    obtain ⟨⟨found, after⟩, hfound, h⟩ := Option.map_eq_some_iff.mp h
    obtain ⟨-, -, rfl⟩ : false = raw ∧ found = name ∧ after = rest := by simpa using h
    exact Literal.identifier?_suffix hfound

theorem anyWord?_cut {front rest after name : List Char} {raw : Bool}
    (h : anyWord? (front ++ rest) = some (raw, name, after ++ rest)) :
    anyWord? front = some (raw, name, after) := by
  by_cases hfront : ∃ inner, front = 'r' :: '#' :: inner
  · obtain ⟨inner, rfl⟩ := hfront
    rw [List.cons_append, List.cons_append, anyWord?_raw] at h
    rw [anyWord?_raw]
    obtain ⟨⟨found, left⟩, hfound, h⟩ := Option.bind_eq_some_iff.mp h
    dsimp only at h
    split at h
    next => cases h
    next hname =>
      obtain ⟨rfl, rfl, rfl⟩ : true = raw ∧ found = name ∧ left = after ++ rest := by simpa using h
      rw [Literal.identifier?_cut hfound]
      exact if_neg hname
  · have hne : ∀ more, front ++ rest ≠ 'r' :: '#' :: more := by
      intro more heq
      rw [heq] at h
      have hlength := congrArg List.length heq
      have hlt := (anyWord?_raw_suffix h).length_le
      match front with
      | [] | [_] =>
        simp only [List.length_append, List.length_cons, List.length_nil] at hlength hlt
        omega
      | c :: d :: inner =>
        obtain ⟨hc, heq⟩ := List.cons.inj heq
        exact hfront ⟨inner, by rw [hc, (List.cons.inj heq).1]⟩
    rw [anyWord?_of_ne hne] at h
    rw [anyWord?_of_ne fun inner heq => hfront ⟨inner, heq⟩]
    obtain ⟨⟨found, left⟩, hfound, h⟩ := Option.map_eq_some_iff.mp h
    obtain ⟨rfl, rfl, rfl⟩ : false = raw ∧ found = name ∧ left = after ++ rest := by simpa using h
    rw [Literal.identifier?_cut hfound]
    rfl

theorem anyWord?_blank {b : Char} (hb : isBlank b = true) (front more : List Char) :
    anyWord? (front ++ b :: more) =
      (anyWord? front).map fun (raw, name, rest) => (raw, name, rest ++ b :: more) := by
  by_cases hfront : ∃ inner, front = 'r' :: '#' :: inner
  · obtain ⟨inner, rfl⟩ := hfront
    rw [List.cons_append, List.cons_append, anyWord?_raw, anyWord?_raw, Literal.identifier?_blank hb]
    cases Literal.identifier? inner with
    | none => rfl
    | some found =>
      dsimp only [Option.map_some, Option.bind_some]
      split <;> rfl
  · have hne : ∀ after, front ++ b :: more ≠ 'r' :: '#' :: after := by
      intro after heq
      have hprefix : ['r', '#'] <+: front ++ b :: more := ⟨after, heq.symm⟩
      obtain ⟨inner, hinner⟩ := prefix_of_blank hb (by decide) hprefix
      exact hfront ⟨inner, hinner.symm⟩
    rw [anyWord?_of_ne hne, anyWord?_of_ne fun inner heq => hfront ⟨inner, heq⟩,
      Literal.identifier?_blank hb]
    cases Literal.identifier? front <;> rfl

theorem identStart_of_anyWord? {cs name rest : List Char} {raw : Bool}
    (h : anyWord? cs = some (raw, name, rest)) : ∃ c more, cs = c :: more ∧ isIdentStart c = true := by
  by_cases hraw : ∃ more, cs = 'r' :: '#' :: more
  · obtain ⟨more, rfl⟩ := hraw
    exact ⟨'r', '#' :: more, rfl, by decide⟩
  · rw [anyWord?_of_ne fun more heq => hraw ⟨more, heq⟩] at h
    obtain ⟨found, hfound, -⟩ := Option.map_eq_some_iff.mp h
    cases cs with
    | nil => cases hfound
    | cons c more =>
      rw [Literal.identifier?] at hfound
      split at hfound
      next hc => exact ⟨c, more, rfl, hc⟩
      next => cases hfound

/-- An apostrophe in front of a word makes a lifetime of it, unless another apostrophe or a number sign
ends the word; in front of what starts as a literal it stays alone. -/
theorem lifetime?_eq (cs : List Char) : lifetime? cs = (anyWord? cs).bind fun (raw, name, after) =>
    if after.head? = some '\x27' ∨ after.head? = some '#' ∧ raw = false then none
    else if spoiledLiteral cs then some (.mark '\x27' true, cs)
    else some (.lifetime (String.ofList (if raw then 'r' :: '#' :: name else name)), after) := by
  rw [lifetime?]
  cases hword : anyWord? cs with
  | none => rfl
  | some found =>
    obtain ⟨raw, name, after⟩ := found
    have hrest : (spoiledLiteral cs = true ∧ word? cs = none) ∨ (spoiledLiteral cs = false ∧
        Literal.end? cs = none ∧ word? cs = some (raw, name, after)) := by
      cases hspoiled : spoiledLiteral cs with
      | true => exact .inl ⟨rfl, if_pos hspoiled⟩
      | false =>
        obtain ⟨c, more, rfl, hc⟩ := identStart_of_anyWord? hword
        have hsome : word? (c :: more) = some (raw, name, after) := by
          rw [word?, hspoiled, hword]
          rfl
        exact .inr ⟨rfl, end?_of_not_spoiled hc hspoiled, hsome⟩
    simp only [Option.bind_eq_bind, Option.bind_some]
    by_cases hhead : after.head? = some '\x27' ∨ after.head? = some '#' ∧ raw = false
    · rw [if_pos hhead]
      obtain hticks | ⟨hsharp, rfl⟩ := hhead
      · obtain ⟨more, rfl⟩ := List.head?_eq_some_iff.mp hticks
        rfl
      · obtain ⟨more, rfl⟩ := List.head?_eq_some_iff.mp hsharp
        rfl
    · rw [if_neg hhead]
      obtain ⟨hticks, hsharp⟩ : after.head? ≠ some '\x27' ∧ (after.head? = some '#' → raw = true) := by
        simpa using hhead
      obtain ⟨hspoiled, hnone⟩ | ⟨hspoiled, hend, hsome⟩ := hrest
      · rw [hspoiled, hnone]
        cases Literal.end? cs
        all_goals
          split
          next => exact absurd rfl hticks
          next => exact if_pos (hsharp rfl)
          next => rfl
      · rw [hspoiled, hend, hsome]
        split
        next => exact absurd rfl hticks
        next => exact if_pos (hsharp rfl)
        next => rfl

/-- What starts as a literal is no lifetime, and whether the apostrophe stays alone is seen from how
it starts. -/
theorem lifetime?_of_spoiled {front : List Char} (h : spoiledLiteral front = true) :
    (∀ more, lifetime? (front ++ more) = some (.mark '\x27' true, front ++ more)) ∨
    ∀ more, lifetime? (front ++ more) = none := by
  obtain ⟨start, hstart, left, rfl⟩ := spoiledLiteral_iff.mp h
  have hletters : ['r', 'b', 'c'].all (fun c => isIdentStart c && isIdentContinue c) = true := by decide
  have hmarks : ['\x22', '#', '\x27'].all (fun c => !isIdentStart c && !isIdentContinue c) = true := by
    decide
  simp only [List.all_cons, Bool.and_eq_true, Bool.not_eq_true'] at hletters hmarks
  simp only [spoiledStarts, List.mem_cons, List.not_mem_nil, or_false] at hstart
  simp only [lifetime?_eq, spoiledLiteral_append h]
  rcases hstart with rfl | rfl | rfl | rfl | rfl | rfl | rfl | rfl | rfl | rfl <;>
    simp [anyWord?, Literal.identifier?, hletters, hmarks]

/-- The word behind an apostrophe is a lifetime, or the apostrophe stays alone in front of it. -/
theorem lifetime?_cases {cs rest : List Char} {token : Token}
    (h : lifetime? cs = some (token, rest)) : ∃ raw name after, anyWord? cs = some (raw, name, after) ∧
      ((spoiledLiteral cs = true ∧ token = .mark '\x27' true ∧ rest = cs) ∨
      (spoiledLiteral cs = false ∧ rest = after ∧
        token = .lifetime (String.ofList (if raw then 'r' :: '#' :: name else name)) ∧
        ¬ (after.head? = some '\x27' ∨ after.head? = some '#' ∧ raw = false))) := by
  rw [lifetime?_eq] at h
  obtain ⟨⟨raw, name, after⟩, hword, h⟩ := Option.bind_eq_some_iff.mp h
  dsimp only at h
  refine ⟨raw, name, after, hword, ?_⟩
  split at h
  next => cases h
  next hhead =>
    split at h
    next hspoiled =>
      obtain ⟨rfl, rfl⟩ := Prod.mk.inj (Option.some.inj h)
      exact .inl ⟨hspoiled, rfl, rfl⟩
    next hspoiled =>
      obtain ⟨rfl, rfl⟩ := Prod.mk.inj (Option.some.inj h)
      exact .inr ⟨Bool.eq_false_iff.mpr hspoiled, rfl, rfl, hhead⟩

theorem lifetime?_word {cs name after : List Char} {raw : Bool}
    (hword : anyWord? cs = some (raw, name, after)) (hspoiled : spoiledLiteral cs = false)
    (hhead : ¬ (after.head? = some '\x27' ∨ after.head? = some '#' ∧ raw = false)) :
    lifetime? cs =
      some (.lifetime (String.ofList (if raw then 'r' :: '#' :: name else name)), after) := by
  rw [lifetime?_eq, hword, Option.bind_some]
  simp only [if_neg hhead, hspoiled, Bool.false_eq_true, if_false]

theorem lifetime?_suffix {cs rest : List Char} {token : Token}
    (h : lifetime? cs = some (token, rest)) : rest <:+ cs := by
  obtain ⟨raw, name, after, hword, ⟨-, -, rfl⟩ | ⟨-, rfl, -⟩⟩ := lifetime?_cases h
  · exact List.suffix_refl _
  · exact (anyWord?_suffix hword).1

/-- An apostrophe that is cut off alone has the start of a literal behind it. -/
theorem lifetime?_cut {front rest after : List Char} {token : Token}
    (hspoiled : token = .mark '\x27' true → spoiledLiteral front = true)
    (h : lifetime? (front ++ rest) = some (token, after ++ rest)) :
    lifetime? front = some (token, after) := by
  obtain ⟨raw, name, left, hword, ⟨-, rfl, hleft⟩ | ⟨hplain, rfl, rfl, hhead⟩⟩ := lifetime?_cases h
  · obtain rfl := List.append_cancel_right hleft
    rcases lifetime?_of_spoiled (hspoiled rfl) with hlone | hnone
    · simpa using hlone []
    · rw [hnone] at h
      cases h
  · have hfront : spoiledLiteral front = false := by
      cases hfront : spoiledLiteral front with
      | false => rfl
      | true =>
        rw [spoiledLiteral_append hfront] at hplain
        cases hplain
    refine lifetime?_word (anyWord?_cut hword) hfront ?_
    cases after with
    | nil => simp
    | cons d after => exact hhead

theorem lifetime?_blank {b : Char} (hb : isBlank b = true) {front after : List Char} {token : Token}
    (h : lifetime? front = some (token, after)) (more : List Char) :
    lifetime? (front ++ b :: more) = some (token, after ++ b :: more) := by
  obtain ⟨raw, name, left, hword, ⟨hspoiled, rfl, rfl⟩ | ⟨hplain, rfl, rfl, hhead⟩⟩ :=
    lifetime?_cases h
  · rcases lifetime?_of_spoiled hspoiled with hlone | hnone
    · exact hlone _
    · have hnone := hnone []
      rw [List.append_nil, h] at hnone
      cases hnone
  · refine lifetime?_word (by rw [anyWord?_blank hb, hword]; rfl)
      (by rw [spoiledLiteral_blank hb, hplain]) ?_
    cases after with
    | nil =>
      have hticks : b ≠ '\x27' := ne_of_class hb (by decide)
      have hsharp : b ≠ '#' := ne_of_class hb (by decide)
      simp [hticks, hsharp]
    | cons d after => exact hhead

theorem isMark_of_isBlank {b : Char} (hb : isBlank b = true) : isMark b = false := by
  cases hmark : isMark b with
  | false => rfl
  | true =>
    have hsolid := of_isMark (p := fun k => !isBlank k) hmark (by decide)
    simp [hb] at hsolid

theorem startsMark_cons (c d : Char) (cs : List Char) : startsMark (c :: d :: cs) =
    if c = '/' ∧ (d = '/' ∨ d = '*') then false else isMark c := by
  by_cases hc : c = '/'
  · by_cases hslash : d = '/'
    · simp [startsMark, hc, hslash]
    · by_cases hstar : d = '*' <;> simp [startsMark, hc, hslash, hstar]
  · simp [startsMark, hc]

theorem startsMark_of_append {c : Char} {front rest : List Char}
    (h : startsMark (c :: front ++ rest) = true) : startsMark (c :: front) = true := by
  cases front with
  | nil =>
    by_cases hslash : c = '/'
    · rw [hslash]
      rfl
    · simpa [startsMark, hslash] using h
  | cons d front => rwa [List.cons_append, List.cons_append, startsMark_cons, ← startsMark_cons] at h

theorem startsMark_blank {b : Char} (hb : isBlank b = true) (front more : List Char) :
    startsMark (front ++ b :: more) = startsMark front := by
  have hslash : b ≠ '/' := ne_of_class hb (by decide)
  have hstar : b ≠ '*' := ne_of_class hb (by decide)
  match front with
  | [] => simp [startsMark, hslash, isMark_of_isBlank hb]
  | [c] => simp [startsMark, hslash, hstar]
  | c :: d :: front =>
    rw [List.cons_append, List.cons_append, startsMark_cons, startsMark_cons]

/-- A token is a literal, what starts with an apostrophe, another mark, or a word. -/
inductive ReadsToken (c : Char) (cs : List Char) : Token → List Char → Prop
  | literal {rest : List Char} : Literal.end? (c :: cs) = some rest → ReadsToken c cs
    (.literal (String.ofList ((c :: cs).take ((c :: cs).length - rest.length)))) rest
  | apostrophe {token : Token} {rest : List Char} : Literal.end? (c :: cs) = none → c = '\x27' →
    lifetime? cs = some (token, rest) → ReadsToken c cs token rest
  | mark : c ≠ '\x27' → startsMark (c :: cs) = true → ReadsToken c cs (.mark c (startsMark cs)) cs
  | word {raw : Bool} {name rest : List Char} : isIdentStart c = true →
    spoiledLiteral (c :: cs) = false → anyWord? (c :: cs) = some (raw, name, rest) →
    ReadsToken c cs (.word raw (String.ofList name)) rest

theorem isMark_of_startsMark {c : Char} {cs : List Char} (h : startsMark (c :: cs) = true) :
    isMark c = true := by
  by_cases hslash : c = '/'
  · rw [hslash]
    rfl
  · simpa [startsMark, hslash] using h

theorem token?_iff {c : Char} {cs rest : List Char} {token : Token} :
    token? (c :: cs) = some (token, rest) ↔ ReadsToken c cs token rest := by
  simp only [token?, Option.orElse_eq_orElse, Option.orElse_eq_or, Option.or_eq_some_iff, literal?,
    Option.map_eq_none_iff]
  constructor
  · rintro (h | ⟨hend, h | ⟨-, h⟩⟩)
    · obtain ⟨after, hend, h⟩ := Option.map_eq_some_iff.mp h
      obtain ⟨rfl, rfl⟩ := Prod.mk.inj h
      exact .literal hend
    · rw [mark?] at h
      split at h
      next => cases h
      next hmark =>
        rw [Bool.not_eq_true, Bool.not_eq_false'] at hmark
        split at h
        next hticks => exact .apostrophe hend hticks h
        next hticks =>
          obtain ⟨rfl, rfl⟩ := Prod.mk.inj (Option.some.inj h)
          exact .mark hticks hmark
    · obtain ⟨⟨raw, name, after⟩, hword, h⟩ := Option.map_eq_some_iff.mp h
      obtain ⟨rfl, rfl⟩ := Prod.mk.inj h
      rw [word?] at hword
      split at hword
      next => cases hword
      next hspoiled =>
        obtain ⟨d, more, heq, hd⟩ := identStart_of_anyWord? hword
        obtain ⟨rfl, -⟩ := List.cons.inj heq
        exact .word hd (Bool.eq_false_iff.mpr hspoiled) hword
  · rintro (hend | ⟨hend, rfl, h⟩ | ⟨hticks, hmark⟩ | ⟨hc, hspoiled, hword⟩)
    · exact .inl (by rw [hend]; rfl)
    · exact .inr ⟨hend, .inl h⟩
    · refine .inr ⟨end?_of_isMark (isMark_of_startsMark hmark) hticks cs, .inl ?_⟩
      simp only [mark?, hmark, if_neg hticks]
      rfl
    · refine .inr ⟨end?_of_not_spoiled hc hspoiled, .inr ⟨?_, ?_⟩⟩
      · simp [mark?, startsMark_of_identStart hc]
      · rw [word?, hspoiled, hword]
        rfl

theorem token?_suffix {cs rest : List Char} {token : Token} (h : token? cs = some (token, rest)) :
    rest <:+ cs ∧ rest.length < cs.length := by
  cases cs with
  | nil => cases h
  | cons c cs =>
    have htail : ∀ {rest : List Char}, rest <:+ cs → rest <:+ c :: cs ∧ rest.length < (c :: cs).length :=
      fun hrest => ⟨hrest.trans (List.suffix_cons c cs), Nat.lt_succ_of_le hrest.length_le⟩
    cases token?_iff.mp h with
    | literal hend => exact Literal.end?_suffix hend
    | apostrophe _ _ hlifetime => exact htail (lifetime?_suffix hlifetime)
    | mark => exact htail (List.suffix_refl _)
    | word _ _ hword => exact anyWord?_suffix hword

theorem take_length_sub {front after : List Char} (h : after.length ≤ front.length)
    (more : List Char) : (front ++ more).take ((front ++ more).length - (after ++ more).length) =
      front.take (front.length - after.length) := by
  rw [List.length_append, List.length_append, Nat.add_sub_add_right]
  exact List.take_append_of_le_length (by omega)

/-- Between an apostrophe and a literal's other one stands a single character that starts a word. -/
theorem end?_apostrophe {c : Char} (hc : isIdentStart c = true) {cs : List Char} :
    Literal.end? ('\x27' :: c :: cs) = none ↔ cs.head? ≠ some '\x27' := by
  have hslash : c ≠ '\\' := ne_of_class hc (by decide)
  rw [Literal.end?_of_not_isDigit (by decide), Option.map_eq_none_iff]
  simp only [Literal.closed?, Literal.charEnd?, if_neg hslash, Literal.Content.admits, if_true,
    Option.bind_eq_bind, Option.bind_some]
  split
  next => simp
  next hticks =>
    refine iff_of_true rfl fun hhead => ?_
    obtain ⟨rest, rfl⟩ := List.head?_eq_some_iff.mp hhead
    exact hticks rest rfl

/-- A blank ends a token as the end of the text does. -/
theorem token?_blank {b : Char} (hb : isBlank b = true) {front after : List Char} {token : Token}
    (h : token? front = some (token, after)) (more : List Char) :
    token? (front ++ b :: more) = some (token, after ++ b :: more) := by
  cases front with
  | nil => cases h
  | cons c front =>
    rw [List.cons_append]
    refine token?_iff.mpr ?_
    cases token?_iff.mp h with
    | literal hend =>
      rw [← take_length_sub (Nat.le_of_lt (Literal.end?_suffix hend).2) (b :: more)]
      exact .literal (Literal.end?_blank hb hend more)
    | apostrophe hend hticks hlifetime =>
      refine .apostrophe ?_ hticks (lifetime?_blank hb hlifetime more)
      obtain ⟨raw, name, left, hword, -⟩ := lifetime?_cases hlifetime
      obtain ⟨d, inner, rfl, hd⟩ := identStart_of_anyWord? hword
      rw [hticks, end?_apostrophe hd] at hend
      rw [hticks, List.cons_append, end?_apostrophe hd]
      cases inner with
      | nil =>
        have hticks : b ≠ '\x27' := ne_of_class hb (by decide)
        simp [hticks]
      | cons e inner => exact hend
    | mark hticks hmark =>
      rw [← startsMark_blank hb _ more]
      refine .mark hticks ?_
      rw [← List.cons_append, startsMark_blank hb, hmark]
    | word hc hspoiled hword =>
      refine .word hc ?_ ?_
      · rw [← List.cons_append, spoiledLiteral_blank hb, hspoiled]
      · rw [← List.cons_append, anyWord?_blank hb, hword]
        rfl

/-- A token is read in the same way when the text is cut off behind it, or behind something that
follows it. This must not part a mark from one that it is joint with, or an apostrophe from the literal
that it stands alone in front of, and the end of the text must not make a float of an integer. -/
theorem token?_cut {c : Char} {front rest after : List Char} {token : Token}
    (hfloat : Literal.float? (c :: front ++ rest) = none → Literal.float? (c :: front) = none)
    (hjoint : ∀ d joint, token = .mark d joint → startsMark (after ++ rest) = startsMark after)
    (hlone : token = .mark '\x27' true → spoiledLiteral after = true)
    (h : token? (c :: front ++ rest) = some (token, after ++ rest)) :
    token? (c :: front) = some (token, after) := by
  refine token?_iff.mpr ?_
  rw [List.cons_append] at h
  generalize hleft : after ++ rest = left at h
  cases token?_iff.mp h with
  | literal hend =>
    subst hleft
    have hcut := Literal.end?_cut hfloat hend
    rw [← List.cons_append, take_length_sub (Nat.le_of_lt (Literal.end?_suffix hcut).2)]
    exact .literal hcut
  | apostrophe hend hticks hlifetime =>
    subst hleft hticks
    refine .apostrophe (Literal.end?_eq_none (by decide) hend) rfl
      (lifetime?_cut (fun htoken => ?_) hlifetime)
    obtain ⟨raw, name, left, -, ⟨-, -, hafter⟩ | ⟨-, -, hname, -⟩⟩ := lifetime?_cases hlifetime
    · exact List.append_cancel_right hafter ▸ hlone htoken
    · rw [htoken] at hname
      cases hname
  | mark hticks hmark =>
    obtain rfl := List.append_cancel_right hleft
    rw [hjoint c _ rfl]
    exact .mark hticks (startsMark_of_append hmark)
  | word hc hspoiled hword =>
    subst hleft
    refine .word hc ?_ (anyWord?_cut hword)
    cases hfront : spoiledLiteral (c :: front) with
    | false => rfl
    | true =>
      rw [← List.cons_append, spoiledLiteral_append hfront] at hspoiled
      cases hspoiled

end Lexer

end ComponentRegistry
