import ComponentRegistry.Proofs.Token.Alone
import ComponentRegistry.Proofs.Token.Enclosed

/-! Readers that look no further than the first character behind what they take: they stop in the same
place when the text is cut off there, and at a blank as at the end of the text. Those of numbers are
(`Literal.steady_float?`, `Literal.steady_int?`). -/

namespace ComponentRegistry

open Text

namespace Text

theorem identContinue_of_isBlank {c : Char} (h : isBlank c = true) : isIdentContinue c = false :=
  Lexer.identContinue_of_not_isSolid (Lexer.not_isSolid (.inl h))

theorem identStart_of_isBlank {c : Char} (h : isBlank c = true) : isIdentStart c = false := by
  have hcontinue := identContinue_of_isBlank h
  rw [isIdentContinue, Bool.or_eq_false_iff] at hcontinue
  exact hcontinue.1

theorem hexDigit?_of_isBlank {c : Char} (h : isBlank c = true) : Literal.hexDigit? c = none := by
  cases hdigit : Literal.hexDigit? c with
  | none => rfl
  | some digit =>
    have hascii : isAscii c = true := by
      have hle : c ≤ 'f' := by
        unfold Literal.hexDigit? at hdigit
        split at hdigit
        next hc =>
          simp only [Char.isDigit, Bool.and_eq_true, decide_eq_true_eq] at hc
          exact Nat.le_trans hc.2 (by decide)
        split at hdigit
        next hc => simp only [Bool.and_eq_true, decide_eq_true_eq] at hc; exact hc.2
        split at hdigit
        next hc =>
          simp only [Bool.and_eq_true, decide_eq_true_eq] at hc
          exact Nat.le_trans hc.2 (by decide)
        next => cases hdigit
      exact decide_eq_true (Nat.lt_of_le_of_lt hle (by decide))
    have hnone := of_isAscii (p := fun c => !(isBlank c && (Literal.hexDigit? c).isSome))
      (by decide +kernel) hascii
    simp [h, hdigit] at hnone

theorem isDigit_of_isBlank {c : Char} (h : isBlank c = true) : c.isDigit = false := by
  have hnone := hexDigit?_of_isBlank h
  rw [Literal.hexDigit?] at hnone
  split at hnone
  next => cases hnone
  next hdigit => exact Bool.eq_false_iff.mpr hdigit

end Text

namespace Literal

/-- A reader that stops in the same place when the text is cut off behind it, and at a blank as at
the end of the text. -/
structure Steady (read : List Char → Option (List Char)) : Prop where
  suffix {cs rest : List Char} : read cs = some rest → rest <:+ cs
  cut {front rest after : List Char} : read (front ++ rest) = some (after ++ rest) →
    read front = some after
  blank {b : Char} : isBlank b = true → ∀ front more,
    read (front ++ b :: more) = (read front).map (· ++ b :: more)

theorem Steady.bind {first second : List Char → Option (List Char)} (hfirst : Steady first)
    (hsecond : Steady second) : Steady fun cs => first cs >>= second where
  suffix h := by
    obtain ⟨mid, hmid, hrest⟩ := Option.bind_eq_some_iff.mp h
    exact (hsecond.suffix hrest).trans (hfirst.suffix hmid)
  cut {front rest after} h := by
    obtain ⟨mid, hmid, hrest⟩ := Option.bind_eq_some_iff.mp h
    obtain ⟨taken, rfl⟩ := hsecond.suffix hrest
    rw [← List.append_assoc] at hmid hrest
    simp only [hfirst.cut hmid, Option.bind_eq_bind, Option.bind_some, hsecond.cut hrest]
  blank hb front more := by
    cases hmid : first front with
    | none => simp [hfirst.blank hb, hmid]
    | some mid => simp [hfirst.blank hb, hmid, hsecond.blank hb]

theorem eq_nil_of_suffix {after rest : List Char} (h : after ++ rest <:+ rest) : after = [] := by
  have hlength := h.length_le
  rw [List.length_append] at hlength
  exact List.eq_nil_of_length_eq_zero (by omega)

/-- A reader that goes from state to state steps over a character, stops in front of it if it may stop
in that state, or fails; the end of the text stops it, too. It is steady if it steps over no blank. -/
theorem steady_of_states {State : Type} (read : State → List Char → Option (List Char))
    (final : State → Bool) (hnil : ∀ s, read s [] = if final s then some [] else none)
    (hcons : ∀ s c, (∃ s', isBlank c = false ∧ ∀ cs, read s (c :: cs) = read s' cs) ∨
      (∀ cs, read s (c :: cs) = if final s then some (c :: cs) else none) ∨
      (isBlank c = false ∧ ∀ cs, read s (c :: cs) = none)) (s : State) : Steady (read s) := by
  have hsuffix : ∀ {s cs rest}, read s cs = some rest →
      rest <:+ cs ∧ (rest = cs → final s = true) := by
    intro s cs rest h
    induction cs generalizing s with
    | nil =>
      rw [hnil] at h
      split at h
      next hfinal => rw [← Option.some.inj h]; exact ⟨List.suffix_refl [], fun _ => hfinal⟩
      next => cases h
    | cons c cs ih =>
      rcases hcons s c with ⟨s', -, hstep⟩ | hstop | ⟨-, hfail⟩
      · rw [hstep] at h
        have hrest := (ih h).1
        refine ⟨hrest.trans (List.suffix_cons c cs), ?_⟩
        rintro rfl
        exact absurd hrest.length_le (by simp)
      · rw [hstop] at h
        split at h
        next hfinal => rw [← Option.some.inj h]; exact ⟨List.suffix_refl _, fun _ => hfinal⟩
        next => cases h
      · rw [hfail] at h
        cases h
  refine ⟨fun h => (hsuffix h).1, ?_, ?_⟩
  · intro front rest after h
    induction front generalizing s with
    | nil =>
      obtain ⟨hrest, hfinal⟩ := hsuffix h
      obtain rfl := eq_nil_of_suffix hrest
      rw [hnil, if_pos (hfinal rfl)]
    | cons c front ih =>
      rw [List.cons_append] at h
      rcases hcons s c with ⟨s', -, hstep⟩ | hstop | ⟨-, hfail⟩
      · rw [hstep] at h ⊢
        exact ih s' h
      · rw [hstop] at h ⊢
        split at h
        next hfinal =>
          rw [if_pos hfinal]
          exact congrArg some (List.append_cancel_right (Option.some.inj h))
        next => cases h
      · rw [hfail] at h
        cases h
  · intro b hb front more
    induction front generalizing s with
    | nil =>
      rw [hnil, List.nil_append]
      rcases hcons s b with ⟨s', hsolid, -⟩ | hstop | ⟨hsolid, -⟩
      · rw [hb] at hsolid
        cases hsolid
      · rw [hstop]
        cases final s <;> rfl
      · rw [hb] at hsolid
        cases hsolid
    | cons c front ih =>
      rw [List.cons_append]
      rcases hcons s c with ⟨s', -, hstep⟩ | hstop | ⟨-, hfail⟩
      · rw [hstep, hstep, ih]
      · rw [hstop, hstop]
        cases final s <;> rfl
      · rw [hfail, hfail]
        rfl

/-- What a class of characters without blanks goes on with. -/
theorem steady_dropWhile {p : Char → Bool} (hp : ∀ b, isBlank b = true → p b = false) :
    Steady fun cs => some (cs.dropWhile p) := by
  refine steady_of_states (fun (_ : Unit) cs => some (cs.dropWhile p)) (fun _ => true)
    (fun _ => rfl) (fun _ c => ?_) ()
  by_cases hc : p c = true
  · refine .inl ⟨(), ?_, fun cs => by rw [List.dropWhile_cons_of_pos hc]⟩
    cases hblank : isBlank c with
    | false => rfl
    | true =>
      rw [hp c hblank] at hc
      cases hc
  · exact .inr (.inl fun cs => by rw [List.dropWhile_cons_of_neg hc]; rfl)

theorem identifier?_suffix {cs name rest : List Char} (h : identifier? cs = some (name, rest)) :
    rest <:+ cs ∧ rest.length < cs.length := by
  cases cs with
  | nil => cases h
  | cons c cs =>
    rw [identifier?] at h
    split at h
    next =>
      obtain ⟨-, rfl⟩ := Prod.mk.inj (Option.some.inj h)
      have hsuffix := List.dropWhile_suffix isIdentContinue (l := cs)
      exact ⟨hsuffix.trans (List.suffix_cons c cs), Nat.lt_succ_of_le hsuffix.length_le⟩
    next => cases h

theorem steady_identContinue : Steady fun cs => some (cs.dropWhile isIdentContinue) :=
  steady_dropWhile fun _ hb => identContinue_of_isBlank hb

theorem identifier?_cut {front rest after name : List Char}
    (h : identifier? (front ++ rest) = some (name, after ++ rest)) :
    identifier? front = some (name, after) := by
  cases front with
  | nil =>
    obtain ⟨-, hlt⟩ := identifier?_suffix h
    rw [List.nil_append, List.length_append] at hlt
    omega
  | cons c front =>
    rw [List.cons_append, identifier?] at h
    split at h
    next hstart =>
      obtain ⟨rfl, hdrop⟩ := Prod.mk.inj (Option.some.inj h)
      have hafter : front.dropWhile isIdentContinue = after :=
        Option.some.inj (steady_identContinue.cut (congrArg some hdrop))
      have htake : (front ++ rest).takeWhile isIdentContinue ++ (after ++ rest) = front ++ rest := by
        rw [← hdrop, List.takeWhile_append_dropWhile]
      have hname : (front ++ rest).takeWhile isIdentContinue = front.takeWhile isIdentContinue := by
        rw [← List.append_assoc] at htake
        have hfront := List.append_cancel_right htake
        rw [← hafter] at hfront
        exact List.append_cancel_right
          (hfront.trans (List.takeWhile_append_dropWhile (p := isIdentContinue)).symm)
      rw [identifier?, if_pos hstart, hafter, hname]
    next => cases h

theorem identifier?_blank {b : Char} (hb : isBlank b = true) (front more : List Char) :
    identifier? (front ++ b :: more) =
      (identifier? front).map fun (name, rest) => (name, rest ++ b :: more) := by
  cases front with
  | nil => simp [identifier?, identStart_of_isBlank hb]
  | cons c front =>
    have hdrop : (front ++ b :: more).dropWhile isIdentContinue =
        front.dropWhile isIdentContinue ++ b :: more :=
      Option.some.inj (steady_identContinue.blank hb front more)
    have htake : (front ++ b :: more).takeWhile isIdentContinue = front.takeWhile isIdentContinue := by
      have hsplit := List.takeWhile_append_dropWhile (p := isIdentContinue) (l := front ++ b :: more)
      rw [hdrop, ← List.append_assoc] at hsplit
      exact List.append_cancel_right ((List.append_cancel_right hsplit).trans
        List.takeWhile_append_dropWhile.symm)
    by_cases hc : isIdentStart c = true
    · simp [identifier?, hc, hdrop, htake]
    · simp [identifier?, hc]

theorem steady_dropSuffix : Steady fun cs => some (dropSuffix cs) where
  suffix {cs rest} h := by
    rw [← Option.some.inj h, dropSuffix]
    split
    next hname => exact (identifier?_suffix hname).1
    next => exact List.suffix_refl cs
  cut {front rest after} h := by
    have hrest := Option.some.inj h
    rw [dropSuffix] at hrest
    split at hrest
    next name left hname =>
      subst hrest
      simp only [dropSuffix, identifier?_cut hname]
    next hnone =>
      obtain rfl : front = after := List.append_cancel_right hrest
      have hfront : identifier? front = none := by
        cases front with
        | nil => rfl
        | cons c front => simpa [identifier?] using hnone
      simp only [dropSuffix, hfront]
  blank {b} hb front more := by
    rw [dropSuffix, identifier?_blank hb, dropSuffix]
    cases identifier? front <;> rfl

theorem steady_numberEnd? : Steady numberEnd? where
  suffix {cs rest} h := by
    rw [numberEnd?] at h
    split at h
    next => cases h
    next => exact steady_dropSuffix.suffix h
  cut {front rest after} h := by
    rw [numberEnd?] at h
    split at h
    next => cases h
    next hend =>
      have hafter : dropSuffix front = after := Option.some.inj (steady_dropSuffix.cut h)
      rw [show dropSuffix (front ++ rest) = after ++ rest from Option.some.inj h] at hend
      rw [numberEnd?, hafter]
      cases after with
      | nil => rfl
      | cons c after => exact if_neg hend
  blank {b} hb front more := by
    have hrest : dropSuffix (front ++ b :: more) = dropSuffix front ++ b :: more :=
      Option.some.inj (steady_dropSuffix.blank hb front more)
    rw [numberEnd?, hrest, numberEnd?]
    cases dropSuffix front with
    | nil => simp [identContinue_of_isBlank hb]
    | cons c after => by_cases hc : isIdentContinue c = true <;> simp [hc]

/-- The exponent of a float goes on over a character, and keeps what value it has, or stops. -/
theorem exponentEnd?_cons (signed valued : Bool) (c : Char) :
    (∃ signed' valued', isBlank c = false ∧ (valued = true → valued' = true) ∧
      ∀ cs, exponentEnd? signed valued (c :: cs) = exponentEnd? signed' valued' cs) ∨
    ∀ cs, exponentEnd? signed valued (c :: cs) = if valued then some (c :: cs) else none := by
  have hsolid : ∀ k, isBlank k = false → c = k → isBlank c = false := by
    rintro k hk rfl
    exact hk
  by_cases hsign : (c = '+' || c = '-') = true
  · cases valued with
    | true => exact .inr fun cs => by rw [exponentEnd?, if_pos hsign, if_pos rfl, if_pos rfl]
    | false =>
      cases signed with
      | true => exact .inr fun cs => by rw [exponentEnd?, if_pos hsign]; rfl
      | false =>
        refine .inl ⟨true, false, ?_, nofun, fun cs => by rw [exponentEnd?, if_pos hsign]; rfl⟩
        rcases Bool.or_eq_true_iff.mp hsign with h | h
        · exact hsolid '+' (by decide) (of_decide_eq_true h)
        · exact hsolid '-' (by decide) (of_decide_eq_true h)
  by_cases hdigit : c.isDigit = true
  · refine .inl ⟨signed, true, ?_, fun _ => rfl, fun cs => by
      rw [exponentEnd?, if_neg hsign, if_pos hdigit]⟩
    cases hblank : isBlank c with
    | false => rfl
    | true =>
      rw [isDigit_of_isBlank hblank] at hdigit
      cases hdigit
  by_cases hunderscore : c = '_'
  · exact .inl ⟨signed, valued, hsolid '_' (by decide) hunderscore, id, fun cs => by
      rw [exponentEnd?, if_neg hsign, if_neg hdigit, if_pos hunderscore]⟩
  · exact .inr fun cs => by rw [exponentEnd?, if_neg hsign, if_neg hdigit, if_neg hunderscore]

theorem steady_exponentEnd? (signed valued : Bool) : Steady (exponentEnd? signed valued) := by
  refine steady_of_states (fun s : Bool × Bool => exponentEnd? s.1 s.2) Prod.snd
    (fun _ => rfl) (fun s c => ?_) (signed, valued)
  rcases exponentEnd?_cons s.1 s.2 c with ⟨signed', valued', hsolid, -, hstep⟩ | hstop
  · exact .inl ⟨(signed', valued'), hsolid, hstep⟩
  · exact .inr (.inl hstop)

/-- An exponent without a value has none in any part of it. -/
theorem exponentEnd?_none {signed valued : Bool} {front rest : List Char}
    (h : exponentEnd? signed valued (front ++ rest) = none) :
    exponentEnd? signed valued front = none := by
  have hvalued : ∀ cs signed, (exponentEnd? signed true cs).isSome := by
    intro cs
    induction cs with
    | nil => exact fun _ => rfl
    | cons c cs ih =>
      intro signed
      rcases exponentEnd?_cons signed true c with ⟨signed', valued', -, hkeep, hstep⟩ | hstop
      · rw [hstep, hkeep rfl]
        exact ih signed'
      · rw [hstop]
        rfl
  induction front generalizing signed valued with
  | nil =>
    cases valued with
    | true =>
      have hsome := hvalued rest signed
      rw [show exponentEnd? signed true rest = none from h] at hsome
      cases hsome
    | false => rfl
  | cons c front ih =>
    rw [List.cons_append] at h
    rcases exponentEnd?_cons signed valued c with ⟨signed', valued', -, -, hstep⟩ | hstop
    · rw [hstep] at h ⊢
      exact ih h
    · rw [hstop] at h ⊢
      cases valued <;> simp_all

theorem steady_intDigits? (base : Nat) (empty : Bool) : Steady (intDigits? base empty) := by
  refine steady_of_states (intDigits? base) not (fun s => by cases s <;> rfl) (fun empty c => ?_) empty
  have hblank : isBlank c = true → ∀ cs, intDigits? base empty (c :: cs) =
      if !empty then some (c :: cs) else none := by
    intro hb cs
    have hunderscore : c ≠ '_' := ne_of_class hb (by decide)
    rw [intDigits?, if_neg hunderscore, hexDigit?_of_isBlank hb]
    cases empty <;> rfl
  cases hb : isBlank c with
  | true => exact .inr (.inl (hblank hb))
  | false =>
    by_cases hunderscore : c = '_'
    · by_cases hfail : (empty && base = 10) = true
      · exact .inr (.inr ⟨rfl, fun cs => by rw [intDigits?, if_pos hunderscore, if_pos hfail]⟩)
      · exact .inl ⟨empty, rfl, fun cs => by rw [intDigits?, if_pos hunderscore, if_neg hfail]⟩
    cases hdigit : hexDigit? c with
    | none =>
      refine .inr (.inl fun cs => ?_)
      rw [intDigits?, if_neg hunderscore, hdigit]
      cases empty <;> rfl
    | some digit =>
      by_cases hlt : digit < base
      · exact .inl ⟨false, rfl, fun cs => by
          rw [intDigits?, if_neg hunderscore, hdigit]
          exact if_pos hlt⟩
      by_cases hfail : (c.isDigit || empty) = true
      · exact .inr (.inr ⟨rfl, fun cs => by
          rw [intDigits?, if_neg hunderscore, hdigit]
          exact (if_neg hlt).trans (if_pos hfail)⟩)
      · refine .inr (.inl fun cs => ?_)
        rw [intDigits?, if_neg hunderscore, hdigit]
        refine (if_neg hlt).trans ((if_neg hfail).trans ?_)
        cases empty <;> simp_all

/-- A steady reader takes something if it finds nothing in the empty text. -/
theorem Steady.length_lt {read : List Char → Option (List Char)} (h : Steady read)
    (hnil : read [] = none) {cs rest : List Char} (hrest : read cs = some rest) :
    rest.length < cs.length := by
  have hsuffix := h.suffix hrest
  refine Nat.lt_of_le_of_ne hsuffix.length_le fun hlength => ?_
  obtain rfl := hsuffix.eq_of_length hlength
  have hcut : read ([] ++ rest) = some ([] ++ rest) := hrest
  rw [h.cut hcut] at hnil
  cases hnil

/-- What follows the exponent behind the digits of a fraction, if there is one. -/
def afterScale : List Char → List Char
  | [] => []
  | e :: rest =>
    if e = 'e' || e = 'E' then (exponentEnd? false false rest).getD (e :: rest) else e :: rest

/-- What follows the fraction and the exponent of a number, from behind its point on. -/
def fraction? (cs : List Char) : Option (List Char) :=
  if cs.head?.any fun d => d = '.' || isIdentStart d then none
  else some (afterScale (cs.dropWhile isDigitOrUnderscore))

/-- What follows a float, from behind its leading digits on. -/
def floatTail? : List Char → Option (List Char)
  | [] => none
  | '.' :: rest => fraction? rest
  | e :: rest => if e = 'e' || e = 'E' then exponentEnd? false false rest else none

theorem floatDigits?_eq (cs : List Char) : floatDigits? cs =
    if cs.head?.any Char.isDigit then floatTail? (cs.dropWhile isDigitOrUnderscore) else none := by
  cases cs with
  | nil => rfl
  | cons c cs =>
    rw [floatDigits?]
    by_cases hdigit : c.isDigit = true
    · rw [if_neg (by simp [hdigit]), if_pos (by simpa using hdigit)]
      split
      next left heq =>
        rw [heq, floatTail?, fraction?]
        split
        next => rfl
        next =>
          cases left.dropWhile isDigitOrUnderscore with
          | nil => rfl
          | cons e rest => by_cases he : (e = 'e' || e = 'E') = true <;> simp [afterScale, he]
      next hpoint heq => rw [heq, floatTail?.eq_3 _ _ hpoint]
      next heq => rw [heq, floatTail?]
    · rw [if_pos (by simpa using hdigit), if_neg (by simpa using hdigit)]

theorem steady_afterScale : Steady fun cs => some (afterScale cs) := by
  have hsuffix : ∀ cs, afterScale cs <:+ cs := by
    intro cs
    cases cs with
    | nil => exact List.suffix_refl []
    | cons e cs =>
      rw [afterScale]
      split
      next =>
        cases hexp : exponentEnd? false false cs with
        | none => exact List.suffix_refl _
        | some rest => exact ((steady_exponentEnd? _ _).suffix hexp).trans (List.suffix_cons e cs)
      next => exact List.suffix_refl _
  refine ⟨fun {cs rest} h => Option.some.inj h ▸ hsuffix cs, ?_, ?_⟩
  · intro front rest after h
    have hrest := Option.some.inj h
    cases front with
    | nil =>
      have hnil := hsuffix rest
      rw [show afterScale rest = after ++ rest from hrest] at hnil
      rw [eq_nil_of_suffix hnil]
      rfl
    | cons e front =>
      rw [List.cons_append, afterScale] at hrest
      rw [afterScale]
      split at hrest
      next he =>
        rw [if_pos he]
        cases hexp : exponentEnd? false false (front ++ rest) with
        | none =>
          rw [hexp] at hrest
          rw [exponentEnd?_none hexp]
          exact congrArg some (List.append_cancel_right hrest)
        | some left =>
          rw [hexp] at hrest
          obtain rfl : left = after ++ rest := hrest
          rw [(steady_exponentEnd? _ _).cut hexp]
          rfl
      next he =>
        rw [if_neg he]
        exact congrArg some (List.append_cancel_right hrest)
  · intro b hb front more
    cases front with
    | nil =>
      have he : b ≠ 'e' := ne_of_class hb (by decide)
      have hupper : b ≠ 'E' := ne_of_class hb (by decide)
      simp [afterScale, he, hupper]
    | cons e front =>
      by_cases he : (e = 'e' || e = 'E') = true
      · rw [List.cons_append, afterScale, if_pos he, (steady_exponentEnd? _ _).blank hb, afterScale,
          if_pos he]
        cases exponentEnd? false false front <;> rfl
      · rw [List.cons_append, afterScale, if_neg he, afterScale, if_neg he]
        rfl

theorem isDigitOrUnderscore_of_isBlank {b : Char} (hb : isBlank b = true) :
    isDigitOrUnderscore b = false := by
  have hunderscore : b ≠ '_' := ne_of_class hb (by decide)
  simp [isDigitOrUnderscore, isDigit_of_isBlank hb, hunderscore]

theorem steady_digits : Steady fun cs => some (cs.dropWhile isDigitOrUnderscore) :=
  steady_dropWhile fun _ hb => isDigitOrUnderscore_of_isBlank hb

theorem steady_fraction? : Steady fraction? := by
  have hread := steady_digits.bind steady_afterScale
  refine ⟨fun {cs rest} h => ?_, fun {front rest after} h => ?_, fun {b} hb front more => ?_⟩
  · rw [fraction?] at h
    split at h
    next => cases h
    next => exact hread.suffix h
  · rw [fraction?] at h
    split at h
    next => cases h
    next hhead =>
      rw [fraction?, if_neg]
      · exact hread.cut h
      · cases front with
        | nil => simp
        | cons d front => exact hhead
  · have hhead : ((front ++ b :: more).head?.any fun d => d = '.' || isIdentStart d) =
        front.head?.any fun d => d = '.' || isIdentStart d := by
      cases front with
      | nil =>
        have hpoint : b ≠ '.' := ne_of_class hb (by decide)
        simp [identStart_of_isBlank hb, hpoint]
      | cons d front => rfl
    rw [fraction?, hhead, fraction?]
    split
    next => rfl
    next => exact hread.blank hb front more

theorem steady_floatTail? : Steady floatTail? := by
  have hsuffix : ∀ {cs rest}, floatTail? cs = some rest → rest <:+ cs ∧ rest.length < cs.length := by
    have hcons : ∀ {c : Char} {cs rest : List Char}, rest <:+ cs → rest <:+ c :: cs ∧
        rest.length < (c :: cs).length :=
      fun h => ⟨h.trans (List.suffix_cons ..), Nat.lt_succ_of_le h.length_le⟩
    intro cs rest h
    unfold floatTail? at h
    split at h
    next => cases h
    next => exact hcons (steady_fraction?.suffix h)
    next =>
      split at h
      next => exact hcons ((steady_exponentEnd? _ _).suffix h)
      next => cases h
  refine ⟨fun h => (hsuffix h).1, fun {front rest after} h => ?_, fun {b} hb front more => ?_⟩
  · cases front with
    | nil =>
      have hlt := (hsuffix h).2
      rw [List.nil_append, List.length_append] at hlt
      omega
    | cons c front =>
      by_cases hpoint : c = '.'
      · subst hpoint
        exact steady_fraction?.cut h
      · rw [List.cons_append, floatTail?.eq_3 _ _ hpoint] at h
        rw [floatTail?.eq_3 _ _ hpoint]
        split at h
        next he => rw [if_pos he]; exact (steady_exponentEnd? _ _).cut h
        next => cases h
  · cases front with
    | nil =>
      have he : b ≠ 'e' := ne_of_class hb (by decide)
      have hupper : b ≠ 'E' := ne_of_class hb (by decide)
      have hpoint : b ≠ '.' := ne_of_class hb (by decide)
      simp [floatTail?.eq_3 _ _ hpoint, floatTail?.eq_1, he, hupper]
    | cons c front =>
      by_cases hpoint : c = '.'
      · subst hpoint
        exact steady_fraction?.blank hb front more
      · rw [List.cons_append, floatTail?.eq_3 _ _ hpoint, floatTail?.eq_3 _ _ hpoint]
        split
        next => exact (steady_exponentEnd? _ _).blank hb front more
        next => rfl

theorem steady_floatDigits? : Steady floatDigits? := by
  have hread := steady_digits.bind steady_floatTail?
  refine ⟨fun {cs rest} h => ?_, fun {front rest after} h => ?_, fun {b} hb front more => ?_⟩
  · rw [floatDigits?_eq] at h
    split at h
    next => exact hread.suffix h
    next => cases h
  · rw [floatDigits?_eq] at h
    split at h
    next hdigit =>
      have hfront := hread.cut h
      rw [floatDigits?_eq, if_pos]
      · exact hfront
      · cases front with
        | nil => cases hfront
        | cons c front => exact hdigit
    next => cases h
  · have hhead : (front ++ b :: more).head?.any Char.isDigit = front.head?.any Char.isDigit := by
      cases front with
      | nil => simp [isDigit_of_isBlank hb]
      | cons c front => rfl
    rw [floatDigits?_eq, hhead, floatDigits?_eq]
    split
    next => exact hread.blank hb front more
    next => rfl

theorem steady_float? : Steady float? := steady_floatDigits?.bind steady_numberEnd?

theorem intBase_append (c d : Char) (front more : List Char) : intBase (c :: d :: front ++ more) =
    ((intBase (c :: d :: front)).1, (intBase (c :: d :: front)).2 ++ more) := by
  unfold intBase
  split <;> simp_all

theorem intBase_eq {c d : Char} (h : c ≠ '0' ∨ d ≠ 'x' ∧ d ≠ 'o' ∧ d ≠ 'b') (cs : List Char) :
    intBase (c :: d :: cs) = (10, c :: d :: cs) := by
  rcases h with hc | hd
  · simp [intBase, hc]
  · simp [intBase, hd]

theorem intBase_singleton (c : Char) : intBase [c] = (10, [c]) := by
  simp [intBase]

theorem steady_int? : Steady int? := by
  suffices hdigits : Steady fun cs => intDigits? (intBase cs).1 true (intBase cs).2 from
    hdigits.bind steady_numberEnd?
  have hsteady : ∀ base, Steady (intDigits? base true) := fun base => steady_intDigits? base true
  have hsuffix : ∀ cs, (intBase cs).2 <:+ cs := by
    intro cs
    unfold intBase
    split
    all_goals first
      | exact List.suffix_refl _
      | exact (List.suffix_cons ..).trans (List.suffix_cons ..)
  refine ⟨fun {cs rest} h => ((hsteady _).suffix h).trans (hsuffix cs), fun {front rest after} h => ?_,
    fun {b} hb front more => ?_⟩
  · match front with
    | [] =>
      have hlt := (hsteady _).length_lt rfl h
      have hle := (hsuffix ([] ++ rest)).length_le
      rw [List.length_append] at hlt
      rw [List.nil_append] at hlt hle
      omega
    | [c] =>
      cases rest with
      | nil => simpa using h
      | cons d rest =>
        by_cases hd : c ≠ '0' ∨ d ≠ 'x' ∧ d ≠ 'o' ∧ d ≠ 'b'
        · rw [List.singleton_append, intBase_eq hd] at h
          rw [intBase_singleton]
          exact (hsteady 10).cut h
        · -- What is left is less than the digits of another base.
          have hle : (intBase (c :: d :: rest)).2.length < (d :: rest).length := by
            obtain ⟨rfl, hletter⟩ : c = '0' ∧ (d = 'x' ∨ d = 'o' ∨ d = 'b') := by tauto
            rcases hletter with rfl | rfl | rfl <;> exact Nat.lt_succ_self _
          have hrest := ((hsteady _).suffix h).length_le
          rw [List.length_append] at hrest
          exact absurd (Nat.le_trans (Nat.le_add_left ..) hrest) (Nat.not_le_of_lt hle)
    | c :: d :: front =>
      rw [intBase_append] at h
      exact (hsteady _).cut h
  · match front with
    | [] =>
      have hzero : b ≠ '0' := ne_of_class hb (by decide)
      have hbase : intBase (b :: more) = (10, b :: more) := by simp [intBase, hzero]
      rw [List.nil_append, hbase]
      exact (hsteady 10).blank hb [] more
    | [c] =>
      have hd : b ≠ 'x' ∧ b ≠ 'o' ∧ b ≠ 'b' := ⟨ne_of_class hb (by decide),
        ne_of_class hb (by decide), ne_of_class hb (by decide)⟩
      rw [List.singleton_append, intBase_eq (.inr hd), intBase_singleton]
      exact (hsteady 10).blank hb [c] more
    | c :: d :: front =>
      rw [intBase_append]
      exact (hsteady _).blank hb _ more

end Literal

end ComponentRegistry
