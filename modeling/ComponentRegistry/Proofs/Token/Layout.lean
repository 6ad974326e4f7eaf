import ComponentRegistry.Proofs.Token.Cut

/-! Layout: blanks and comments that stand between tokens. The places where it may be put into a text
are those that its steps come to (`Lexer.Comes`), if a token starts there (`Lexer.Gap`) and what stands
in front of it does not depend on this token (`Lexer.Settled`). The lexemes stay the same then
(`Lexer.Gap.lexemes?`). -/

namespace ComponentRegistry

open Text

namespace Lexer

/-- Blanks and comments that are no doc comments, each of which ends by itself. -/
inductive Layout : List Char → Prop
  | nil : Layout []
  | blank {c : Char} {cs : List Char} : isBlank c = true → Layout cs → Layout (c :: cs)
  | line {inside cs : List Char} : Runs inside → Layout cs → Layout ('/' :: '/' :: (inside ++ '\n' :: cs))
  | block {inside cs : List Char} : startsDocBlock (inside ++ ['*', '/']) = false →
    afterBlockComment? ('/' :: '*' :: (inside ++ ['*', '/'])) = some [] → Layout cs →
    Layout ('/' :: '*' :: (inside ++ '*' :: '/' :: cs))

theorem Layout.passed {gap : List Char} (h : Layout gap) (rest : List Char) :
    Blanks (gap ++ rest) rest := by
  induction h with
  | nil => exact .refl
  | blank hb _ ih => exact ((blankRun_singleton hb).passed _).trans ih
  | @line inside cs hinside _ ih =>
    have hline : blank? ('/' :: '/' :: (inside ++ '\n' :: (cs ++ rest))) = some ('\n' :: (cs ++ rest)) :=
      hinside.blank? fun c hc => (Option.some.inj hc).symm
    have hfeed : blank? ('\n' :: (cs ++ rest)) = some (cs ++ rest) := by
      simp [blank?, show isBlank '\n' = true by decide]
    simpa using Blanks.step hline (.step hfeed ih)
  | @block inside cs hplain hclosed _ ih =>
    obtain ⟨inside', hinside, hmore⟩ := afterBlockComment?_append hclosed
    obtain rfl : inside = inside' := List.append_cancel_right hinside
    have hblock := (blankRun_block hplain hmore).passed (cs ++ rest)
    simpa using hblock.trans ih

/-- The lexemes of a text up to a place that one of its steps comes to. -/
inductive Comes : List Char → List Lexeme → List Char → Prop
  | refl {cs : List Char} : Comes cs [] cs
  | step {cs mid rest : List Char} {lexemes more : List Lexeme} : step? cs = some (lexemes, mid) →
    Comes mid more rest → Comes cs (lexemes ++ more) rest

theorem Comes.trans {cs mid rest : List Char} {lexemes more : List Lexeme}
    (h : Comes cs lexemes mid) (hrest : Comes mid more rest) : Comes cs (lexemes ++ more) rest := by
  induction h with
  | refl => exact hrest
  | step hstep _ ih =>
    rw [List.append_assoc]
    exact .step hstep (ih hrest)

theorem Blanks.comes {cs rest : List Char} (h : Blanks cs rest) : Comes cs [] rest := by
  induction h with
  | refl => exact .refl
  | step hblank _ ih => exact .step (step?_iff.mpr (.blank hblank)) ih

/-- A line that another one follows ends at its line feed. -/
theorem line_split {cs rest : List Char} (h : (line cs).2 = rest) (hrest : rest ≠ []) :
    ∃ taken tail, cs = taken ++ '\n' :: tail ∧ rest = '\n' :: tail ∧
      ∀ more, line (taken ++ '\n' :: more) = ((line cs).1, '\n' :: more) := by
  subst h
  fun_induction line cs with
  | case1 => exact absurd rfl hrest
  | case2 cs => exact ⟨[], cs, rfl, rfl, fun _ => rfl⟩
  | case3 cs => exact ⟨['\r'], cs, rfl, rfl, fun _ => rfl⟩
  | case4 c cs hfeed hreturn ih =>
    obtain ⟨taken, tail, hcs, htail, hmore⟩ := ih hrest
    refine ⟨c :: taken, tail, by rw [hcs]; rfl, htail, fun more => ?_⟩
    have hline : line (c :: (taken ++ '\n' :: more)) =
        (c :: (line (taken ++ '\n' :: more)).1, (line (taken ++ '\n' :: more)).2) := by
      refine line.eq_4 _ _ hfeed fun rest hc hrest => ?_
      cases taken with
      | nil => exact hreturn tail hc hcs
      | cons d taken =>
        obtain ⟨hd, -⟩ := List.cons.inj hrest
        exact hreturn (taken ++ '\n' :: tail) hc (by rw [hcs, hd]; rfl)
    rw [List.cons_append, hline, hmore]

/-- A doc comment stands here. -/
def ReadsDoc (cs content : List Char) (inner : Bool) (rest : List Char) : Prop :=
  blank? cs = none ∧ docComment? cs = some (content, inner, rest)

theorem docBlock?_ends {cs content rest : List Char} {inner found : Bool}
    (h : docBlock? inner ('/' :: '*' :: cs) = some (content, found, rest)) :
    ∃ c d inside, cs = c :: d :: inside ++ rest ∧ found = inner ∧
      ∀ more, docBlock? inner ('/' :: '*' :: (c :: d :: inside ++ more)) =
        some (content, inner, more) := by
  obtain ⟨⟨comment, after⟩, hcomment, h⟩ := Option.map_eq_some_iff.mp h
  obtain ⟨rfl, rfl, rfl⟩ : blockInside comment = content ∧ inner = found ∧ after = rest := by
    simpa using h
  rw [blockComment?] at hcomment
  obtain ⟨⟨inside, after⟩, hinside, h⟩ := Option.map_eq_some_iff.mp hcomment
  obtain ⟨rfl, rfl⟩ := Prod.mk.inj h
  obtain ⟨rfl, ⟨start, rfl⟩, hmore⟩ := blockComment?_append hinside
  obtain ⟨c, d, tail, hstart⟩ : ∃ c d tail, start ++ ['*', '/'] = c :: d :: tail := by
    obtain _ | ⟨c, _ | ⟨d, start⟩⟩ := start
    all_goals exact ⟨_, _, _, rfl⟩
  rw [hstart] at hmore ⊢
  refine ⟨c, d, tail, rfl, rfl, fun more => ?_⟩
  rw [docBlock?, blockComment?, hmore]
  rfl

/-- A doc comment in front of something ends by itself or at the end of its line. -/
theorem ReadsDoc.ends {cs content rest : List Char} {inner : Bool} (h : ReadsDoc cs content inner rest)
    (hrest : rest ≠ []) : ∃ taken, 2 ≤ taken.length ∧ cs = taken ++ rest ∧
      ((∀ more, ReadsDoc (taken ++ more) content inner more) ∨
      (∃ tail, rest = '\n' :: tail) ∧
        ∀ more, ReadsDoc (taken ++ '\n' :: more) content inner ('\n' :: more)) := by
  have hslash : isBlank '/' = false := by decide
  obtain ⟨hblank, h⟩ := h
  unfold docComment? at h
  split at h
  next cs =>
    obtain ⟨rfl, rfl, hline⟩ : (line cs).1 = content ∧ true = inner ∧ (line cs).2 = rest := by
      simpa using h
    obtain ⟨taken, tail, hcs, rfl, hmore⟩ := line_split hline hrest
    refine ⟨'/' :: '/' :: '!' :: taken, by simp, by rw [hcs]; rfl,
      .inr ⟨⟨tail, rfl⟩, fun more => ⟨?_, ?_⟩⟩⟩
    · simp [blank?, hslash, comment?]
    · rw [List.cons_append, List.cons_append, List.cons_append, docComment?, hmore]
  next cs =>
    obtain ⟨c, d, inside, hcs, rfl, hmore⟩ := docBlock?_ends h
    obtain ⟨rfl, rfl⟩ := List.cons.inj hcs
    refine ⟨'/' :: '*' :: '!' :: d :: inside, by simp, rfl, .inl fun more => ⟨?_, hmore more⟩⟩
    simp [blank?, hslash, comment?]
  next => cases h
  next cs hslashes =>
    obtain ⟨rfl, rfl, hline⟩ : (line cs).1 = content ∧ false = inner ∧ (line cs).2 = rest := by
      simpa using h
    obtain ⟨taken, tail, hcs, rfl, hmore⟩ := line_split hline hrest
    have hhead : ∀ more rest, taken ++ '\n' :: more ≠ '/' :: rest := by
      intro more rest heq
      cases taken with
      | nil => exact absurd (List.cons.inj heq).1 (by decide)
      | cons c taken =>
        obtain ⟨rfl, -⟩ := List.cons.inj heq
        exact hslashes _ hcs
    refine ⟨'/' :: '/' :: '/' :: taken, by simp, by rw [hcs]; rfl,
      .inr ⟨⟨tail, rfl⟩, fun more => ⟨?_, ?_⟩⟩⟩
    · have hdoc : startsDoc ('/' :: (taken ++ '\n' :: more)) = true := by
        cases taken with
        | nil => rfl
        | cons c taken =>
          have hc : c ≠ '/' := fun hc => hhead more _ (by rw [hc]; rfl)
          simp [startsDoc, hc]
      simp [blank?, hslash, comment?_line, hdoc]
    · rw [List.cons_append, List.cons_append, List.cons_append, docComment?.eq_4 _ (hhead more), hmore]
  next => cases h
  next cs hstar =>
    obtain ⟨c, d, inside, hcs, rfl, hmore⟩ := docBlock?_ends h
    obtain ⟨rfl, rfl⟩ := List.cons.inj hcs
    have hd : d ≠ '*' ∧ d ≠ '/' := by
      constructor
      · rintro rfl
        exact hstar _ rfl
      · rintro rfl
        cases hblank
    refine ⟨'/' :: '*' :: '*' :: d :: inside, by simp, rfl, .inl fun more => ⟨?_, ?_⟩⟩
    · have hdoc : startsDocBlock ('*' :: d :: (inside ++ more)) = true := by
        simp [startsDocBlock, hd]
      simp [blank?, hslash, comment?_block, hdoc]
    · have hread := docComment?.eq_6 (d :: inside ++ more) fun rest heq => hd.1 (List.cons.inj heq).1
      exact hread.trans (hmore more)
  next => cases h

theorem docBlock?_suffix {cs content rest : List Char} {inner found : Bool}
    (h : docBlock? inner ('/' :: '*' :: cs) = some (content, found, rest)) : rest <:+ cs := by
  obtain ⟨c, d, inside, rfl, -⟩ := docBlock?_ends h
  exact List.suffix_append ..

theorem line_suffix (cs : List Char) : (line cs).2 <:+ cs := by
  rw [line_snd]
  exact List.dropWhile_suffix _

/-- A comment takes at least the two characters that it starts with. -/
theorem comment?_suffix {cs rest : List Char} (h : comment? cs = some rest) :
    ∃ c inside, cs = '/' :: c :: inside ∧ rest <:+ inside := by
  obtain ⟨inside, rfl | rfl⟩ := comment?_opening h
  · rw [comment?_line] at h
    split at h
    next => cases h
    next => exact ⟨_, inside, rfl, Option.some.inj h ▸ List.dropWhile_suffix _⟩
  · rw [comment?_block] at h
    split at h
    next => cases h
    next =>
      obtain ⟨before, rfl, -⟩ := afterBlockComment?_append h
      exact ⟨_, _, rfl, (List.suffix_cons ..).trans ((List.suffix_cons ..).trans
        (List.suffix_append ..))⟩

theorem docComment?_suffix {cs content rest : List Char} {inner : Bool}
    (h : docComment? cs = some (content, inner, rest)) :
    ∃ c inside, cs = '/' :: c :: inside ∧ rest <:+ inside := by
  unfold docComment? at h
  split at h
  next cs =>
    obtain ⟨-, -, rfl⟩ : (line cs).1 = content ∧ true = inner ∧ (line cs).2 = rest := by simpa using h
    exact ⟨_, _, rfl, (line_suffix cs).trans (List.suffix_cons ..)⟩
  next => exact ⟨_, _, rfl, docBlock?_suffix h⟩
  next => cases h
  next cs _ =>
    obtain ⟨-, -, rfl⟩ : (line cs).1 = content ∧ false = inner ∧ (line cs).2 = rest := by simpa using h
    exact ⟨_, _, rfl, (line_suffix cs).trans (List.suffix_cons ..)⟩
  next => cases h
  next => exact ⟨_, _, rfl, docBlock?_suffix h⟩
  next => cases h

theorem step?_suffix {cs rest : List Char} {lexemes : List Lexeme}
    (h : step? cs = some (lexemes, rest)) : rest <:+ cs ∧ rest.length < cs.length := by
  have hcons : ∀ {c : Char} {cs rest : List Char}, rest <:+ cs → rest <:+ c :: cs ∧
      rest.length < (c :: cs).length :=
    fun hrest => ⟨hrest.trans (List.suffix_cons ..), Nat.lt_succ_of_le hrest.length_le⟩
  cases step?_iff.mp h with
  | blank hblank =>
    cases cs with
    | nil => cases hblank
    | cons c cs =>
      rw [blank?] at hblank
      split at hblank
      next => exact hcons (Option.some.inj hblank ▸ List.suffix_refl cs)
      next =>
        obtain ⟨d, inside, heq, hsuffix⟩ := comment?_suffix hblank
        obtain ⟨-, rfl⟩ := List.cons.inj heq
        exact hcons (hsuffix.trans (List.suffix_cons ..))
  | doc _ hdoc _ =>
    obtain ⟨c, inside, rfl, hsuffix⟩ := docComment?_suffix hdoc
    exact hcons (hsuffix.trans (List.suffix_cons ..))
  | error =>
    refine ⟨List.suffix_append .., ?_⟩
    rw [List.length_append]
    exact Nat.lt_add_of_pos_left (by decide)
  | bracket => exact hcons (List.suffix_refl _)
  | token _ _ _ htoken => exact token?_suffix htoken

theorem Comes.suffix {cs rest : List Char} {lexemes : List Lexeme} (h : Comes cs lexemes rest) :
    rest <:+ cs := by
  induction h with
  | refl => exact List.suffix_refl _
  | step hstep _ ih => exact ih.trans (step?_suffix hstep).1

theorem lexes_of_lexemesIn? {fuel : Nat} {cs : List Char} {lexemes : List Lexeme}
    (h : lexemesIn? fuel cs = some lexemes) : Lexes cs lexemes := by
  induction fuel generalizing cs lexemes with
  | zero =>
    cases cs with
    | nil => exact Option.some.inj h ▸ .nil
    | cons => cases h
  | succ fuel ih =>
    cases cs with
    | nil => exact Option.some.inj h ▸ .nil
    | cons c cs =>
      obtain ⟨⟨first, rest⟩, hstep, h⟩ := Option.bind_eq_some_iff.mp h
      obtain ⟨more, hmore, h⟩ := Option.bind_eq_some_iff.mp h
      obtain rfl := Option.some.inj h
      exact .step hstep (step?_suffix hstep).2 (ih hmore)

/-- The lexemes of a text, from a place on that its steps come to. -/
theorem Comes.lexes_iff {cs rest : List Char} {before : List Lexeme} (h : Comes cs before rest)
    {lexemes : List Lexeme} :
    Lexes cs lexemes ↔ ∃ more, lexemes = before ++ more ∧ Lexes rest more := by
  induction h generalizing lexemes with
  | refl => simp
  | @step cs mid rest first before hstep _ ih =>
    constructor
    · intro hlexes
      cases hlexes with
      | nil => cases hstep
      | step hfirst _ hmid =>
        obtain ⟨rfl, rfl⟩ := Prod.mk.inj (Option.some.inj (hstep.symm.trans hfirst))
        obtain ⟨more, rfl, hrest⟩ := ih.mp hmid
        exact ⟨more, by rw [List.append_assoc], hrest⟩
    · rintro ⟨more, rfl, hrest⟩
      rw [List.append_assoc]
      exact .step hstep (step?_suffix hstep).2 (ih.mpr ⟨more, rfl, hrest⟩)

/-- A place in a text where a token starts, unless it is a mark or a lifetime behind another mark. -/
structure Gap (start rest : List Char) : Prop where
  comes : ∃ before, Comes start before rest
  token : rest ≠ [] ∧ blank? rest = none
  marks : ∀ {before mid c joint}, Comes start before mid →
    step? mid = some ([.token (.mark c joint)], rest) → startsMark rest = false

/-- What stands in front of the place does not depend on what stands behind it: no apostrophe stands
alone there, and no integer is kept from being a float. A number that ends in a point or in the sign of
an exponent is a float only if it is not used otherwise by what follows. -/
structure Settled (start rest : List Char) : Prop where
  lone : ∀ {before mid joint}, Comes start before mid →
    step? mid ≠ some ([.token (.mark '\x27' joint)], rest)
  floats : ∀ {before number}, Comes start before (number ++ rest) →
    Literal.float? (number ++ rest) = none → Literal.float? number = none

theorem Gap.step {cs mid rest : List Char} {lexemes more : List Lexeme} (h : Gap cs rest)
    (hstep : step? cs = some (lexemes, mid)) (hcomes : Comes mid more rest) : Gap mid rest where
  comes := ⟨more, hcomes⟩
  token := h.token
  marks hbefore := h.marks (.step hstep hbefore)

theorem Settled.step {cs mid rest : List Char} {lexemes : List Lexeme} (h : Settled cs rest)
    (hstep : step? cs = some (lexemes, mid)) : Settled mid rest where
  lone hbefore := h.lone (.step hstep hbefore)
  floats hbefore := h.floats (.step hstep hbefore)

/-- A place behind a step is one of what the step leaves. -/
theorem Gap.tail {front after rest : List Char} {lexemes : List Lexeme} (h : Gap (front ++ rest) rest)
    (hfront : front ≠ []) (hstep : step? (front ++ rest) = some (lexemes, after ++ rest)) :
    Gap (after ++ rest) rest := by
  obtain ⟨before, hcomes⟩ := h.comes
  generalize htext : front ++ rest = text at h hcomes hstep
  cases hcomes with
  | refl => exact absurd (by simpa using htext) hfront
  | step hfirst hmid =>
    obtain ⟨-, rfl⟩ := Prod.mk.inj (Option.some.inj (hstep.symm.trans hfirst))
    exact h.step hstep hmid

theorem Gap.feed {start rest : List Char} (h : Gap start rest) (tail : List Char) :
    rest ≠ '\n' :: tail := by
  rintro rfl
  have hblank : isBlank '\n' = true := by decide
  simpa [blank?, hblank] using h.token.2

/-- A slash that opens a comment is left behind with the slash or the star next to it. -/
theorem startsMark_of_step? {cs rest : List Char} {lexemes : List Lexeme}
    (h : step? ('/' :: cs) = some (lexemes, rest)) (hlength : cs.length ≤ rest.length) :
    startsMark ('/' :: cs) = true := by
  have hopening : ∀ {c inside}, '/' :: cs = '/' :: c :: inside → ¬ rest <:+ inside := by
    intro c inside heq hsuffix
    obtain ⟨-, rfl⟩ := List.cons.inj heq
    have hlt := hsuffix.length_le
    rw [List.length_cons] at hlength
    omega
  generalize htext : '/' :: cs = text at h
  cases step?_iff.mp h with
  | blank hblank =>
    subst htext
    have hslash : isBlank '/' = false := by decide
    rw [blank?, hslash] at hblank
    obtain ⟨c, inside, heq, hsuffix⟩ := comment?_suffix hblank
    exact absurd hsuffix (hopening heq)
  | doc _ hdoc _ =>
    obtain ⟨c, inside, heq, hsuffix⟩ := docComment?_suffix hdoc
    exact absurd hsuffix (hopening (htext.trans heq))
  | error => exact absurd (List.cons.inj htext).1 (by decide)
  | bracket hbracket =>
    obtain ⟨rfl, -⟩ := List.cons.inj htext
    cases hbracket
  | token _ hslash _ _ =>
    obtain ⟨rfl, rfl⟩ := List.cons.inj htext
    exact hslash.resolve_left (by simp)

/-- What starts with a letter is a token. -/
theorem token?_of_identStart {c : Char} (hc : isIdentStart c = true) {cs rest : List Char}
    {lexemes : List Lexeme} (h : step? (c :: cs) = some (lexemes, rest)) :
    ∃ token, token? (c :: cs) = some (token, rest) := by
  have hslash : c ≠ '/' := ne_of_class hc (by decide)
  generalize htext : c :: cs = text at h
  cases step?_iff.mp h with
  | blank hblank =>
    subst htext
    rw [blank?, isBlank_of_identStart hc] at hblank
    obtain ⟨d, inside, heq, -⟩ := comment?_suffix hblank
    exact absurd (List.cons.inj heq).1 hslash
  | doc _ hdoc _ =>
    obtain ⟨d, inside, heq, -⟩ := docComment?_suffix hdoc
    exact absurd (List.cons.inj (htext.trans heq)).1 hslash
  | error =>
    obtain ⟨rfl, -⟩ := List.cons.inj htext
    exact absurd hc (by decide)
  | bracket hbracket =>
    obtain ⟨rfl, rfl⟩ := List.cons.inj htext
    rw [bracket?_of_identStart hc] at hbracket
    cases hbracket
  | token _ _ _ htoken => exact ⟨_, htoken⟩

/-- The literal that an apostrophe stands alone in front of is known by its start, of which nothing is
cut off behind a whole step. -/
theorem spoiledLiteral_cut {front rest after left : List Char} {lexemes : List Lexeme}
    (hfront : front ≠ []) (hlifetime : lifetime? (front ++ rest) = some (.mark '\x27' true, left))
    (hstep : step? (front ++ rest) = some (lexemes, after ++ rest)) : spoiledLiteral front = true := by
  obtain ⟨c, front, rfl⟩ := List.exists_cons_of_ne_nil hfront
  rw [List.cons_append] at hlifetime hstep
  obtain ⟨raw, name, found, hword, ⟨hspoiled, -, -⟩ | ⟨-, -, htoken, -⟩⟩ := lifetime?_cases hlifetime
  · obtain ⟨d, more, heq, hc⟩ := identStart_of_anyWord? hword
    obtain ⟨rfl, -⟩ := List.cons.inj heq
    obtain ⟨token, htoken⟩ := token?_of_identStart hc hstep
    have hnone : Literal.float? (c :: front) = none := by
      rw [Literal.float?, Literal.floatDigits?_of_identStart hc]
      rfl
    generalize hleft : after ++ rest = mid at htoken
    cases token?_iff.mp htoken with
    | literal hend =>
      subst hleft
      have hcut : Literal.end? (c :: front) = some after := Literal.end?_cut (fun _ => hnone) hend
      cases hstart : spoiledLiteral (c :: front) with
      | true => rfl
      | false =>
        rw [end?_of_not_spoiled hc hstart] at hcut
        cases hcut
    | apostrophe _ hticks _ =>
      subst hticks
      exact absurd hc (by decide)
    | mark _ hmark =>
      rw [startsMark_of_identStart hc] at hmark
      cases hmark
    | word _ hplain _ =>
      rw [hspoiled] at hplain
      cases hplain
  · cases htoken

/-- What an apostrophe stands alone in front of is the rest of the text. -/
theorem lifetime?_of_lone {c : Char} {cs rest : List Char}
    (h : token? (c :: cs) = some (.mark '\x27' true, rest)) :
    lifetime? rest = some (.mark '\x27' true, rest) := by
  generalize htoken : Token.mark '\x27' true = token at h
  cases token?_iff.mp h with
  | literal => cases htoken
  | apostrophe _ _ hlifetime =>
    subst htoken
    obtain ⟨raw, name, after, -, ⟨-, -, rfl⟩ | ⟨-, -, htoken, -⟩⟩ := lifetime?_cases hlifetime
    · exact hlifetime
    · cases htoken
  | mark hticks =>
    obtain ⟨rfl, -⟩ := Token.mark.inj htoken
    exact absurd rfl hticks
  | word => cases htoken

theorem Comes.next {front rest : List Char} {lexemes : List Lexeme}
    (h : Comes (front ++ rest) lexemes rest) (hfront : front ≠ []) :
    ∃ first after, step? (front ++ rest) = some (first, after ++ rest) := by
  generalize htext : front ++ rest = text at h
  cases h with
  | refl => exact absurd (by simpa using htext) hfront
  | step hstep hmid =>
    obtain ⟨after, rfl⟩ := hmid.suffix
    exact ⟨_, after, hstep⟩

/-- Whether a mark stands next is seen from what stands before the place, if none stands behind it. -/
theorem Comes.startsMark {front rest : List Char} {lexemes : List Lexeme}
    (h : Comes (front ++ rest) lexemes rest) (hrest : front = [] → startsMark rest = false) :
    startsMark (front ++ rest) = startsMark front := by
  match front with
  | [] => exact hrest rfl
  | [c] =>
    by_cases hslash : c = '/'
    · subst hslash
      obtain ⟨first, after, hstep⟩ := h.next (by simp)
      exact startsMark_of_step? hstep (by simp)
    · simp [Lexer.startsMark, hslash]
  | c :: d :: front => rw [List.cons_append, List.cons_append, startsMark_cons, startsMark_cons]

/-- What is read in front of a token is read in front of a blank in its place, too. -/
theorem Gap.step_blank {front rest after : List Char} {lexemes more : List Lexeme}
    (h : Gap (front ++ rest) rest) (hsettled : Settled (front ++ rest) rest)
    (hstep : step? (front ++ rest) = some (lexemes, after ++ rest)) (hcomes : Comes (after ++ rest) more rest)
    {b : Char} (hb : isBlank b = true) (tail : List Char) :
    Comes (front ++ b :: tail) lexemes (after ++ b :: tail) := by
  have hone : ReadsStep (front ++ b :: tail) lexemes (after ++ b :: tail) →
      Comes (front ++ b :: tail) lexemes (after ++ b :: tail) := by
    intro hread
    simpa using Comes.step (step?_iff.mpr hread) .refl
  have hlength := (step?_suffix hstep).2
  -- A comment that runs to the end of its line ends before the token.
  have hline : (∀ c ∈ (after ++ rest).head?, c = '\n') → ∃ line, after = '\n' :: line := by
    intro hfeed
    cases after with
    | nil =>
      obtain ⟨c, more, rfl⟩ := List.exists_cons_of_ne_nil h.token.1
      obtain rfl := hfeed c rfl
      exact absurd rfl (h.feed more)
    | cons c line => exact ⟨line, by rw [hfeed c rfl]⟩
  generalize htext : front ++ rest = text at hstep
  generalize hleft : after ++ rest = left at hstep
  cases step?_iff.mp hstep with
  | blank hblank =>
    subst hleft
    rcases blank?_cases hblank with ⟨run, -, hrun, hpassed⟩ | ⟨inside, hinside, hrun, hfeed⟩
    · obtain rfl : front = run ++ after := by
        rw [hrun, ← List.append_assoc] at htext
        exact List.append_cancel_right htext
      rw [List.append_assoc]
      exact (hpassed.passed _).comes
    · obtain ⟨line, rfl⟩ := hline hfeed
      obtain rfl : front = '/' :: '/' :: inside ++ '\n' :: line := by
        rw [hrun, ← List.append_assoc] at htext
        exact List.append_cancel_right htext
      have hcomment : Lexer.blank? ('/' :: '/' :: (inside ++ '\n' :: (line ++ b :: tail))) =
          some ('\n' :: (line ++ b :: tail)) :=
        hinside.blank? fun c hc => (Option.some.inj hc).symm
      exact hone (.blank (by simpa using hcomment))
  | doc hblank hdoc hreturn =>
    subst hleft
    have hread : ReadsDoc _ _ _ _ := ⟨hblank, hdoc⟩
    obtain ⟨taken, -, htaken, hmore⟩ := hread.ends (by simp [h.token.1])
    obtain rfl : front = taken ++ after := by
      rw [htaken, ← List.append_assoc] at htext
      exact List.append_cancel_right htext
    rw [List.append_assoc] at hone ⊢
    rcases hmore with hmore | ⟨⟨line, hfeed⟩, hmore⟩
    · obtain ⟨hblank, hdoc⟩ := hmore (after ++ b :: tail)
      exact hone (.doc hblank hdoc hreturn)
    · obtain ⟨line, rfl⟩ := hline (by rw [hfeed]; exact fun c hc => (Option.some.inj hc).symm)
      obtain ⟨hblank, hdoc⟩ := hmore (line ++ b :: tail)
      exact hone (.doc hblank hdoc hreturn)
  | error =>
    subst hleft
    obtain rfl : front = errorLiteral ++ after := by
      rw [← List.append_assoc] at htext
      exact List.append_cancel_right htext
    rw [List.append_assoc] at hone ⊢
    exact hone .error
  | @bracket c _ _ hbracket herror =>
    subst hleft
    obtain rfl : front = c :: after := by
      rw [← List.cons_append] at htext
      exact List.append_cancel_right htext
    refine hone (.bracket hbracket ?_)
    cases herrors : errorLiteral.isPrefixOf (c :: (after ++ b :: tail)) with
    | false => rfl
    | true =>
      rw [← List.cons_append] at herrors
      have hprefix := prefix_of_blank hb (by decide) (List.isPrefixOf_iff_prefix.mp herrors)
      have htext := hprefix.trans (List.prefix_append (c :: after) rest)
      rw [← List.cons_append, List.isPrefixOf_iff_prefix.mpr htext] at herror
      cases herror
  | @token c cs _ token hsolid hslash hbracket htoken =>
    subst hleft
    cases front with
    | nil =>
      rw [List.length_append, List.nil_append] at hlength
      omega
    | cons d front =>
      obtain ⟨rfl, rfl⟩ := List.cons.inj htext
      have hcut : token? (d :: front) = some (token, after) := by
        refine token?_cut (hsettled.floats .refl) (fun c joint hmark => ?_) (fun hlone => ?_) htoken
        · subst hmark
          refine hcomes.startsMark fun hnil => ?_
          subst hnil
          exact h.marks .refl hstep
        · subst hlone
          have hafter : after ≠ [] := by
            rintro rfl
            exact hsettled.lone .refl hstep
          obtain ⟨first, left, hnext⟩ := hcomes.next hafter
          refine spoiledLiteral_cut hafter (lifetime?_of_lone htoken) hnext
      have hblank := token?_blank hb hcut tail
      exact hone (.token hsolid (startsMark_of_token? hblank) hbracket hblank)

/-- Up to the place the same lexemes are read in front of a blank. -/
theorem Gap.blank {front rest : List Char} (h : Gap (front ++ rest) rest)
    (hsettled : Settled (front ++ rest) rest) {before : List Lexeme}
    (hcomes : Comes (front ++ rest) before rest) {b : Char} (hb : isBlank b = true)
    (tail : List Char) : Comes (front ++ b :: tail) before (b :: tail) := by
  generalize htext : front ++ rest = text at hcomes
  induction hcomes generalizing front with
  | refl =>
    obtain rfl : front = [] := by simpa using htext
    exact .refl
  | @step cs mid rest first before hstep hmid ih =>
    subst htext
    obtain ⟨after, rfl⟩ := hmid.suffix
    exact (h.step_blank hsettled hstep hmid hb tail).trans
      (ih (h.step hstep hmid) (hsettled.step hstep) rfl)

/-- Layout that starts with a blank leaves the lexemes as they are. -/
theorem Gap.lexemes? {front gap rest : List Char} (h : Gap (front ++ rest) rest)
    (hsettled : Settled (front ++ rest) rest) (hgap : Layout gap)
    (hstart : ∀ c ∈ gap.head?, isBlank c = true) {lexemes : List Lexeme}
    (hlexemes : lexemes? (front ++ rest) = some lexemes) :
    Lexer.lexemes? (front ++ (gap ++ rest)) = some lexemes := by
  cases gap with
  | nil => exact hlexemes
  | cons b gap =>
    obtain ⟨before, hcomes⟩ := h.comes
    obtain ⟨more, rfl, hrest⟩ := hcomes.lexes_iff.mp (lexes_of_lexemesIn? hlexemes)
    have hblank := h.blank hsettled hcomes (hstart b rfl) (gap ++ rest)
    exact (hblank.lexes_iff.mpr ⟨more, rfl, (hgap.passed rest).lexes hrest⟩).lexemes?

/-! Whether layout may be put somewhere is decided by looking through the places of the text. -/

/-- What is left of the text at the places that up to `fuel` many steps come to. -/
def places : Nat → List Char → List (List Char)
  | 0, cs => [cs]
  | fuel + 1, cs => cs :: match step? cs with
    | some (_, rest) => places fuel rest
    | none => []

theorem mem_places_self (fuel : Nat) (cs : List Char) : cs ∈ places fuel cs := by
  cases fuel <;> exact List.mem_cons_self

theorem mem_places_iff {fuel : Nat} {cs rest : List Char} (hfuel : cs.length ≤ fuel) :
    rest ∈ places fuel cs ↔ ∃ before, Comes cs before rest := by
  induction fuel generalizing cs with
  | zero =>
    obtain rfl : cs = [] := List.eq_nil_of_length_eq_zero (Nat.le_zero.mp hfuel)
    rw [places, List.mem_singleton]
    constructor
    · rintro rfl
      exact ⟨[], .refl⟩
    · rintro ⟨before, hcomes⟩
      cases hcomes with
      | refl => rfl
      | step hstep => cases hstep
  | succ fuel ih =>
    rw [places, List.mem_cons]
    constructor
    · rintro (rfl | hmem)
      · exact ⟨[], .refl⟩
      · split at hmem
        next first mid hstep =>
          have hlt := (step?_suffix hstep).2
          obtain ⟨before, hcomes⟩ := (ih (by omega)).mp hmem
          exact ⟨first ++ before, .step hstep hcomes⟩
        next => cases hmem
    · rintro ⟨before, hcomes⟩
      cases hcomes with
      | refl => exact .inl rfl
      | step hstep hmid =>
        have hlt := (step?_suffix hstep).2
        rw [hstep]
        exact .inr ((ih (by omega)).mpr ⟨_, hmid⟩)

/-- The mark that a step reads, if it reads one and ends at the place. -/
def markBefore? (mid rest : List Char) : Option Char :=
  match step? mid with
  | some ([.token (.mark c _)], after) => if after = rest then some c else none
  | _ => none

theorem markBefore?_eq_some {mid rest : List Char} {c : Char} : markBefore? mid rest = some c ↔
    ∃ joint, step? mid = some ([.token (.mark c joint)], rest) := by
  constructor
  · intro h
    unfold markBefore? at h
    split at h
    next d joint after hstep =>
      split at h
      next hafter =>
        obtain rfl := Option.some.inj h
        exact ⟨joint, hafter ▸ hstep⟩
      next => cases h
    next => cases h
  · rintro ⟨joint, hstep⟩
    simp [markBefore?, hstep]

theorem gap_iff {start rest : List Char} : Gap start rest ↔
    rest ∈ places start.length start ∧ (rest ≠ [] ∧ blank? rest = none) ∧
    ∀ mid ∈ places start.length start, (markBefore? mid rest).isSome → startsMark rest = false := by
  have hplaces {mid : List Char} :
      mid ∈ places start.length start ↔ ∃ before, Comes start before mid :=
    mem_places_iff (Nat.le_refl start.length)
  constructor
  · intro h
    refine ⟨hplaces.mpr h.comes, h.token, fun mid hmid hmark => ?_⟩
    obtain ⟨before, hbefore⟩ := hplaces.mp hmid
    obtain ⟨c, hc⟩ := Option.isSome_iff_exists.mp hmark
    obtain ⟨joint, hstep⟩ := markBefore?_eq_some.mp hc
    exact h.marks hbefore hstep
  · rintro ⟨hcomes, htoken, hmarks⟩
    refine ⟨hplaces.mp hcomes, htoken, fun {before mid c joint} hbefore hstep => ?_⟩
    refine hmarks mid (hplaces.mpr ⟨before, hbefore⟩) ?_
    rw [markBefore?_eq_some.mpr ⟨joint, hstep⟩]
    rfl

theorem settled_iff {start rest : List Char} : Settled start rest ↔
    (∀ mid ∈ places start.length start, markBefore? mid rest ≠ some '\x27') ∧
    ∀ mid ∈ places start.length start, rest <:+ mid → Literal.float? mid = none →
      Literal.float? (mid.take (mid.length - rest.length)) = none := by
  have hplaces {mid : List Char} :
      mid ∈ places start.length start ↔ ∃ before, Comes start before mid :=
    mem_places_iff (Nat.le_refl start.length)
  constructor
  · intro h
    constructor
    · intro mid hmid hmark
      obtain ⟨before, hbefore⟩ := hplaces.mp hmid
      obtain ⟨joint, hstep⟩ := markBefore?_eq_some.mp hmark
      exact h.lone hbefore hstep
    · rintro mid hmid ⟨number, rfl⟩ hfloat
      obtain ⟨before, hbefore⟩ := hplaces.mp hmid
      rw [List.length_append, Nat.add_sub_cancel, List.take_left]
      exact h.floats hbefore hfloat
  · rintro ⟨hlone, hfloats⟩
    constructor
    · intro before mid joint hbefore hstep
      exact hlone mid (hplaces.mpr ⟨before, hbefore⟩) (markBefore?_eq_some.mpr ⟨joint, hstep⟩)
    · intro before number hbefore hfloat
      have hnumber := hfloats _ (hplaces.mpr ⟨before, hbefore⟩) (List.suffix_append number rest) hfloat
      rwa [List.length_append, Nat.add_sub_cancel, List.take_left] at hnumber

instance (start rest : List Char) : Decidable (Gap start rest) := decidable_of_iff _ gap_iff.symm

instance (start rest : List Char) : Decidable (Settled start rest) :=
  decidable_of_iff _ settled_iff.symm

end Lexer

end ComponentRegistry
