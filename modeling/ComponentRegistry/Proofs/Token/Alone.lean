import ComponentRegistry.Proofs.Text.SnakeCase
import ComponentRegistry.Proofs.Token.Lexed
import Mathlib.Data.List.Induction
import Mathlib.Data.List.TakeWhile

/-! Texts that hold a single word. Around the word are blanks and comments, of which the last one may
run to the end of the text (`Lexer.treesOf?_eq_word`). What such a comment has not begun in is part of
the word if anything solid follows (`Lexer.Alone.of_append`). -/

namespace ComponentRegistry

open Text

namespace Lexer

/-- The text goes on with `rest` after some of its blanks and comments. -/
inductive Blanks : List Char → List Char → Prop
  | refl {cs : List Char} : Blanks cs cs
  | step {cs mid rest : List Char} : blank? cs = some mid → Blanks mid rest → Blanks cs rest

theorem Blanks.trans {cs mid rest : List Char} (h : Blanks cs mid) (hrest : Blanks mid rest) :
    Blanks cs rest := by
  induction h with
  | refl => exact hrest
  | step hblank _ ih => exact .step hblank (ih hrest)

theorem Blanks.eq_nil {rest : List Char} (h : Blanks [] rest) : rest = [] := by
  cases h with
  | refl => rfl
  | step hblank => cases hblank

/-- What follows two slashes makes a doc comment of them. -/
def startsDoc (cs : List Char) : Bool :=
  cs[0]? == some '!' || cs[0]? == some '/' && cs[1]? != some '/'

theorem startsDoc_append {c : Char} (hslash : c ≠ '/') (hbang : c ≠ '!') (inside rest : List Char) :
    startsDoc (inside ++ c :: rest) = startsDoc inside := by
  match inside with
  | [] => simp [startsDoc, hslash, hbang]
  | [d] =>
    have hc : (some c != some '/') = true := by simpa using hslash
    show (some d == some '!' || some d == some '/' && some c != some '/') = _
    rw [hc]
    rfl
  | d :: e :: inside => rfl

theorem line_snd (cs : List Char) : (line cs).2 = cs.dropWhile (· != '\n') := by
  fun_induction line cs with
  | case1 => rfl
  | case2 => rfl
  | case3 => rfl
  | case4 c rest hfeed hreturn ih =>
    have hc : c ≠ '\n' := fun hc => hfeed hc
    rw [List.dropWhile_cons_of_pos (by simpa using hc)]
    exact ih

theorem comment?_line (cs : List Char) : comment? ('/' :: '/' :: cs) =
    if startsDoc cs then none else some (cs.dropWhile (· != '\n')) := by
  unfold comment?
  split
  case h_2 _ rest hslash heq => cases rest <;> simp_all [startsDoc]
  case h_4 rest _ hslash hbang heq => cases rest <;> simp_all [startsDoc, line_snd]
  all_goals simp_all [startsDoc, line_snd]

/-- A block comment ends by itself: it is read in the same way whatever follows. -/
theorem blockComment?_append {depth : Nat} {cs comment rest : List Char}
    (h : blockComment? depth cs = some (comment, rest)) : cs = comment ++ rest ∧
      (∃ inside, comment = inside ++ ['*', '/']) ∧
      ∀ more, blockComment? depth (comment ++ more) = some (comment, more) := by
  fun_induction blockComment? depth cs generalizing comment rest with
  | case1 depth cs ih =>
    obtain ⟨⟨inner, after⟩, hinner, h⟩ := Option.map_eq_some_iff.mp h
    obtain ⟨rfl, rfl⟩ := Prod.mk.inj h
    obtain ⟨hcs, ⟨inside, hinside⟩, hmore⟩ := ih hinner
    refine ⟨by rw [hcs]; rfl, ⟨'/' :: '*' :: inside, by rw [hinside]; rfl⟩, fun more => ?_⟩
    rw [List.cons_append, List.cons_append, blockComment?, hmore]
    rfl
  | case2 depth cs hdepth =>
    obtain ⟨rfl, rfl⟩ := Prod.mk.inj (Option.some.inj h)
    refine ⟨rfl, ⟨[], rfl⟩, fun more => ?_⟩
    simp [blockComment?, hdepth]
  | case3 depth cs hdepth ih =>
    obtain ⟨⟨inner, after⟩, hinner, h⟩ := Option.map_eq_some_iff.mp h
    obtain ⟨rfl, rfl⟩ := Prod.mk.inj h
    obtain ⟨hcs, ⟨inside, hinside⟩, hmore⟩ := ih hinner
    refine ⟨by rw [hcs]; rfl, ⟨'*' :: '/' :: inside, by rw [hinside]; rfl⟩, fun more => ?_⟩
    simp [blockComment?, hdepth, hmore]
  | case4 depth c cs hopening hclosing ih =>
    obtain ⟨⟨inner, after⟩, hinner, h⟩ := Option.map_eq_some_iff.mp h
    obtain ⟨rfl, rfl⟩ := Prod.mk.inj h
    obtain ⟨rfl, ⟨inside, rfl⟩, hmore⟩ := ih hinner
    refine ⟨rfl, ⟨c :: inside, rfl⟩, fun more => ?_⟩
    -- The comment has two characters at least behind this one, and these are those of the text.
    obtain ⟨d, tail, hd⟩ : ∃ d tail, inside ++ ['*', '/'] = d :: tail := by
      cases inside <;> exact ⟨_, _, rfl⟩
    rw [hd] at hopening hclosing hmore ⊢
    have hopening : ∀ rest, c = '/' → d :: (tail ++ more) = '*' :: rest → False := by
      intro rest hc hrest
      exact hopening (tail ++ after) hc (by rw [(List.cons.inj hrest).1]; rfl)
    have hclosing : ∀ rest, c = '*' → d :: (tail ++ more) = '/' :: rest → False := by
      intro rest hc hrest
      exact hclosing (tail ++ after) hc (by rw [(List.cons.inj hrest).1]; rfl)
    rw [List.cons_append, List.cons_append, blockComment?, ← List.cons_append, hmore]
    · rfl
    · exact hopening
    · exact hclosing
  | case5 => cases h

/-- What follows a slash and a star makes a doc comment of them. -/
def startsDocBlock (cs : List Char) : Bool :=
  cs[0]? == some '!' || cs[0]? == some '*' && cs[1]? != some '*' && cs[1]? != some '/'

theorem comment?_block (cs : List Char) : comment? ('/' :: '*' :: cs) =
    if startsDocBlock cs then none else afterBlockComment? ('/' :: '*' :: cs) := by
  have hempty : ∀ rest, afterBlockComment? ('/' :: '*' :: '*' :: '/' :: rest) = some rest := by
    intro rest
    simp [afterBlockComment?, blockComment?]
  unfold comment?
  split
  case h_7 _ rest hslash hstar heq =>
    cases rest <;> simp_all [startsDocBlock]
  case h_9 rest _ _ hstar hbang heq =>
    cases rest <;> simp_all [startsDocBlock]
  all_goals simp_all [startsDocBlock]

theorem startsDocBlock_append (inside rest more : List Char) :
    startsDocBlock (inside ++ '*' :: '/' :: rest) = startsDocBlock (inside ++ '*' :: '/' :: more) := by
  match inside with
  | [] => rfl
  | [c] => rfl
  | c :: d :: inside => rfl

theorem afterBlockComment?_append {cs rest : List Char}
    (h : afterBlockComment? ('/' :: '*' :: cs) = some rest) :
    ∃ inside, cs = inside ++ '*' :: '/' :: rest ∧
      ∀ more, afterBlockComment? ('/' :: '*' :: (inside ++ '*' :: '/' :: more)) = some more := by
  obtain ⟨⟨comment, after⟩, hcomment, h⟩ := Option.map_eq_some_iff.mp h
  obtain rfl : after = rest := h
  rw [blockComment?] at hcomment
  obtain ⟨⟨inner, after⟩, hinner, h⟩ := Option.map_eq_some_iff.mp hcomment
  obtain ⟨-, rfl⟩ := Prod.mk.inj h
  obtain ⟨rfl, ⟨inside, rfl⟩, hmore⟩ := blockComment?_append hinner
  refine ⟨inside, by simp, fun more => ?_⟩
  have hread := hmore more
  rw [List.append_assoc, List.cons_append, List.cons_append, List.nil_append] at hread
  rw [afterBlockComment?, blockComment?, hread]
  rfl

/-- Blanks and comments that end by themselves, so that they are passed over whatever follows. -/
structure BlankRun (cs : List Char) : Prop where
  passed : ∀ rest, Blanks (cs ++ rest) rest
  last : ∀ c ∈ cs.getLast?, isBlank c = true ∨ c = '/'

theorem blankRun_nil : BlankRun [] := ⟨fun _ => .refl, nofun⟩

theorem BlankRun.append {cs more : List Char} (h : BlankRun cs) (hmore : BlankRun more) :
    BlankRun (cs ++ more) where
  passed rest := by
    rw [List.append_assoc]
    exact (h.passed _).trans (hmore.passed rest)
  last c hc := by
    rw [List.getLast?_append] at hc
    cases hlast : more.getLast? with
    | none => exact h.last c (by simpa [hlast] using hc)
    | some d => exact hmore.last c (by simpa [hlast] using hc)

/-- A comment whose two slashes stand before this text runs to the end of it. -/
structure Runs (inside : List Char) : Prop where
  plain : startsDoc inside = false
  line : '\n' ∉ inside

theorem Runs.blank? {inside rest : List Char} (h : Runs inside) (hrest : ∀ c ∈ rest.head?, c = '\n') :
    blank? ('/' :: '/' :: (inside ++ rest)) = some rest := by
  have hslash : isBlank '/' = false := by decide
  have hinside : ∀ c ∈ inside, (c != '\n') = true := by
    intro c hc
    rw [bne_iff_ne]
    rintro rfl
    exact h.line hc
  have hline : (inside ++ rest).dropWhile (· != '\n') = rest := by
    rw [List.dropWhile_append_of_pos hinside]
    cases rest with
    | nil => rfl
    | cons c rest => simp [hrest c rfl]
  have hplain : startsDoc (inside ++ rest) = false := by
    cases rest with
    | nil => rw [List.append_nil, h.plain]
    | cons c rest => rw [hrest c rfl, startsDoc_append (by decide) (by decide), h.plain]
  simp [Lexer.blank?, hslash, comment?_line, hplain, hline]

theorem blankRun_singleton {c : Char} (h : isBlank c = true) : BlankRun [c] where
  passed rest := .step (by simp [Lexer.blank?, h]) .refl
  last d hd := by
    obtain rfl := Option.some.inj hd
    exact .inl h

theorem blankRun_block {inside : List Char} (hplain : startsDocBlock (inside ++ ['*', '/']) = false)
    (h : ∀ more, afterBlockComment? ('/' :: '*' :: (inside ++ '*' :: '/' :: more)) = some more) :
    BlankRun ('/' :: '*' :: (inside ++ ['*', '/'])) where
  passed rest := by
    have hslash : isBlank '/' = false := by decide
    have hrest : startsDocBlock (inside ++ '*' :: '/' :: rest) = false :=
      (startsDocBlock_append inside rest []).trans hplain
    have hblank : blank? ('/' :: '*' :: (inside ++ ['*', '/']) ++ rest) = some rest := by
      simp [Lexer.blank?, hslash, comment?_block, hrest, h]
    exact .step hblank .refl
  last d hd := by
    have hsplit : '/' :: '*' :: (inside ++ ['*', '/']) = ('/' :: '*' :: inside ++ ['*']) ++ ['/'] := by
      simp
    rw [hsplit, List.getLast?_concat] at hd
    exact .inr (Option.some.inj hd).symm

theorem startsDoc_takeWhile {cs : List Char} (h : startsDoc cs = false) :
    startsDoc (cs.takeWhile (· != '\n')) = false := by
  match cs with
  | [] => rfl
  | [c] => by_cases hc : c = '\n' <;> simp_all [startsDoc]
  | c :: d :: cs =>
    by_cases hc : c = '\n' <;> by_cases hd : d = '\n' <;> simp_all [startsDoc]

theorem comment?_opening {cs rest : List Char} (h : comment? cs = some rest) :
    ∃ inside, cs = '/' :: '/' :: inside ∨ cs = '/' :: '*' :: inside := by
  unfold comment? at h
  split at h
  all_goals first
    | exact ⟨_, .inl rfl⟩
    | exact ⟨_, .inr rfl⟩
    | cases h

/-- One blank or comment less: it ends by itself, or it runs to the end of its line. -/
theorem blank?_cases {cs rest : List Char} (h : blank? cs = some rest) :
    (∃ run, run ≠ [] ∧ cs = run ++ rest ∧ BlankRun run) ∨
    ∃ inside, Runs inside ∧ cs = '/' :: '/' :: inside ++ rest ∧ ∀ c ∈ rest.head?, c = '\n' := by
  cases cs with
  | nil => cases h
  | cons c cs =>
    rw [Lexer.blank?] at h
    split at h
    next hblank =>
      obtain rfl := Option.some.inj h
      exact .inl ⟨[c], by simp, rfl, blankRun_singleton hblank⟩
    next =>
      obtain ⟨inside, hinside | hinside⟩ := comment?_opening h
      · rw [hinside, comment?_line] at h
        split at h
        · cases h
        next hplain =>
          obtain rfl := Option.some.inj h
          refine .inr ⟨inside.takeWhile (· != '\n'), ⟨startsDoc_takeWhile (by simpa using hplain), ?_⟩,
            by rw [hinside]; simp, fun c hc => ?_⟩
          · intro hmem
            simpa using List.mem_takeWhile_imp hmem
          · have hfeed := List.head?_dropWhile_not (· != '\n') inside
            rw [Option.mem_def.mp hc] at hfeed
            simpa using hfeed
      · rw [hinside, comment?_block] at h
        split at h
        · cases h
        next hplain =>
          obtain ⟨inside, rfl, hmore⟩ := afterBlockComment?_append h
          refine .inl ⟨'/' :: '*' :: (inside ++ ['*', '/']), by simp, by rw [hinside]; simp,
            blankRun_block ?_ hmore⟩
          rw [startsDocBlock_append inside rest []] at hplain
          simpa using hplain

theorem length_lt_of_blank? {cs rest : List Char} (h : blank? cs = some rest) :
    rest.length < cs.length := by
  rcases blank?_cases h with ⟨run, hne, rfl, -⟩ | ⟨inside, -, rfl, -⟩
  · have := List.length_pos_iff.mpr hne
    rw [List.length_append]
    omega
  · simp only [List.length_append, List.length_cons]
    omega

theorem Runs.blankRun {inside run : List Char} (h : Runs inside) (hrun : BlankRun ('\n' :: run)) :
    BlankRun ('/' :: '/' :: inside ++ '\n' :: run) where
  passed rest := by
    rw [List.append_assoc]
    exact .step (h.blank? fun c hc => (Option.some.inj hc).symm) (hrun.passed rest)
  last c hc := by
    rw [List.getLast?_append, List.getLast?_cons, Option.some_or] at hc
    exact hrun.last c (by rwa [List.getLast?_cons])

/-- Blanks and comments end by themselves, unless the last comment runs to the end of the text. -/
theorem Blanks.cases {cs rest : List Char} (h : Blanks cs rest) (hrest : rest.head? ≠ some '\n') :
    ∃ run, BlankRun run ∧ (cs = run ++ rest ∨
      rest = [] ∧ ∃ inside, Runs inside ∧ cs = run ++ '/' :: '/' :: inside) := by
  induction h with
  | refl => exact ⟨[], blankRun_nil, .inl rfl⟩
  | @step cs mid rest hblank hblanks ih =>
    obtain ⟨more, hmore, hmid⟩ := ih hrest
    rcases blank?_cases hblank with ⟨run, -, rfl, hrun⟩ | ⟨inside, hinside, rfl, hfeed⟩
    · refine ⟨run ++ more, hrun.append hmore, ?_⟩
      rcases hmid with rfl | ⟨hnil, inside, hinside, rfl⟩
      · exact .inl (by simp)
      · exact .inr ⟨hnil, inside, hinside, by simp⟩
    · cases mid with
      | nil => exact ⟨[], blankRun_nil, .inr ⟨hblanks.eq_nil, inside, hinside, by simp⟩⟩
      | cons c mid =>
        obtain rfl := hfeed c rfl
        -- The line feed is one of the blanks behind the comment, as neither a word nor the end of
        -- the text nor another comment starts with it.
        cases more with
        | nil =>
          rcases hmid with hmid | ⟨-, _, -, hmid⟩
          · rw [List.nil_append] at hmid
            rw [← hmid] at hrest
            exact absurd rfl hrest
          · cases hmid
        | cons d more =>
          obtain rfl : '\n' = d := by
            rcases hmid with hmid | ⟨-, _, -, hmid⟩ <;> exact (List.cons.inj hmid).1
          refine ⟨_, hinside.blankRun hmore, ?_⟩
          rcases hmid with hmid | ⟨hnil, later, hlater, hmid⟩
          · exact .inl (by rw [hmid]; simp)
          · exact .inr ⟨hnil, later, hlater, by rw [hmid]; simp⟩

/-- The text holds one word, with blanks and comments around it. -/
inductive Alone (raw : Bool) (name : String) : List Char → Prop
  | closed {before after : List Char} : BlankRun before → BlankRun after →
    Alone raw name (before ++ (wordChars raw name ++ after))
  | opened {before after inside : List Char} : BlankRun before → BlankRun after → Runs inside →
    Alone raw name (before ++ (wordChars raw name ++ (after ++ '/' :: '/' :: inside)))

theorem Blanks.lexes {cs rest : List Char} {lexemes : List Lexeme} (h : Blanks cs rest)
    (hrest : Lexes rest lexemes) : Lexes cs lexemes := by
  induction h with
  | refl => exact hrest
  | @step cs mid rest hblank _ ih =>
    have hstep : step? cs = some ([], mid) := by simp [step?, hblank]
    exact .step hstep (length_lt_of_blank? hblank) (ih hrest)

theorem identifier?_eq {cs name rest : List Char} (h : Literal.identifier? cs = some (name, rest)) :
    cs = name ++ rest := by
  unfold Literal.identifier? at h
  split at h
  next c cs =>
    split at h
    next =>
      obtain ⟨rfl, rfl⟩ := Prod.mk.inj (Option.some.inj h)
      simp
    next => cases h
  next => cases h

theorem word?_eq {cs name rest : List Char} {raw : Bool} (h : word? cs = some (raw, name, rest)) :
    cs = wordChars raw (String.ofList name) ++ rest := by
  unfold word? at h
  split at h
  · cases h
  unfold anyWord? at h
  split at h
  next cs =>
    obtain ⟨⟨found, after⟩, hfound, h⟩ := Option.bind_eq_some_iff.mp h
    dsimp only at h
    split at h
    · cases h
    next =>
      obtain ⟨rfl, rfl, rfl⟩ : true = raw ∧ found = name ∧ after = rest := by simpa using h
      simp [wordChars, identifier?_eq hfound]
  next =>
    obtain ⟨⟨found, after⟩, hfound, h⟩ := Option.map_eq_some_iff.mp h
    obtain ⟨rfl, rfl, rfl⟩ : false = raw ∧ found = name ∧ after = rest := by simpa using h
    simp [wordChars, identifier?_eq hfound]

theorem mark?_ne_word {cs rest : List Char} {raw : Bool} {name : String} :
    mark? cs ≠ some (.word raw name, rest) := by
  intro h
  unfold mark? at h
  split at h
  · cases h
  split at h
  · cases h
  split at h
  · unfold lifetime? at h
    obtain ⟨⟨raw, name, after⟩, -, h⟩ := Option.bind_eq_some_iff.mp h
    dsimp only at h
    split at h
    · cases h
    · split at h
      · split at h <;> cases h
      · cases h
    · split at h <;> cases h
  · cases h

theorem token?_eq_word {cs rest : List Char} {raw : Bool} {name : String}
    (h : token? cs = some (.word raw name, rest)) : cs = wordChars raw name ++ rest := by
  simp only [token?, Option.orElse_eq_orElse, Option.orElse_eq_or, Option.or_eq_some_iff] at h
  rcases h with h | ⟨-, h | ⟨-, h⟩⟩
  · obtain ⟨after, -, h⟩ := Option.map_eq_some_iff.mp h
    cases h
  · exact absurd h mark?_ne_word
  · obtain ⟨⟨raw', found, after⟩, hword, h⟩ := Option.map_eq_some_iff.mp h
    obtain ⟨⟨rfl, rfl⟩, rfl⟩ : (raw' = raw ∧ String.ofList found = name) ∧ after = rest := by
      simpa using h
    exact word?_eq hword

/-- What a step gives of a word alone: nothing where a blank stands, or the word. -/
theorem step?_cases {cs rest : List Char} {lexemes : List Lexeme}
    (h : step? cs = some (lexemes, rest)) :
    (lexemes = [] → blank? cs = some rest) ∧
    ∀ raw name, lexemes = [.token (.word raw name)] → cs = wordChars raw name ++ rest := by
  cases step?_iff.mp h with
  | blank hblank => exact ⟨fun _ => hblank, fun _ _ h => by cases h⟩
  | doc => simp [docLexemes]
  | error => simp
  | bracket hbracket =>
    unfold bracket? at hbracket
    split at hbracket <;> cases hbracket <;> simp
  | token _ _ _ htoken =>
    refine ⟨fun hnone => absurd hnone (List.cons_ne_nil _ _), fun raw name hword => ?_⟩
    obtain rfl := Lexeme.token.inj (List.singleton_inj.mp hword)
    exact token?_eq_word htoken

theorem lexemesIn?_cases {fuel : Nat} {cs : List Char} {lexemes : List Lexeme}
    (h : lexemesIn? fuel cs = some lexemes) : (lexemes = [] → Blanks cs []) ∧
    ∀ raw name, lexemes = [.token (.word raw name)] →
      ∃ rest, Blanks cs (wordChars raw name ++ rest) ∧ Blanks rest [] := by
  induction fuel generalizing cs lexemes with
  | zero =>
    cases cs with
    | nil =>
      obtain rfl := Option.some.inj h
      exact ⟨fun _ => .refl, fun _ _ h => nomatch h⟩
    | cons => cases h
  | succ fuel ih =>
    cases cs with
    | nil =>
      obtain rfl := Option.some.inj h
      exact ⟨fun _ => .refl, fun _ _ h => nomatch h⟩
    | cons c cs =>
      obtain ⟨⟨first, rest⟩, hstep, h⟩ := Option.bind_eq_some_iff.mp h
      obtain ⟨more, hmore, h⟩ := Option.bind_eq_some_iff.mp h
      obtain rfl := Option.some.inj h
      obtain ⟨hblank, hword⟩ := step?_cases hstep
      obtain ⟨hnil, hrest⟩ := ih hmore
      refine ⟨fun hlexemes => ?_, fun raw name hlexemes => ?_⟩
      · obtain ⟨hfirst, hmore⟩ := List.append_eq_nil_iff.mp hlexemes
        exact .step (hblank hfirst) (hnil hmore)
      · rcases List.append_eq_singleton_iff.mp hlexemes with ⟨hfirst, hmore⟩ | ⟨hfirst, hmore⟩
        · obtain ⟨after, hafter, hend⟩ := hrest raw name hmore
          exact ⟨after, .step (hblank hfirst) hafter, hend⟩
        · exact ⟨rest, hword raw name hfirst ▸ .refl, hnil hmore⟩

theorem identContinue_of_not_isSolid {c : Char} (h : isSolid c = false) : isIdentContinue c = false := by
  cases hc : isIdentContinue c with
  | false => rfl
  | true =>
    rw [isSolid_of_alphanumeric (.inr hc)] at h
    cases h

theorem not_isSolid {c : Char} (h : isBlank c = true ∨ c = '/') : isSolid c = false := by
  rcases h with h | rfl
  · simp [isSolid, h]
  · decide

/-- Neither more of a word nor the mark of a raw one stands where blanks and comments do. -/
theorem Blanks.endsWord {cs : List Char} (h : Blanks cs []) : EndsWord cs := by
  intro c hc
  have hc : isBlank c = true ∨ c = '/' := by
    cases h with
    | refl => cases hc
    | step hblank =>
      cases cs with
      | nil => cases hc
      | cons d cs =>
        obtain rfl := Option.some.inj hc
        rw [Lexer.blank?] at hblank
        split at hblank
        next hd => exact .inl hd
        next =>
          obtain ⟨inside, hinside | hinside⟩ := comment?_opening hblank <;>
            exact .inr (List.cons.inj hinside).1
  have hsolid := not_isSolid hc
  refine ⟨identContinue_of_not_isSolid hsolid, ?_⟩
  refine ⟨?_, ?_, ?_⟩ <;> rintro rfl <;> revert hc <;> decide

/-- A text is read as a word if and only if it holds this word alone. -/
theorem treesOf?_eq_word {cs : List Char} {raw : Bool} {name : String} (h : IsWord raw name) :
    treesOf? cs = some [.leaf (.word raw name)] ↔ Alone raw name cs := by
  constructor
  · intro htrees
    obtain ⟨lexemes, hlexemes, hnest⟩ := Option.bind_eq_some_iff.mp htrees
    have hall : [.token (.word raw name)] = lexemes := lexemesOfAll_nest? hnest
    obtain ⟨rest, hbefore, hafter⟩ := (lexemesIn?_cases hlexemes).2 raw name hall.symm
    obtain ⟨c, word, hword, hc, -⟩ := h.start hafter.endsWord
    have hfeed : c ≠ '\n' := ne_of_class hc (by decide)
    obtain ⟨before, hrun, hcs | ⟨hnil, -⟩⟩ := hbefore.cases (by simpa [hword] using hfeed)
    · rw [hcs]
      obtain ⟨after, hrun', rfl | ⟨-, inside, hinside, rfl⟩⟩ := hafter.cases (by simp)
      · rw [List.append_nil]
        exact .closed hrun hrun'
      · exact .opened hrun hrun' hinside
    · rw [hword] at hnil
      cases hnil
  · intro halone
    obtain ⟨before, rest, rfl, hbefore, hrest⟩ : ∃ before rest,
        cs = before ++ (wordChars raw name ++ rest) ∧ BlankRun before ∧ Blanks rest [] := by
      cases halone with
      | @closed before after hbefore hafter =>
        exact ⟨before, after, rfl, hbefore, by simpa using hafter.passed []⟩
      | @opened before after inside hbefore hafter hinside =>
        refine ⟨before, _, rfl, hbefore, (hafter.passed _).trans ?_⟩
        have hblank : blank? ('/' :: '/' :: inside) = some [] := by
          have := @Runs.blank? inside [] hinside nofun
          rwa [List.append_nil] at this
        exact .step hblank .refl
    have hlexes : Lexes (wordChars raw name ++ rest) [.token (.word raw name)] := by
      refine .step (step?_word h hrest.endsWord) ?_ (hrest.lexes .nil)
      obtain ⟨c, word, hword, -⟩ := h.start closed_nil.endsWord
      rw [List.append_nil] at hword
      rw [hword, List.length_append, List.length_cons]
      omega
    have htrees : Lexes (before ++ (wordChars raw name ++ rest))
        (lexemesOfAll [.leaf (.word raw name)]) := (hbefore.passed _).lexes hlexes
    exact htrees.treesOf?

theorem Runs.append {inside last more : List Char} (h : Runs (inside ++ last))
    (hlast : ∀ c ∈ last, isSolid c = true) (hmore : ∀ c ∈ more, isSolid c = true) :
    Runs (inside ++ more) := by
  have hplain : ∀ solid : List Char, (∀ c ∈ solid, isSolid c = true) →
      startsDoc (inside ++ solid) = startsDoc inside := by
    intro solid hsolid
    cases solid with
    | nil => rw [List.append_nil]
    | cons c solid =>
      have hc := hsolid c List.mem_cons_self
      exact startsDoc_append (ne_of_class hc (by decide)) (ne_of_class hc (by decide)) ..
  refine ⟨by rw [hplain more hmore, ← hplain last hlast, h.plain], fun hmem => ?_⟩
  rcases List.mem_append.mp hmem with hmem | hmem
  · exact h.line (List.mem_append_left _ hmem)
  · have hne : '\n' ≠ '\n' := ne_of_class (hmore _ hmem) (by decide)
    exact hne rfl

/-- The end of a text is the end of some part of it, if this does not end with what is not solid. -/
theorem split_of_isSolid {cs last before after : List Char} (h : cs ++ last = before ++ after)
    (hlast : ∀ c ∈ last, isSolid c = true) (hbefore : ∀ c ∈ before.getLast?, isSolid c = false) :
    ∃ word, cs = before ++ word ∧ after = word ++ last := by
  rcases List.append_eq_append_iff.mp h with ⟨more, hmore, hsplit⟩ | ⟨word, hcs, hafter⟩
  · cases more using List.reverseRecOn with
    | nil => exact ⟨[], by simpa using hmore.symm, by simpa using hsplit.symm⟩
    | append_singleton more c _ =>
      have hsolid := hlast c (by simp [hsplit])
      rw [hbefore c (by simp [hmore])] at hsolid
      cases hsolid
  · exact ⟨word, hcs, hafter⟩

theorem BlankRun.getLast?_rawMark {before : List Char} (h : BlankRun before) {raw : Bool} :
    ∀ c ∈ (before ++ if raw then ['r', '#'] else []).getLast?, isSolid c = false := by
  intro c hc
  cases raw with
  | true =>
    obtain rfl : '#' = c := by simpa using hc
    decide
  | false => exact not_isSolid (h.last c (by simpa using hc))

/-- What ends the text is the end of the word if it is solid and no comment runs through it. -/
theorem Alone.of_append {raw : Bool} {name : String} {cs last : List Char}
    (hlast : ∀ c ∈ last, isSolid c = true) (h : Alone raw name (cs ++ last)) :
    (∃ before word, BlankRun before ∧ name.toList = word ++ last ∧
      cs = before ++ ((if raw then ['r', '#'] else []) ++ word)) ∨
    (last = [] ∧ ∃ c ∈ cs.getLast?, isBlank c = true ∨ c = '/') ∨
    ∀ more, (∀ c ∈ more, isSolid c = true) → Alone raw name (cs ++ more) := by
  generalize htext : cs ++ last = text at h
  cases h with
  | @closed before after hbefore hafter =>
    cases after using List.reverseRecOn with
    | nil =>
      left
      rw [List.append_nil, wordChars, ← List.append_assoc] at htext
      obtain ⟨word, hcs, hname⟩ := split_of_isSolid htext hlast hbefore.getLast?_rawMark
      exact ⟨before, word, hbefore, hname, by rw [hcs, List.append_assoc]⟩
    | append_singleton after c _ =>
      have hc := hafter.last c (by simp)
      have hend : (cs ++ last).getLast? = some c := by simp [htext]
      cases last using List.reverseRecOn with
      | nil =>
        rw [List.append_nil] at hend
        exact .inr (.inl ⟨rfl, c, hend, hc⟩)
      | append_singleton last d _ =>
        obtain rfl : d = c := by simpa using hend
        have hsolid := hlast d (by simp)
        rw [not_isSolid hc] at hsolid
        cases hsolid
  | @opened before after inside hbefore hafter hinside =>
    right; right
    have hsplit : cs ++ last = (before ++ (wordChars raw name ++ (after ++ ['/', '/']))) ++ inside := by
      simp [htext]
    obtain ⟨start, hcs, rfl⟩ := split_of_isSolid hsplit hlast fun c hc => by
      obtain rfl : '/' = c := by simpa using hc
      decide
    intro more hmore
    have halone : Alone raw name (before ++ (wordChars raw name ++
        (after ++ '/' :: '/' :: (start ++ more)))) :=
      .opened hbefore hafter (hinside.append hlast hmore)
    rw [hcs]
    simpa using halone

theorem IsName.isSolid {name : String} (h : IsName name) : ∀ c ∈ name.toList, isSolid c = true := by
  obtain ⟨c, cs, hname, hc, hcs⟩ := h.chars
  rw [hname]
  refine List.forall_mem_cons.mpr ⟨?_, fun d hd => ?_⟩
  · have hmarks : c ≠ '/' ∧ c ≠ '!' ∧ c ≠ '#' ∧ c ≠ '\ufeff' :=
      ⟨ne_of_class hc (by decide), ne_of_class hc (by decide), ne_of_class hc (by decide),
        ne_of_class hc (by decide +kernel)⟩
    simpa [Text.isSolid, isBlank_of_identStart hc] using hmarks
  · exact isSolid_of_alphanumeric (.inr (List.all_eq_true.mp hcs d hd))

/-- The word that ends the text is the longest end of the text that is solid. -/
theorem word_unique {before₁ before₂ word₁ word₂ : List Char}
    (h : before₁ ++ word₁ = before₂ ++ word₂)
    (hbefore₁ : ∀ c ∈ before₁.getLast?, isSolid c = false) (hword₁ : ∀ c ∈ word₁, isSolid c = true)
    (hbefore₂ : ∀ c ∈ before₂.getLast?, isSolid c = false) (hword₂ : ∀ c ∈ word₂, isSolid c = true) :
    word₁ = word₂ := by
  obtain ⟨more, -, hmore⟩ := split_of_isSolid h hword₁ hbefore₂
  obtain ⟨less, -, hless⟩ := split_of_isSolid h.symm hword₂ hbefore₁
  have hlength := congrArg List.length hless
  rw [hmore, List.length_append, List.length_append] at hlength
  obtain rfl : more = [] := List.length_eq_zero_iff.mp (by omega)
  exact hmore.symm

/-- A text with a word that ends with a blank is no start of one whose word goes on at its end. -/
theorem Alone.not_blank_end {raw₁ raw₂ : Bool} {name : String} {cs before word : List Char}
    (h : IsWord raw₁ name) (halone : Alone raw₁ name cs)
    (hend : ∃ c ∈ cs.getLast?, isBlank c = true ∨ c = '/') (hbefore : BlankRun before)
    (hword : ∀ c ∈ word, isSolid c = true) :
    cs ≠ before ++ ((if raw₂ then ['r', '#'] else []) ++ word) := by
  rintro rfl
  obtain ⟨c, hc, hend⟩ := hend
  cases word using List.reverseRecOn with
  | append_singleton word d _ =>
    obtain rfl : d = c := by simpa using hc
    have hsolid := hword d (by simp)
    rw [not_isSolid hend] at hsolid
    cases hsolid
  | nil =>
    cases raw₂ with
    | true =>
      obtain rfl : '#' = c := by simpa using hc
      revert hend
      decide
    | false =>
      have htrees := (treesOf?_eq_word h).mpr halone
      have hblank : Lexes before (lexemesOfAll []) := (by simpa using hbefore.passed [] :
        Blanks before []).lexes .nil
      rw [List.append_nil] at htrees
      simp [hblank.treesOf?] at htrees

/-- If a text is read as the same word with two different ends, it is so with any end. -/
theorem Alone.swallowed {raw₁ raw₂ : Bool} {name : String} {cs last₁ last₂ : List Char}
    (h₁ : IsWord raw₁ name) (h₂ : IsWord raw₂ name)
    (hlast₁ : ∀ c ∈ last₁, isSolid c = true) (hlast₂ : ∀ c ∈ last₂, isSolid c = true)
    (hne : last₁ ≠ last₂) (halone₁ : Alone raw₁ name (cs ++ last₁))
    (halone₂ : Alone raw₂ name (cs ++ last₂)) :
    (∀ more, (∀ c ∈ more, isSolid c = true) → Alone raw₁ name (cs ++ more)) ∨
    ∀ more, (∀ c ∈ more, isSolid c = true) → Alone raw₂ name (cs ++ more) := by
  have hsolid : ∀ {word last : List Char}, name.toList = word ++ last →
      ∀ c ∈ word, isSolid c = true := fun hname c hc =>
    h₁.isName.isSolid c (hname ▸ List.mem_append_left _ hc)
  rcases halone₁.of_append hlast₁ with ⟨before₁, word₁, hrun₁, hname₁, hcs₁⟩ | ⟨rfl, hend₁⟩ | hall
  · rcases halone₂.of_append hlast₂ with ⟨before₂, word₂, hrun₂, hname₂, hcs₂⟩ | ⟨rfl, hend₂⟩ | hall
    · refine absurd ?_ hne
      have hsplit := hcs₁.symm.trans hcs₂
      rw [← List.append_assoc, ← List.append_assoc] at hsplit
      obtain rfl := word_unique hsplit hrun₁.getLast?_rawMark (hsolid hname₁)
        hrun₂.getLast?_rawMark (hsolid hname₂)
      exact List.append_cancel_left (hname₁.symm.trans hname₂)
    · rw [List.append_nil] at halone₂
      exact absurd hcs₁ (halone₂.not_blank_end h₂ hend₂ hrun₁ (hsolid hname₁))
    · exact .inr hall
  · rcases halone₂.of_append hlast₂ with ⟨before₂, word₂, hrun₂, hname₂, hcs₂⟩ | ⟨rfl, -⟩ | hall
    · rw [List.append_nil] at halone₁
      exact absurd hcs₂ (halone₁.not_blank_end h₁ hend₁ hrun₂ (hsolid hname₂))
    · exact absurd rfl hne
    · exact .inr hall
  · exact .inl hall

/-- If all of the text is solid, it is the name. -/
theorem Alone.eq_of_isSolid {raw : Bool} {name : String} {cs : List Char} (h : IsWord raw name)
    (hcs : ∀ c ∈ cs, isSolid c = true) (halone : Alone raw name cs) : name.toList = cs := by
  have hsplit : Alone raw name ([] ++ cs) := halone
  rcases hsplit.of_append hcs with ⟨before, word, -, hname, hnil⟩ | ⟨-, c, hc, -⟩ | hall
  · obtain ⟨-, hnil⟩ := List.append_eq_nil_iff.mp hnil.symm
    rw [hname, (List.append_eq_nil_iff.mp hnil).2, List.nil_append]
  · cases hc
  · have htrees := (treesOf?_eq_word h).mpr (hall [] nofun)
    cases htrees

theorem dropByteOrderMark_append (cs : List Char) {last : List Char}
    (hlast : ∀ c ∈ last, isSolid c = true) :
    dropByteOrderMark (cs ++ last) = dropByteOrderMark cs ++ last := by
  have hdrop : ∀ c cs, c ≠ '\ufeff' → dropByteOrderMark (c :: cs) = c :: cs := by
    intro c cs hc
    unfold dropByteOrderMark
    split
    next heq => exact absurd (List.cons.inj heq).1 hc
    next => rfl
  cases cs with
  | cons c cs =>
    by_cases hc : c = '\ufeff'
    · rw [hc]
      rfl
    · rw [List.cons_append, hdrop c _ hc, hdrop c _ hc, List.cons_append]
  | nil =>
    cases last with
    | nil => rfl
    | cons c last => exact hdrop c last (ne_of_class (hlast c List.mem_cons_self) (by decide))

end Lexer

end ComponentRegistry
