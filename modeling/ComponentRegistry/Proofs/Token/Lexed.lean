import ComponentRegistry.Proofs.Token.Printed

/-! What the lexer gives. The brackets of the lexemes are those of the trees
(`Lexer.lexemesOfAll_nest?`), and each word is one that can be written (`Tree.isWord_of_mem`). -/

namespace ComponentRegistry

open Text

namespace Lexer

theorem lexemesOfAll_append (trees more : List Tree) :
    lexemesOfAll (trees ++ more) = lexemesOfAll trees ++ lexemesOfAll more := by
  induction trees with
  | nil => rfl
  | cons tree trees ih => rw [List.cons_append, lexemesOfAll, lexemesOfAll, ih, List.append_assoc]

/-- The lexemes before the place where the matching of brackets stands. -/
def lexemesBefore : List (Delimiter × List Tree) → List Tree → List Lexeme
  | [], inner => lexemesOfAll inner.reverse
  | (delimiter, before) :: outer, inner =>
    lexemesBefore outer before ++ [.opening delimiter] ++ lexemesOfAll inner.reverse

theorem lexemesBefore_cons (outer : List (Delimiter × List Tree)) (inner : List Tree)
    (tree : Tree) : lexemesBefore outer (tree :: inner) =
      lexemesBefore outer inner ++ lexemesOf tree := by
  have hreverse : lexemesOfAll (tree :: inner).reverse =
      lexemesOfAll inner.reverse ++ lexemesOf tree := by
    rw [List.reverse_cons, lexemesOfAll_append]
    simp [lexemesOfAll]
  cases outer with
  | nil => exact hreverse
  | cons opened outer =>
    rw [lexemesBefore, hreverse, lexemesBefore, List.append_assoc, List.append_assoc,
      List.append_assoc]

/-- Matched brackets are those of the lexemes. -/
theorem lexemesOfAll_nest? {outer : List (Delimiter × List Tree)} {inner : List Tree}
    {lexemes : List Lexeme} {trees : List Tree} (h : nest? outer inner lexemes = some trees) :
    lexemesOfAll trees = lexemesBefore outer inner ++ lexemes := by
  induction lexemes generalizing outer inner with
  | nil =>
    rw [nest?] at h
    split at h
    next hempty =>
      rw [← Option.some.inj h, List.isEmpty_iff.mp hempty, List.append_nil]
      rfl
    next => cases h
  | cons lexeme lexemes ih =>
    cases lexeme with
    | token token =>
      rw [nest?] at h
      rw [ih h, lexemesBefore_cons, List.append_assoc]
      rfl
    | opening delimiter =>
      rw [nest?] at h
      rw [ih h, lexemesBefore, List.append_assoc, List.append_assoc]
      rfl
    | closing delimiter =>
      cases outer with
      | nil => rw [nest?] at h; cases h
      | cons opened outer =>
        obtain ⟨opened, before⟩ := opened
        rw [nest?] at h
        split at h
        next heq =>
          subst heq
          rw [ih h, lexemesBefore_cons, lexemesBefore, lexemesOf]
          simp
        next => cases h

theorem isName_of_identifier? {cs name rest : List Char}
    (h : Literal.identifier? cs = some (name, rest)) : IsName (String.ofList name) := by
  unfold Literal.identifier? at h
  split at h
  next c cs =>
    split at h
    next hstart =>
      obtain ⟨rfl, -⟩ := Prod.mk.inj (Option.some.inj h)
      have hall : (cs.takeWhile isIdentContinue).all isIdentContinue = true :=
        List.all_takeWhile
      have hname := takeWhile_append hall closed_nil.endsWord
      rw [List.append_nil] at hname
      simp [IsName, Literal.identifier?, hstart, hname]
    next => cases h
  next => cases h

theorem isWord_of_anyWord? {cs name rest : List Char} {raw : Bool}
    (h : anyWord? cs = some (raw, name, rest)) : IsWord raw (String.ofList name) := by
  unfold anyWord? at h
  split at h
  next cs =>
    obtain ⟨⟨found, after⟩, hfound, h⟩ := Option.bind_eq_some_iff.mp h
    dsimp only at h
    split at h
    next => cases h
    next hrawable =>
      obtain ⟨rfl, rfl, -⟩ : true = raw ∧ found = name ∧ after = rest := by simpa using h
      exact ⟨isName_of_identifier? hfound, fun _ => by simpa [rawless] using hrawable⟩
  next =>
    obtain ⟨⟨found, after⟩, hfound, h⟩ := Option.map_eq_some_iff.mp h
    obtain ⟨rfl, rfl, -⟩ : false = raw ∧ found = name ∧ after = rest := by simpa using h
    exact ⟨isName_of_identifier? hfound, fun hraw => by cases hraw⟩

/-- The token, if it is a word, is one that can be written. -/
def WordOk : Token → Prop
  | .word raw name => IsWord raw name
  | _ => True

theorem wordOk_of_lifetime? {cs rest : List Char} {token : Token}
    (h : lifetime? cs = some (token, rest)) : WordOk token := by
  unfold lifetime? at h
  obtain ⟨⟨raw, name, after⟩, -, h⟩ := Option.bind_eq_some_iff.mp h
  dsimp only at h
  split at h
  · cases h
  · split at h
    · split at h <;> (obtain ⟨rfl, -⟩ := Prod.mk.inj (Option.some.inj h); trivial)
    · cases h
  · split at h <;> (obtain ⟨rfl, -⟩ := Prod.mk.inj (Option.some.inj h); trivial)

theorem wordOk_of_mark? {cs rest : List Char} {token : Token}
    (h : mark? cs = some (token, rest)) : WordOk token := by
  unfold mark? at h
  split at h
  next => cases h
  next c cs =>
    split at h
    next => cases h
    next =>
      split at h
      next => exact wordOk_of_lifetime? h
      next =>
        obtain ⟨rfl, -⟩ := Prod.mk.inj (Option.some.inj h)
        trivial

theorem wordOk_of_token? {cs rest : List Char} {token : Token}
    (h : token? cs = some (token, rest)) : WordOk token := by
  simp only [token?, Option.orElse_eq_orElse, Option.orElse_eq_or, Option.or_eq_some_iff] at h
  rcases h with h | ⟨-, h | ⟨-, h⟩⟩
  · obtain ⟨after, -, h⟩ := Option.map_eq_some_iff.mp h
    obtain ⟨rfl, -⟩ := Prod.mk.inj h
    trivial
  · exact wordOk_of_mark? h
  · obtain ⟨⟨raw, name, after⟩, hword, h⟩ := Option.map_eq_some_iff.mp h
    obtain ⟨rfl, -⟩ := Prod.mk.inj h
    unfold word? at hword
    split at hword
    next => cases hword
    next => exact isWord_of_anyWord? hword

/-- What a step reads: a blank or a comment, a doc comment, what stands for a literal that could not be
written, a bracket, or a token. -/
inductive ReadsStep : List Char → List Lexeme → List Char → Prop
  | blank {cs rest : List Char} : blank? cs = some rest → ReadsStep cs [] rest
  | doc {cs content rest : List Char} {inner : Bool} : blank? cs = none →
    docComment? cs = some (content, inner, rest) → noBareReturn content = true →
    ReadsStep cs (docLexemes content inner) rest
  | error {rest : List Char} :
    ReadsStep (errorLiteral ++ rest) [.token (.literal (String.ofList errorLiteral))] rest
  | bracket {c : Char} {rest : List Char} {lexeme : Lexeme} : bracket? c = some lexeme →
    errorLiteral.isPrefixOf (c :: rest) = false → ReadsStep (c :: rest) [lexeme] rest
  | token {c : Char} {cs rest : List Char} {token : Token} : isBlank c = false →
    (c ≠ '/' ∨ startsMark (c :: cs) = true) → bracket? c = none →
    token? (c :: cs) = some (token, rest) → ReadsStep (c :: cs) [.token token] rest

/-- A slash is a token only where no comment starts. -/
theorem startsMark_of_token? {c : Char} {cs : List Char} {result : Token × List Char}
    (h : token? (c :: cs) = some result) : c ≠ '/' ∨ startsMark (c :: cs) = true := by
  by_cases hc : c = '/'
  · subst hc
    cases hmark : startsMark ('/' :: cs) with
    | true => exact .inr rfl
    | false =>
      have hstart : isIdentStart '/' = false := by decide
      simp [token?, literal?, end?_of_isMark (c := '/') (by decide) (by decide), mark?, hmark, word?,
        spoiledLiteral, anyWord?, Literal.identifier?, hstart] at h
  · exact .inl hc

theorem step?_iff {cs rest : List Char} {lexemes : List Lexeme} :
    step? cs = some (lexemes, rest) ↔ ReadsStep cs lexemes rest := by
  constructor
  · intro h
    unfold step? at h
    split at h
    next mid hblank =>
      obtain ⟨rfl, rfl⟩ := Prod.mk.inj (Option.some.inj h)
      exact .blank hblank
    next hblank =>
      simp only [Option.orElse_eq_orElse, Option.orElse_eq_or, Option.or_eq_some_iff] at h
      rcases h with h | ⟨-, h⟩
      · obtain ⟨⟨content, inner, after⟩, hdoc, h⟩ := Option.bind_eq_some_iff.mp h
        dsimp only at h
        split at h
        next hreturn =>
          obtain ⟨rfl, rfl⟩ := Prod.mk.inj (Option.some.inj h)
          exact .doc hblank hdoc hreturn
        next => cases h
      · split at h
        next herror =>
          obtain ⟨rfl, rfl⟩ := Prod.mk.inj (Option.some.inj h)
          obtain ⟨after, rfl⟩ := List.isPrefixOf_iff_prefix.mp herror
          rw [List.drop_left]
          exact .error
        next herror =>
          split at h
          next => cases h
          next c cs =>
            split at h
            next bracket hbracket =>
              obtain ⟨rfl, rfl⟩ := Prod.mk.inj (Option.some.inj h)
              exact .bracket hbracket (Bool.eq_false_iff.mpr herror)
            next hbracket =>
              obtain ⟨⟨token, after⟩, htoken, h⟩ := Option.map_eq_some_iff.mp h
              obtain ⟨rfl, rfl⟩ := Prod.mk.inj h
              have hsolid : isBlank c = false := by
                rw [blank?] at hblank
                split at hblank
                next => cases hblank
                next hc => exact Bool.eq_false_iff.mpr hc
              exact .token hsolid (startsMark_of_token? htoken) hbracket htoken
  · rintro (hblank | ⟨hblank, hdoc, hreturn⟩ | _ | ⟨hbracket, herror⟩ |
      ⟨hsolid, hslash, hbracket, htoken⟩)
    · simp [step?, hblank]
    · simp [step?, hblank, doc?, hdoc, hreturn]
    · have hopening : blank? (errorLiteral ++ rest) = none := by
        simp [errorLiteral, blank?, comment?, show isBlank '(' = false by decide]
      have hdoc : doc? (errorLiteral ++ rest) = none := by simp [errorLiteral, doc?, docComment?]
      have herror : errorLiteral.isPrefixOf (errorLiteral ++ rest) = true :=
        List.isPrefixOf_iff_prefix.mpr (List.prefix_append ..)
      simp [step?, hopening, hdoc, herror]
    · exact step?_bracket hbracket herror
    · exact step?_of_token? hsolid hslash hbracket htoken

theorem wordOk_of_step? {cs rest : List Char} {lexemes : List Lexeme}
    (h : step? cs = some (lexemes, rest)) : ∀ token, .token token ∈ lexemes → WordOk token := by
  intro token htoken
  cases step?_iff.mp h with
  | blank => cases htoken
  | @doc _ _ _ inner =>
    have hdoc : IsWord false "doc" := by decide
    cases inner <;> simp [docLexemes] at htoken <;>
      (rcases htoken with rfl | rfl | rfl | rfl | rfl <;> trivial)
  | error =>
    obtain rfl : token = .literal (String.ofList errorLiteral) := by simpa using htoken
    trivial
  | bracket hbracket =>
    obtain rfl := List.mem_singleton.mp htoken
    unfold bracket? at hbracket
    split at hbracket <;> cases hbracket
  | token _ _ _ hfound =>
    obtain rfl := Lexeme.token.inj (List.mem_singleton.mp htoken)
    exact wordOk_of_token? hfound

theorem wordOk_of_lexemesIn? {fuel : Nat} {cs : List Char} {lexemes : List Lexeme}
    (h : lexemesIn? fuel cs = some lexemes) : ∀ token, .token token ∈ lexemes → WordOk token := by
  induction fuel generalizing cs lexemes with
  | zero =>
    cases cs with
    | nil => rw [← Option.some.inj h]; simp
    | cons => cases h
  | succ fuel ih =>
    cases cs with
    | nil => rw [← Option.some.inj h]; simp
    | cons c cs =>
      rw [lexemesIn?] at h
      obtain ⟨⟨first, rest⟩, hstep, h⟩ := Option.bind_eq_some_iff.mp h
      obtain ⟨more, hmore, h⟩ := Option.bind_eq_some_iff.mp h
      obtain rfl := Option.some.inj h
      intro token htoken
      rcases List.mem_append.mp htoken with htoken | htoken
      · exact wordOk_of_step? hstep token htoken
      · exact ih hmore token htoken

theorem token_mem_lexemesOfAll {token : Token} {trees : List Tree} (h : .leaf token ∈ trees) :
    .token token ∈ lexemesOfAll trees := by
  induction trees with
  | nil => cases h
  | cons tree trees ih =>
    rw [lexemesOfAll]
    rcases List.mem_cons.mp h with rfl | h
    · exact List.mem_append_left _ (by simp [lexemesOf])
    · exact List.mem_append_right _ (ih h)

end Lexer

open Lexer

/-- The words among the trees of a text can be written. -/
theorem Tree.isWord_of_mem {text : String} {trees : List Tree} (h : Tree.ofText? text = some trees)
    {raw : Bool} {name : String} (hmem : .leaf (.word raw name) ∈ trees) : IsWord raw name := by
  obtain ⟨lexemes, hlexemes, hnest⟩ := Option.bind_eq_some_iff.mp h
  have hall : lexemesOfAll trees = lexemes := by
    simpa [lexemesBefore, lexemesOfAll] using lexemesOfAll_nest? hnest
  have htoken := token_mem_lexemesOfAll hmem
  rw [hall] at htoken
  exact wordOk_of_lexemesIn? hlexemes _ htoken

end ComponentRegistry
