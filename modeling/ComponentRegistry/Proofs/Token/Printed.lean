import ComponentRegistry.Proofs.Text.Quoted
import ComponentRegistry.Proofs.Token.Word

/-! Token trees that are printed are read back as they were (`Tree.ofText?_text`), if each of their
tokens is and the marks that are joint stand before other marks. -/

namespace ComponentRegistry

open Text

namespace Lexer

/-- A text is cut into lexemes step by step. -/
inductive Lexes : List Char → List Lexeme → Prop
  | nil : Lexes [] []
  | step {cs rest : List Char} {lexemes more : List Lexeme} :
    step? cs = some (lexemes, rest) → rest.length < cs.length → Lexes rest more →
    Lexes cs (lexemes ++ more)

theorem Lexes.lexemesIn? {cs : List Char} {lexemes : List Lexeme} (h : Lexes cs lexemes)
    {fuel : Nat} (hfuel : cs.length ≤ fuel) : lexemesIn? fuel cs = some lexemes := by
  induction h generalizing fuel with
  | nil => cases fuel <;> rfl
  | @step cs rest lexemes more hstep hlt _ ih =>
    cases cs with
    | nil => simp at hlt
    | cons c cs =>
      cases fuel with
      | zero => simp at hfuel
      | succ fuel =>
        rw [List.length_cons] at hlt hfuel
        rw [Lexer.lexemesIn?, hstep]
        simp [ih (show rest.length ≤ fuel by omega)]

theorem Lexes.lexemes? {cs : List Char} {lexemes : List Lexeme} (h : Lexes cs lexemes) :
    lexemes? cs = some lexemes := h.lexemesIn? (Nat.le_refl _)

/-- What stands after a token in a printed text: nothing, a blank, or a closing bracket. -/
def Closed (cs : List Char) : Prop :=
  ∀ c ∈ cs.head?, c = ' ' ∨ c = ')' ∨ c = ']' ∨ c = '\x7d' ∨ c = '\n'

theorem closed_nil : Closed [] := by
  intro c hc
  cases hc

theorem closed_cons {c : Char} {cs : List Char}
    (h : c = ' ' ∨ c = ')' ∨ c = ']' ∨ c = '\x7d' ∨ c = '\n') : Closed (c :: cs) := by
  intro d hd
  obtain rfl := Option.some.inj hd
  exact h

theorem Closed.endsWord {cs : List Char} (h : Closed cs) : EndsWord cs := by
  intro c hc
  rcases h c hc with rfl | rfl | rfl | rfl | rfl <;> decide

theorem Closed.startsMark {cs : List Char} (h : Closed cs) : startsMark cs = false := by
  cases cs with
  | nil => rfl
  | cons c cs => rcases h c rfl with rfl | rfl | rfl | rfl | rfl <;> rfl

theorem Closed.dropSuffix {cs : List Char} (h : Closed cs) : Literal.dropSuffix cs = cs := by
  cases cs with
  | nil => rfl
  | cons c cs =>
    have hstart : isIdentStart c = false := by
      rcases h c rfl with rfl | rfl | rfl | rfl | rfl <;> decide
    simp [Literal.dropSuffix, Literal.identifier?, hstart]

theorem step?_blank (cs : List Char) : step? (' ' :: cs) = some ([], cs) := by
  have hblank : isBlank ' ' = true := by decide
  simp [step?, blank?, hblank]

theorem bracket?_cases {c : Char} {lexeme : Lexeme} (h : bracket? c = some lexeme) :
    isBlank c = false ∧ c ≠ '/' := by
  unfold bracket? at h
  split at h
  all_goals first | exact ⟨by decide, by decide⟩ | cases h

/-- A bracket is read alone; an opening parenthesis is none if it stands for a literal that could not
be written. -/
theorem step?_bracket {c : Char} {lexeme : Lexeme} (h : bracket? c = some lexeme) {cs : List Char}
    (herror : errorLiteral.isPrefixOf (c :: cs) = false) :
    step? (c :: cs) = some ([lexeme], cs) := by
  obtain ⟨hblank, hslash⟩ := bracket?_cases h
  simp [step?, blank?, hblank, comment?, doc?, docComment?, hslash, herror, h]

/-- What holds of all marks but the apostrophe, which starts lifetimes. -/
theorem mark_cases {c : Char} (h : isMark c = true) (hticks : c ≠ '\x27') :
    isBlank c = false ∧ bracket? c = none ∧ c.isDigit = false ∧ Literal.hexDigit? c = none ∧
      c ≠ '\x22' ∧ c ≠ 'r' ∧ c ≠ 'b' ∧ c ≠ 'c' ∧ c ≠ '0' ∧ c ≠ '_' := by
  have hc := of_isMark (p := fun k => k == '\x27' || decide (isBlank k = false ∧ bracket? k = none ∧
    k.isDigit = false ∧ Literal.hexDigit? k = none ∧ k ≠ '\x22' ∧ k ≠ 'r' ∧ k ≠ 'b' ∧ k ≠ 'c' ∧
    k ≠ '0' ∧ k ≠ '_')) h (by decide)
  simpa [hticks] using hc

theorem end?_of_isMark {c : Char} (h : isMark c = true) (hticks : c ≠ '\x27') (cs : List Char) :
    Literal.end? (c :: cs) = none := by
  obtain ⟨-, -, hdigit, hhex, hquote, hr, hb, hc, hzero, hlow⟩ := mark_cases h hticks
  simp [Literal.end?, Literal.string?, Literal.byteString?, Literal.cString?, Literal.character?,
    Literal.float?, Literal.floatDigits?, Literal.int?, Literal.intBase, Literal.intDigits?, hticks,
    hdigit, hhex, hquote, hr, hb, hc, hzero, hlow]

/-- A mark is joint if another one stands directly after it. -/
theorem step?_mark {c : Char} {cs : List Char} (hmark : isMark c = true) (hticks : c ≠ '\x27')
    (hstarts : startsMark (c :: cs) = true) :
    step? (c :: cs) = some ([.token (.mark c (startsMark cs))], cs) := by
  obtain ⟨hblank, hbracket, -⟩ := mark_cases hmark hticks
  refine step?_of_token? hblank (.inr hstarts) hbracket ?_
  simp [token?, literal?, end?_of_isMark hmark hticks, mark?, hstarts, hticks]

/-- Before what stands after a token in a printed text, a token is read back as it was. -/
structure Reads (token : Token) : Prop where
  step : ∀ {cs}, Closed cs → step? (token.chars ++ cs) = some ([.token token], cs)
  noComment : ¬['/', '*'] <+: token.chars
  free : (Tree.leaf token).isJoint = false

theorem Reads.chars_ne_nil {token : Token} (h : Reads token) : token.chars ≠ [] := by
  intro hnil
  have hstep := h.step closed_nil
  rw [hnil] at hstep
  cases hstep

theorem Reads.word {raw : Bool} {name : String} (h : IsWord raw name) :
    Reads (.word raw name) where
  step hcs := step?_word h hcs.endsWord
  noComment := by
    obtain ⟨c, after, hchars, hc, -, -⟩ := h.start closed_nil.endsWord
    rw [List.append_nil] at hchars
    rintro ⟨rest, hrest⟩
    have hslash : '/' :: '*' :: rest = c :: after := hrest.trans hchars
    exact (ne_of_class hc (by decide) : c ≠ '/') (List.cons.inj hslash).1.symm
  free := rfl

theorem Reads.lifetime {raw : Bool} {name : String} (h : IsWord raw name) :
    Reads (.lifetime (String.ofList (wordChars raw name))) where
  step hcs := by
    simpa only [Token.chars, String.toList_ofList, List.cons_append] using
      step?_lifetime h hcs.endsWord
  noComment := by simp [Token.chars]
  free := rfl

theorem Reads.mark {c : Char} (hmark : isMark c = true) (hticks : c ≠ '\x27') :
    Reads (.mark c false) where
  step {cs} hcs := by
    have hstarts : startsMark (c :: cs) = true := by
      cases cs with
      | nil => simpa [startsMark] using hmark
      | cons d cs => rcases hcs d rfl with rfl | rfl | rfl | rfl | rfl <;> simpa [startsMark] using hmark
    rw [Token.chars, List.singleton_append, step?_mark hmark hticks hstarts, hcs.startsMark]
  noComment := by
    rintro ⟨rest, hrest⟩
    simp [Token.chars] at hrest
  free := rfl

/-- A literal that ends where its text does is read back. -/
theorem Reads.literal {text : String} {c : Char} {cs : List Char} (htext : text.toList = c :: cs)
    (hblank : isBlank c = false) (hslash : c ≠ '/') (hbracket : bracket? c = none)
    (hend : ∀ {rest}, Closed rest → Literal.end? (text.toList ++ rest) = some rest) :
    Reads (.literal text) where
  step {rest} hrest := by
    have htoken : token? (c :: (cs ++ rest)) = some (.literal text, rest) := by
      have htake : (text.toList ++ rest).take ((text.toList ++ rest).length - rest.length) =
          text.toList := by
        rw [List.length_append, Nat.add_sub_cancel, List.take_left]
      have hliteral : literal? (text.toList ++ rest) = some (.literal text, rest) := by
        rw [literal?, hend hrest, Option.map_some, htake, String.ofList_toList]
      rw [htext, List.cons_append] at hliteral
      simp [token?, hliteral]
    rw [Token.chars, htext, List.cons_append]
    exact step?_of_token? hblank (.inl hslash) hbracket htoken
  noComment := by
    rintro ⟨rest, hrest⟩
    rw [Token.chars, htext] at hrest
    exact hslash (List.cons.inj hrest).1.symm
  free := rfl

theorem Reads.quoted (cs : List Char) : Reads (.literal (String.ofList (Text.literal cs))) := by
  refine .literal (c := '\x22') (String.toList_ofList ..) (by decide) (by decide) rfl
    fun {rest} hrest => ?_
  rw [String.toList_ofList, Literal.end?, Literal.string?_literal]
  simp [hrest.dropSuffix]

/-- A text without quotes and carriage returns is read from its raw form. -/
theorem rawQuoted?_append {cs rest : List Char} (h : ∀ c ∈ cs, c ≠ '\x22' ∧ c ≠ '\r') :
    Literal.rawQuoted? .text 0 (cs ++ '\x22' :: rest) = some (cs, rest) := by
  induction cs with
  | nil =>
    rw [List.nil_append, Literal.rawQuoted?.eq_def]
    simp
  | cons c cs ih =>
    obtain ⟨hquote, hreturn⟩ := h c List.mem_cons_self
    rw [List.cons_append, Literal.rawQuoted?.eq_def]
    simp [hquote, hreturn, Literal.Content.admits, ih fun d hd => h d (List.mem_cons_of_mem _ hd)]

theorem Reads.rawQuoted {cs : List Char} (h : ∀ c ∈ cs, c ≠ '\x22' ∧ c ≠ '\r') :
    Reads (.literal (String.ofList ('r' :: '\x22' :: cs ++ ['\x22']))) := by
  refine .literal (c := 'r') (String.toList_ofList ..) (by decide) (by decide) rfl
    fun {rest} hrest => ?_
  have hraw : Literal.raw? .text ('\x22' :: (cs ++ '\x22' :: rest)) = some (cs, rest) := by
    simp [Literal.raw?, rawQuoted?_append h]
  simp [Literal.end?, Literal.string?, hraw, hrest.dropSuffix]

/-- Every token is read back, and a joint mark stands directly before a mark. -/
inductive Tight : List Tree → Prop
  | nil : Tight []
  | leaf {token : Token} {rest : List Tree} : Reads token → Tight rest → Tight (.leaf token :: rest)
  | joint {c : Char} {rest : List Tree} : isMark c = true → c ≠ '\x27' →
    (∀ {cs}, Closed cs → startsMark (c :: (Tree.charsAll rest ++ cs)) = true ∧
      startsMark (Tree.charsAll rest ++ cs) = true) →
    Tight rest → Tight (.leaf (.mark c true) :: rest)
  | group {delimiter : Delimiter} {inner rest : List Tree} :
    Tight inner → Tight rest → Tight (.group delimiter inner :: rest)

theorem charsAll_leaf {token : Token} (h : Reads token) (rest : List Tree) :
    Tree.charsAll (.leaf token :: rest) =
      token.chars ++ ((if rest.isEmpty then [] else [' ']) ++ Tree.charsAll rest) := by
  rw [Tree.charsAll, h.free, Bool.or_false, Tree.chars, List.append_assoc]

theorem charsAll_joint (c : Char) (rest : List Tree) :
    Tree.charsAll (.leaf (.mark c true) :: rest) = c :: Tree.charsAll rest := by
  simp [Tree.charsAll, Tree.isJoint, Tree.chars, Token.chars]

theorem charsAll_group (delimiter : Delimiter) (inner rest : List Tree) :
    Tree.charsAll (.group delimiter inner :: rest) =
      delimiter.opening ++ (Tree.charsAll inner ++
        ((if delimiter = .brace && !inner.isEmpty then [' '] else []) ++ (delimiter.closing ++
          ((if rest.isEmpty then [] else [' ']) ++ Tree.charsAll rest)))) := by
  simp [Tree.charsAll, Tree.isJoint, Tree.chars]

theorem closed_space (rest : List Tree) {cs : List Char} (hcs : Closed cs) :
    Closed ((if rest.isEmpty then [] else [' ']) ++ (Tree.charsAll rest ++ cs)) := by
  cases rest with
  | nil => exact hcs
  | cons => exact closed_cons (.inl rfl)

/-- More trees stand one blank apart from those before them. -/
theorem Tight.charsAll_append {trees : List Tree} (h : Tight trees) (hne : trees ≠ [])
    (more : List Tree) : Tree.charsAll (trees ++ more) =
      Tree.charsAll trees ++ ((if more.isEmpty then [] else [' ']) ++ Tree.charsAll more) := by
  induction h with
  | nil => exact absurd rfl hne
  | @leaf token rest htoken hrest ih =>
    rw [List.cons_append, charsAll_leaf htoken, charsAll_leaf htoken]
    cases rest with
    | nil => simp [Tree.charsAll]
    | cons =>
      rw [ih (by simp)]
      simp
  | @joint c rest hmark hticks hstarts hrest ih =>
    have hne : rest ≠ [] := by
      rintro rfl
      cases (hstarts closed_nil).2
    rw [List.cons_append, charsAll_joint, charsAll_joint, ih hne, List.cons_append]
  | @group delimiter inner rest hinner hrest _ ih =>
    rw [List.cons_append, charsAll_group, charsAll_group]
    cases rest with
    | nil => simp [Tree.charsAll]
    | cons =>
      rw [ih (by simp)]
      simp

theorem Tight.append {trees more : List Tree} (h : Tight trees) (hmore : Tight more) :
    Tight (trees ++ more) := by
  induction h with
  | nil => exact hmore
  | leaf htoken _ ih => exact .leaf htoken ih
  | @joint c rest hmark hticks hstarts hrest ih =>
    rw [List.cons_append]
    refine .joint hmark hticks (fun {cs} hcs => ?_) ih
    have hne : rest ≠ [] := by
      rintro rfl
      cases (hstarts closed_nil).2
    rw [hrest.charsAll_append hne, List.append_assoc, List.append_assoc]
    exact hstarts (closed_space more hcs)
  | group hinner _ _ ih => exact .group hinner ih

mutual

/-- The lexemes of a tree. -/
def lexemesOf : Tree → List Lexeme
  | .leaf token => [.token token]
  | .group delimiter inner =>
    [.opening delimiter] ++ lexemesOfAll inner ++ [.closing delimiter]

def lexemesOfAll : List Tree → List Lexeme
  | [] => []
  | tree :: rest => lexemesOf tree ++ lexemesOfAll rest

end

mutual

/-- The brackets of a tree are matched. -/
theorem nest?_lexemesOf (tree : Tree) (outer : List (Delimiter × List Tree)) (inner : List Tree)
    (more : List Lexeme) :
    nest? outer inner (lexemesOf tree ++ more) = nest? outer (tree :: inner) more := by
  cases tree with
  | leaf token => rw [lexemesOf, List.singleton_append, nest?]
  | group delimiter content =>
    rw [lexemesOf, List.append_assoc, List.append_assoc, List.singleton_append, nest?,
      nest?_lexemesOfAll, List.append_nil, List.singleton_append, nest?]
    simp

theorem nest?_lexemesOfAll (trees : List Tree) (outer : List (Delimiter × List Tree))
    (inner : List Tree) (more : List Lexeme) :
    nest? outer inner (lexemesOfAll trees ++ more) = nest? outer (trees.reverse ++ inner) more := by
  cases trees with
  | nil => rfl
  | cons tree rest =>
    rw [lexemesOfAll, List.append_assoc, nest?_lexemesOf, nest?_lexemesOfAll, List.reverse_cons,
      List.append_assoc, List.singleton_append]

end

/-- No comment starts where a printed text does. -/
theorem Tight.noComment {trees : List Tree} (h : Tight trees) {cs : List Char} (hcs : Closed cs) :
    ¬['/', '*'] <+: Tree.charsAll trees ++ cs := by
  rintro ⟨after, hafter⟩
  have hopen : ∀ {text : List Char}, Closed text → ∀ next, '*' :: next ≠ text := by
    rintro text htext next rfl
    rcases htext _ rfl with h | h | h | h | h <;> cases h
  cases h with
  | nil =>
    rw [Tree.charsAll, List.nil_append] at hafter
    subst hafter
    rcases hcs _ rfl with h | h | h | h | h <;> cases h
  | @leaf token rest htoken _ =>
    rw [charsAll_leaf htoken, List.append_assoc, List.append_assoc] at hafter
    have hclosed := closed_space rest hcs
    have hcomment := htoken.noComment
    cases hchars : token.chars with
    | nil => exact htoken.chars_ne_nil hchars
    | cons first chars =>
      rw [hchars] at hafter hcomment
      obtain ⟨rfl, htail⟩ := List.cons.inj hafter
      cases chars with
      | nil => exact hopen hclosed _ htail
      | cons second chars =>
        obtain ⟨rfl, -⟩ := List.cons.inj htail
        exact hcomment ⟨chars, rfl⟩
  | @joint c rest _ _ hstarts _ =>
    have hstart := (hstarts hcs).1
    rw [charsAll_joint] at hafter
    obtain ⟨rfl, htail⟩ := List.cons.inj hafter
    rw [← show '*' :: after = Tree.charsAll rest ++ cs from htail] at hstart
    cases hstart
  | @group delimiter inner rest _ _ =>
    rw [charsAll_group] at hafter
    cases delimiter <;> exact absurd (List.cons.inj hafter).1 (by decide)

theorem Lexes.blank {cs : List Char} {lexemes : List Lexeme} (h : Lexes cs lexemes) :
    Lexes (' ' :: cs) lexemes :=
  .step (step?_blank cs) (Nat.lt_succ_self _) h

theorem Lexes.space {cs : List Char} {lexemes : List Lexeme} (c : Bool) (h : Lexes cs lexemes) :
    Lexes ((if c then [] else [' ']) ++ cs) lexemes := by
  cases c with
  | false => exact h.blank
  | true => exact h

theorem Lexes.token {token : Token} {cs rest : List Char} {more : List Lexeme}
    (h : step? cs = some ([.token token], rest)) (hlt : rest.length < cs.length)
    (hmore : Lexes rest more) : Lexes cs (.token token :: more) := .step h hlt hmore

theorem Lexes.bracket {c : Char} {lexeme : Lexeme} {cs : List Char} {more : List Lexeme}
    (h : bracket? c = some lexeme) (herror : errorLiteral.isPrefixOf (c :: cs) = false)
    (hmore : Lexes cs more) : Lexes (c :: cs) (lexeme :: more) :=
  .step (step?_bracket h herror) (Nat.lt_succ_self _) hmore

theorem Lexes.opening {delimiter : Delimiter} {cs : List Char} {more : List Lexeme}
    (hcomment : ¬['/', '*'] <+: cs) (hmore : Lexes cs more) :
    Lexes (delimiter.opening ++ cs) (.opening delimiter :: more) := by
  cases delimiter with
  | paren =>
    refine .bracket rfl ?_ hmore
    rw [← Bool.not_eq_true, List.isPrefixOf_iff_prefix]
    rintro ⟨rest, hrest⟩
    refine hcomment ⟨['E', 'R', 'R', 'O', 'R', '*', '/', ')'] ++ rest, ?_⟩
    exact (List.cons.inj hrest).2
  | bracket => exact .bracket rfl rfl hmore
  | brace => exact .bracket rfl rfl hmore.blank

theorem Lexes.closing {delimiter : Delimiter} {cs : List Char} {more : List Lexeme}
    (hmore : Lexes cs more) : Lexes (delimiter.closing ++ cs) (.closing delimiter :: more) := by
  cases delimiter <;> exact .bracket rfl rfl hmore

theorem closed_closing (delimiter : Delimiter) (cs : List Char) :
    Closed (delimiter.closing ++ cs) := by
  cases delimiter
  · exact closed_cons (.inr (.inl rfl))
  · exact closed_cons (.inr (.inr (.inl rfl)))
  · exact closed_cons (.inr (.inr (.inr (.inl rfl))))

/-- A printed text is cut into the lexemes of its trees. -/
theorem Tight.lexes {trees : List Tree} (h : Tight trees) {cs : List Char} {more : List Lexeme}
    (hcs : Closed cs) (hmore : Lexes cs more) :
    Lexes (Tree.charsAll trees ++ cs) (lexemesOfAll trees ++ more) := by
  induction h generalizing cs more with
  | nil => exact hmore
  | @leaf token rest htoken hrest ih =>
    rw [charsAll_leaf htoken, List.append_assoc, List.append_assoc]
    refine .token (htoken.step (closed_space rest hcs)) ?_ ((ih hcs hmore).space _)
    have hpos := List.length_pos_iff.mpr htoken.chars_ne_nil
    simp only [List.length_append]
    omega
  | @joint c rest hmark hticks hstarts hrest ih =>
    obtain ⟨hstart, hnext⟩ := hstarts hcs
    have hstep := step?_mark hmark hticks hstart
    rw [hnext] at hstep
    rw [charsAll_joint, List.cons_append]
    exact .token hstep (Nat.lt_succ_self _) (ih hcs hmore)
  | @group delimiter inner rest hinner hrest ihinner ih =>
    have hlexemes : lexemesOfAll (.group delimiter inner :: rest) ++ more =
        .opening delimiter :: (lexemesOfAll inner ++
          .closing delimiter :: (lexemesOfAll rest ++ more)) := by
      simp [lexemesOfAll, lexemesOf]
    rw [charsAll_group, hlexemes]
    simp only [List.append_assoc]
    have hclosing := @Lexes.closing delimiter _ _ ((ih hcs hmore).space rest.isEmpty)
    cases (decide (delimiter = .brace) && !inner.isEmpty) with
    | false =>
      have hclosed := closed_closing delimiter
        ((if rest.isEmpty then [] else [' ']) ++ (Tree.charsAll rest ++ cs))
      exact .opening (hinner.noComment hclosed) (ihinner hclosed hclosing)
    | true =>
      have hclosed : Closed (' ' :: (delimiter.closing ++
        ((if rest.isEmpty then [] else [' ']) ++ (Tree.charsAll rest ++ cs)))) :=
        closed_cons (.inl rfl)
      exact .opening (hinner.noComment hclosed) (ihinner hclosed hclosing.blank)

/-- Lexemes make up the trees that they are those of. -/
theorem Lexes.treesOf? {cs : List Char} {trees : List Tree} (h : Lexes cs (lexemesOfAll trees)) :
    treesOf? cs = some trees := by
  have hnest := nest?_lexemesOfAll trees [] [] []
  rw [List.append_nil, List.append_nil] at hnest
  rw [Lexer.treesOf?, h.lexemes?]
  show nest? [] [] (lexemesOfAll trees) = some trees
  rw [hnest]
  simp [nest?]

/-- What is printed is read back as it was. -/
theorem treesOf?_charsAll {trees : List Tree} (h : Tight trees) :
    treesOf? (Tree.charsAll trees) = some trees := by
  have hlexes := h.lexes closed_nil .nil
  rw [List.append_nil, List.append_nil] at hlexes
  exact hlexes.treesOf?

theorem step?_byteOrderMark (cs : List Char) : step? ('\ufeff' :: cs) = none := by
  have hblank : isBlank '\ufeff' = false := by decide
  have hstart : isIdentStart '\ufeff' = false := by decide +kernel
  have hdigit : ('\ufeff').isDigit = false := by decide
  have hhex : Literal.hexDigit? '\ufeff' = none := by decide
  have hend : Literal.end? ('\ufeff' :: cs) = none := by
    simp [Literal.end?, Literal.string?, Literal.byteString?, Literal.cString?, Literal.character?,
      Literal.float?, Literal.floatDigits?, Literal.int?, Literal.intBase, Literal.intDigits?, hdigit,
      hhex]
  have htoken : token? ('\ufeff' :: cs) = none := by
    simp [token?, literal?, hend, mark?, startsMark, isMark, word?, spoiledLiteral, anyWord?,
      Literal.identifier?, hstart]
  simp [step?, blank?, hblank, comment?, doc?, docComment?, errorLiteral, bracket?, htoken]

/-- A printed text does not start with a byte order mark. -/
theorem Tight.dropByteOrderMark {trees : List Tree} (h : Tight trees) :
    dropByteOrderMark (Tree.charsAll trees) = Tree.charsAll trees := by
  suffices hstart : (Tree.charsAll trees).head? ≠ some '\ufeff' by
    unfold Lexer.dropByteOrderMark
    split
    next hcs => simp [hcs] at hstart
    next => rfl
  cases h with
  | nil => simp [Tree.charsAll]
  | @leaf token rest htoken _ =>
    rw [charsAll_leaf htoken]
    cases hchars : token.chars with
    | nil => exact absurd hchars htoken.chars_ne_nil
    | cons c cs =>
      have hstep := htoken.step closed_nil
      rw [hchars, List.append_nil] at hstep
      rw [List.cons_append, List.head?_cons]
      intro hmark
      rw [Option.some.inj hmark, step?_byteOrderMark] at hstep
      cases hstep
  | @joint c rest hmark hticks _ _ =>
    rw [charsAll_joint, List.head?_cons]
    intro heq
    rw [Option.some.inj heq] at hmark
    cases hmark
  | @group delimiter inner rest _ _ =>
    rw [charsAll_group]
    cases delimiter <;> simp [Delimiter.opening]

end Lexer

/-- Trees that stay apart are read back from their text. -/
theorem Tree.ofText?_text {trees : List Tree} (h : Lexer.Tight trees) :
    Tree.ofText? (Tree.text trees) = some trees := by
  rw [Tree.ofText?, Tree.text, String.toList_ofList, h.dropByteOrderMark, Lexer.treesOf?_charsAll h]

end ComponentRegistry
