import ComponentRegistry.Proofs.Crate.Identities
import ComponentRegistry.Proofs.Generation.Repeated
import ComponentRegistry.Proofs.Token.Layout

/-! Layout in source files. What is put between two tokens of a file changes neither its outline nor what
a session makes of it (`Outline.layout_invisible`). The byte order mark and the line that names an
interpreter are dealt with first, since they are looked for in front of all tokens. -/

namespace ComponentRegistry

open Grammar Lexer Text

namespace Lexer

theorem dropByteOrderMark_of_ne {c : Char} (hc : c ≠ '\ufeff') (cs : List Char) :
    dropByteOrderMark (c :: cs) = c :: cs := by
  unfold dropByteOrderMark
  split
  next heq => exact absurd (List.cons.inj heq).1 hc
  next => rfl

theorem dropByteOrderMark_suffix (cs : List Char) : dropByteOrderMark cs <:+ cs := by
  unfold dropByteOrderMark
  split
  next => exact List.suffix_cons ..
  next => exact List.suffix_refl _

/-- A byte order mark stands in front of a place, and in front of the same place of another text. -/
theorem dropByteOrderMark_place {front rest : List Char}
    (h : rest <:+ dropByteOrderMark (front ++ rest)) : ∃ left,
    dropByteOrderMark (front ++ rest) = left ++ rest ∧
    ∀ {b : Char}, b ≠ '\ufeff' → ∀ more, dropByteOrderMark (front ++ b :: more) = left ++ b :: more := by
  cases front with
  | nil =>
    refine ⟨[], ?_, fun hb more => dropByteOrderMark_of_ne hb more⟩
    exact (h.eq_of_length_le (dropByteOrderMark_suffix rest).length_le).symm
  | cons c front =>
    by_cases hc : c = '\ufeff'
    · subst hc
      exact ⟨front, rfl, fun _ _ => rfl⟩
    · exact ⟨c :: front, dropByteOrderMark_of_ne hc _, fun _ _ => dropByteOrderMark_of_ne hc _⟩

/-- The first mark of an inner attribute, and the second one. -/
theorem step?_sharp (rest : List Char) : step? ('#' :: '!' :: rest) =
    some ([.token (.mark '#' true)], '!' :: rest) := step?_mark rfl (by decide) rfl

theorem step?_bang (rest : List Char) : step? ('!' :: rest) =
    some ([.token (.mark '!' (startsMark rest))], rest) := step?_mark rfl (by decide) rfl

/-- A text whose first lexeme is an opening bracket has it behind its first blanks. -/
theorem blanks_of_lexes {cs : List Char} {more : List Lexeme}
    (h : Lexes cs (.opening .bracket :: more)) : ∃ inner, Blanks cs ('[' :: inner) := by
  generalize hall : Lexeme.opening .bracket :: more = all at h
  induction h with
  | nil => cases hall
  | @step cs rest first later hstep _ _ ih =>
    cases step?_iff.mp hstep with
    | blank hblank =>
      obtain ⟨inner, hinner⟩ := ih hall
      exact ⟨inner, .step hblank hinner⟩
    | doc => cases hall
    | error => cases hall
    | @bracket c _ lexeme hbracket =>
      obtain ⟨rfl, -⟩ := List.cons.inj hall
      unfold bracket? at hbracket
      split at hbracket
      all_goals first
        | exact ⟨_, .refl⟩
        | cases hbracket
    | token => cases hall

theorem Blanks.lexes_bracket {cs inner : List Char} (h : Blanks cs ('[' :: inner))
    {lexemes : List Lexeme} (hlexes : Lexes cs lexemes) :
    ∃ more, lexemes = .opening .bracket :: more := by
  obtain ⟨later, rfl, hlater⟩ := h.comes.lexes_iff.mp hlexes
  have hstep : step? ('[' :: inner) = some ([.opening .bracket], inner) := step?_bracket rfl rfl
  generalize hcs : '[' :: inner = cs at hlater
  cases hlater with
  | nil => cases hcs
  | step hfirst =>
    subst hcs
    obtain ⟨rfl, rfl⟩ := Prod.mk.inj (Option.some.inj (hstep.symm.trans hfirst))
    exact ⟨_, rfl⟩

end Lexer

namespace Grammar.SourceFile

theorem blanks_dropBlanks (fuel : Nat) (cs : List Char) : Blanks cs (dropBlanks fuel cs) := by
  induction fuel generalizing cs with
  | zero => exact .refl
  | succ fuel ih =>
    rw [dropBlanks]
    split
    next rest hblank => exact .step hblank (ih rest)
    next => exact .refl

theorem dropBlanks_eq {cs rest : List Char} (h : Blanks cs rest) (hrest : blank? rest = none)
    {fuel : Nat} (hfuel : cs.length ≤ fuel) : dropBlanks fuel cs = rest := by
  induction h generalizing fuel with
  | refl =>
    cases fuel with
    | zero => rfl
    | succ fuel => rw [dropBlanks, hrest]
  | step hblank _ ih =>
    have hlt := length_lt_of_blank? hblank
    cases fuel with
    | zero => omega
    | succ fuel =>
      rw [dropBlanks, hblank]
      exact ih hrest (by omega)

/-- No line that names an interpreter is dropped if what looks like one is an inner attribute. -/
theorem dropInterpreter_eq_self_iff {cs : List Char} : dropInterpreter cs = cs ↔
    ∀ rest, cs = '#' :: '!' :: rest → ∃ inner, Blanks rest ('[' :: inner) := by
  constructor
  · rintro h rest rfl
    rw [dropInterpreter] at h
    split at h
    next inner hinner => exact ⟨inner, hinner ▸ blanks_dropBlanks rest.length rest⟩
    next =>
      have hlength := (List.dropWhile_suffix (· ≠ '\n') (l := rest)).length_le
      rw [h, List.length_cons, List.length_cons] at hlength
      omega
  · intro h
    unfold dropInterpreter
    split
    next rest =>
      obtain ⟨inner, hinner⟩ := h rest rfl
      have hblanks := dropBlanks_eq hinner rfl (Nat.le_refl rest.length)
      split
      next => rfl
      next hnone => exact absurd hblanks (hnone inner)
    next => rfl

/-- Layout does not make a line that names an interpreter of an inner attribute. -/
theorem dropInterpreter_gap {front gap rest : List Char}
    (hkeep : dropInterpreter (front ++ rest) = front ++ rest)
    (hplace : Gap (dropByteOrderMark (front ++ rest)) rest)
    (hsettled : Settled (dropByteOrderMark (front ++ rest)) rest) (hgap : Layout gap)
    (hstart : ∀ c ∈ gap.head?, isBlank c = true)
    (hlexemes : (lexemes? (dropByteOrderMark (front ++ rest))).isSome) :
    dropInterpreter (front ++ (gap ++ rest)) = front ++ (gap ++ rest) := by
  cases gap with
  | nil => exact hkeep
  | cons b more =>
  refine dropInterpreter_eq_self_iff.mpr fun later hlater => ?_
  obtain ⟨inner, rfl⟩ : ['#', '!'] <+: front :=
    prefix_of_blank (hstart b rfl) (by decide) ⟨later, hlater.symm⟩
  obtain rfl : inner ++ (b :: more ++ rest) = later := (List.cons.inj (List.cons.inj hlater).2).2
  obtain ⟨bracket, hbracket⟩ := dropInterpreter_eq_self_iff.mp hkeep (inner ++ rest) rfl
  have hdrop : dropByteOrderMark (['#', '!'] ++ inner ++ rest) = '#' :: '!' :: inner ++ rest :=
    dropByteOrderMark_of_ne (by decide) _
  rw [hdrop] at hplace hsettled hlexemes
  obtain ⟨lexemes, hlexemes⟩ := Option.isSome_iff_exists.mp hlexemes
  have hsharp : step? ('#' :: '!' :: inner ++ rest) =
      some ([.token (.mark '#' true)], '!' :: inner ++ rest) := step?_sharp (inner ++ rest)
  have hbang : step? ('!' :: inner ++ rest) =
      some ([.token (.mark '!' (startsMark (inner ++ rest)))], inner ++ rest) := step?_bang (inner ++ rest)
  have hinner : Comes ('#' :: '!' :: inner ++ rest) _ (inner ++ rest) :=
    .step hsharp (.step hbang .refl)
  obtain ⟨later, -, hlater⟩ := hinner.lexes_iff.mp (lexes_of_lexemesIn? hlexemes)
  -- The lexemes behind the two marks start with the bracket, with layout among them as without it.
  obtain ⟨attributes, rfl⟩ := hbracket.lexes_bracket hlater
  have hplace := (hplace.tail (by simp) hsharp).tail (by simp) hbang
  have hsettled := (hsettled.step hsharp).step hbang
  have hnew := hplace.lexemes? hsettled hgap hstart hlater.lexemes?
  exact blanks_of_lexes (lexes_of_lexemesIn? hnew)

/-- The text from its first lexeme on: a byte order mark is looked for twice. -/
def lexed (cs : List Char) : List Char := dropByteOrderMark (dropByteOrderMark cs)

/-- Layout that is put into a source file, between `front` and `rest`: in front of a token, but not of a
mark or lifetime that stands directly behind a mark. -/
structure Insertion (front gap rest : List Char) : Prop where
  accepted : (items? (String.ofList (front ++ rest))).isSome
  noInterpreter : dropInterpreter (dropByteOrderMark (front ++ rest)) = dropByteOrderMark (front ++ rest)
  place : Gap (lexed (front ++ rest)) rest
  layout : Layout gap
  starts : ∀ c ∈ gap.head?, isBlank c = true

/-- The items of a text are those of its lexemes, without byte order marks and interpreter. -/
theorem items?_eq (cs : List Char) : items? (String.ofList cs) =
    (lexemes? (dropByteOrderMark (dropInterpreter (dropByteOrderMark cs)))).bind fun lexemes =>
      (nest? [] [] lexemes).bind fun trees => (readAll reader trees).toOption := by
  rw [items?, ofText?, Tree.ofText?, content, String.toList_ofList, String.toList_ofList, treesOf?]
  exact Option.bind_assoc ..

theorem Insertion.items?_eq {front gap rest : List Char} (h : Insertion front gap rest)
    (hsettled : Settled (lexed (front ++ rest)) rest) :
    items? (String.ofList (front ++ (gap ++ rest))) = items? (String.ofList (front ++ rest)) := by
  obtain ⟨haccepted, hkeep, hplace, hgap, hstart⟩ := h
  cases gap with
  | nil => rfl
  | cons b more =>
  -- The place stands behind whatever is dropped from the start of the text.
  obtain ⟨before, hcomes⟩ := hplace.comes
  obtain ⟨left, hleft, hleft'⟩ := dropByteOrderMark_place
    (hcomes.suffix.trans (dropByteOrderMark_suffix _))
  rw [SourceFile.items?_eq, hkeep] at haccepted
  rw [SourceFile.items?_eq, SourceFile.items?_eq, hkeep]
  rw [lexed] at hplace hcomes hsettled
  rw [hleft] at haccepted hkeep hplace hcomes hsettled ⊢
  obtain ⟨inner, hinner, hinner'⟩ := dropByteOrderMark_place hcomes.suffix
  have hb : b ≠ '\ufeff' := ne_of_class (hstart b rfl) (by decide)
  obtain ⟨lexemes, hlexemes⟩ : ∃ lexemes, lexemes? (dropByteOrderMark (left ++ rest)) = some lexemes := by
    obtain ⟨items, hitems⟩ := Option.isSome_iff_exists.mp haccepted
    obtain ⟨lexemes, hlexemes, -⟩ := Option.bind_eq_some_iff.mp hitems
    exact ⟨lexemes, hlexemes⟩
  have hinterpreter := dropInterpreter_gap hkeep hplace hsettled hgap hstart (by rw [hlexemes]; rfl)
  rw [List.cons_append] at hinterpreter ⊢
  rw [hinner] at hplace hsettled hlexemes ⊢
  have hnew := hplace.lexemes? hsettled hgap hstart hlexemes
  rw [List.cons_append] at hnew
  rw [hleft' hb, hinterpreter, hinner' hb, hnew, hlexemes]

end Grammar.SourceFile

open SourceFile

namespace Outline

/-- Layout between the tokens of a file leaves its outline as it is, if what stands in front of it does
not depend on what stands behind it. A session that has passed over the declarations of the file, next
to those of other files, then classifies nothing, and finds nothing new if it has been successful. -/
theorem layout_invisible {front gap rest : List Char} (h : Insertion front gap rest)
    (hsettled : Settled (lexed (front ++ rest)) rest) (file : String) (modulePath : List String) :
    let old := ofText file modulePath (String.ofList (front ++ rest))
    let new := ofText file modulePath (String.ofList (front ++ (gap ++ rest)))
    new = old ∧
    ∀ (s : Session) (before after : List Node), ((before ++ after).map Node.key).Nodup →
      (∀ node ∈ before ++ after, node.key.file ≠ file) →
      Session.Repeats (s.run (before ++ old.nodes ++ after))
        ((s.run (before ++ old.nodes ++ after)).2.run (before ++ new.nodes ++ after)) := by
  intro old new
  have hsame : new = old := by
    obtain ⟨items, hitems⟩ := Option.isSome_iff_exists.mp h.accepted
    have hnew := h.items?_eq hsettled
    simp only [new, old, ofText, hnew, hitems]
  refine ⟨hsame, fun s before after hkeys hfiles => ?_⟩
  rw [hsame]
  refine Session.run_again s ?_
  have hperm : (before ++ old.nodes ++ after).Perm (old.nodes ++ (before ++ after)) := by
    rw [← List.append_assoc]
    exact List.perm_append_comm.append_right after
  rw [(hperm.map Node.key).nodup_iff, List.map_append]
  have hold : old.nodes.map Node.key = (List.range old.nodes.length).map (NodeKey.mk file) :=
    keys_ofText ..
  refine List.Nodup.append ?_ hkeys fun key hmem hother => ?_
  · rw [hold]
    exact List.nodup_range.map fun _ _ heq => (NodeKey.mk.inj heq).2
  · rw [hold] at hmem
    obtain ⟨ordinal, -, rfl⟩ := List.mem_map.mp hmem
    obtain ⟨node, hnode, hkey⟩ := List.mem_map.mp hother
    exact hfiles node hnode (by rw [hkey])

/-- A comment and the start of a line in the declaration of a component. -/
theorem layout_invisible_struct :
    let front := "mod a;#[Component]struct ".toList
    let gap := "\t/*/**/*/ // of a crate\n".toList
    let rest := "A<'a>(&'a str);".toList
    let old := ofText "lib.rs" [] (String.ofList (front ++ rest))
    let new := ofText "lib.rs" [] (String.ofList (front ++ (gap ++ rest)))
    let other : Node := ⟨⟨"a.rs", 0⟩, ["a"], "#[Component]struct B;"⟩
    Insertion front gap rest ∧ Settled (lexed (front ++ rest)) rest ∧ new = old ∧
    Session.Repeats ((Session.start {}).run ([other] ++ old.nodes ++ []))
      (((Session.start {}).run ([other] ++ old.nodes ++ [])).2.run ([other] ++ new.nodes ++ [])) := by
  intro front gap rest old new other
  have hgap : gap = '\t' :: '/' :: '*' :: ("/**/".toList ++ '*' :: '/' ::
      ' ' :: '/' :: '/' :: (" of a crate".toList ++ ['\n'])) := by decide +kernel
  have hline : Runs " of a crate".toList := ⟨by decide +kernel, by decide +kernel⟩
  have hlayout : Layout gap := by
    rw [hgap]
    exact .blank rfl (.block (by decide +kernel) (by decide +kernel) (.blank rfl (.line hline .nil)))
  have hinsertion : Insertion front gap rest :=
    ⟨by decide +kernel, by decide +kernel, by decide +kernel, hlayout, by rw [hgap]; rintro _ ⟨⟩; rfl⟩
  have hsettled : Settled (lexed (front ++ rest)) rest := by decide +kernel
  obtain ⟨hsame, hrepeats⟩ := layout_invisible hinsertion hsettled "lib.rs" []
  exact ⟨hinsertion, hsettled, hsame, hrepeats (.start {}) [other] [] (by simp) (by simp [other])⟩

/-- A blank that makes a float of an integer with a method behind it, and one that parts an apostrophe
from a literal. -/
theorem layout_visible :
    (Insertion "const A:B=1.".toList [' '] "max(2);".toList ∧
      ofText "lib.rs" [] "const A:B=1. max(2);" ≠ ofText "lib.rs" [] "const A:B=1.max(2);") ∧
    (Insertion "m!('".toList [' '] "b\x22x\x22);".toList ∧
      ofText "lib.rs" [] "m!(' b\x22x\x22);" ≠ ofText "lib.rs" [] "m!('b\x22x\x22);") := by
  have hblank : Layout [' '] := .blank rfl .nil
  have hstart : ∀ c ∈ [' '].head?, isBlank c = true := by rintro _ ⟨⟩; rfl
  refine ⟨⟨⟨?_, ?_, ?_, hblank, hstart⟩, ?_⟩, ⟨⟨?_, ?_, ?_, hblank, hstart⟩, ?_⟩⟩
  all_goals decide +kernel

end Outline

end ComponentRegistry
