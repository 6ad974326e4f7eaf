import ComponentRegistry.Proofs.Grammar.TypeStart
import ComponentRegistry.Declaration.Outline

/-! Generic parameters as they are spelled: there are some if and only if some are written. Only an
implementation, where a self type in brackets may follow them, can be spelled with more of them. -/

namespace ComponentRegistry

namespace Grammar

namespace Look

variable {trees more : List Tree}

/-- Generic parameters of an implementation stand here, and not just brackets around none. -/
def parameters : Look := but generics (second (op ">"))

/-- Angle brackets around nothing. -/
def emptyBrackets : Look := both (op "<") (second (op ">"))

theorem not_of_apart (h : apart trees = true) :
    op "<" trees = false ∧ op ">" trees = false ∧ parameter trees = false := by
  simp only [apart, not_apply, either_apply, Bool.not_eq_true', Bool.or_eq_false_iff] at h
  refine ⟨h.1, ?_, h.2⟩
  simp only [parameter, either_apply, any_apply, List.any_cons, Bool.or_eq_false_iff] at h
  exact h.2.1.1

theorem parameters_of_apart (h : apart trees = true) : parameters trees = false := by
  simp [parameters, generics_apply, (not_of_apart h).1]

theorem generics_of_emptyBrackets (h : emptyBrackets trees = true) : generics trees = true := by
  simp only [emptyBrackets, both_apply, second, Bool.and_eq_true] at h
  simp [generics_apply, parameter, h.1, h.2, -List.drop_one]

theorem parameters_of_emptyBrackets (h : emptyBrackets trees = true) :
    parameters trees = false := by
  simp only [emptyBrackets, both_apply, Bool.and_eq_true] at h
  simp [parameters, h.2]

theorem parameter_name {n : Name} (h : afterName trees = afterName more) :
    parameter (n.spelling ++ trees) = parameter (n.spelling ++ more) := by
  simp [parameter, Name.spelling, h]

theorem afterName_mark {c : Char} (h : [':', '>', ',', '='].contains c = true) :
    afterName (.leaf (.mark c false) :: trees) = true := by
  simp only [List.contains_cons, List.contains_nil, Bool.or_false, Bool.or_eq_true, beq_iff_eq] at h
  rcases h with rfl | rfl | rfl | rfl <;> simp [afterName, colon, marks?]

end Look

namespace Reader

variable {q : Rules} {trees rest : List Tree} {text : Spelling} {plus : Bool} {depth : Nat}

/-- A path with a self type is spelled with the type in brackets, and what follows that type is
spelled as what stands there. -/
theorem selfTypePath_parts (h : selfTypePath q false trees = .ok (text, rest)) :
    ∃ joint inner type after more, trees = .leaf (.mark '<' joint) :: inner ∧
      q.typeText inner = .ok (type, after) ∧ text = .leaf (.mark '<' false) :: (type ++ more) ∧
        ∀ others, Look.afterName (more ++ others) = Look.afterName after := by
  obtain ⟨self, after, hself, hrest⟩ := exists_of_bind h
  obtain ⟨less, inner, _, hless, hcat, rfl⟩ := exists_of_cat hself
  obtain ⟨rfl, joint, rfl⟩ := op_single (c := '<') rfl hless
  obtain ⟨type, _, _, htype, hnil, rfl⟩ := exists_of_cat hcat
  obtain ⟨rfl, rfl⟩ := Prod.mk.inj (Except.ok.inj hnil)
  obtain ⟨asTrait, next, hasTrait, hrest⟩ := exists_of_bind hrest
  obtain ⟨close, last, hclose, hrest⟩ := exists_of_bind hrest
  obtain ⟨colons, _, -, hrest⟩ := exists_of_bind hrest
  obtain ⟨names, _, -, hrest⟩ := exists_of_bind hrest
  obtain ⟨rfl, -⟩ := Prod.mk.inj (Except.ok.inj hrest)
  obtain ⟨rfl, joint', rfl⟩ := op_single (c := '>') rfl hclose
  refine ⟨joint, inner, type, _, asTrait ++ (.leaf (.mark '>' false) :: (colons ++ names)), rfl,
    htype, by simp, fun others => ?_⟩
  rcases optional_cases hasTrait with ⟨-, hread⟩ | ⟨-, rfl, hnext⟩
  · obtain ⟨keyword, _, hkeyword, hread⟩ := exists_of_bind hread
    obtain ⟨path, _, -, hread⟩ := exists_of_bind hread
    obtain ⟨rfl, -⟩ := Prod.mk.inj (Except.ok.inj hread)
    obtain ⟨rfl, rfl⟩ := word_text hkeyword
    simp [Look.afterName, Look.colon]
  · rw [← hnext]
    simp [Look.afterName, marks?]

/-- What follows the opening bracket of a self type is spelled as the same kind of thing. -/
theorem selfTypePath_parameter (h : selfTypePath (Rules.upTo depth) false trees = .ok (text, rest))
    (more : List Tree) :
    Look.op ">" (trees.drop 1) = false ∧ Look.op ">" ((text ++ more).drop 1) = false ∧
      Look.parameter ((text ++ more).drop 1) = Look.parameter (trees.drop 1) := by
  obtain ⟨joint, inner, _, after, tail, rfl, htype, rfl, hafter⟩ := selfTypePath_parts h
  obtain ⟨depth, found, hread, rfl⟩ := typeText_type htype
  simp only [List.cons_append, List.append_assoc, List.drop_succ_cons, List.drop_zero]
  cases typeStart (Rules.alike_self depth) bound_lifetime hread with
  | apart h h' =>
    obtain ⟨-, hclose, hparameter⟩ := Look.not_of_apart h
    obtain ⟨-, hclose', hparameter'⟩ := Look.not_of_apart (h' (tail ++ more))
    exact ⟨hclose, hclose', hparameter'.trans hparameter.symm⟩
  | name n h h' =>
    rw [h, h']
    exact ⟨by simp [Name.spelling], by simp [Name.spelling], Look.parameter_name (hafter more)⟩
  | selfType h =>
    obtain ⟨_, _, _, _, _, rfl, -, htext, -⟩ := selfTypePath_parts h
    rw [htext]
    simp [Look.parameter, marks?]

/-- A type is spelled as parameters if and only if it is written like some. -/
theorem type_parameters {found : TypePhrase}
    (h : type (Rules.upTo depth) plus trees = .ok (found, rest)) (more : List Tree) :
    Look.parameters (found.text ++ more) = Look.parameters trees := by
  cases typeStart (Rules.alike_self depth) bound_lifetime h with
  | apart h h' => rw [Look.parameters_of_apart h, Look.parameters_of_apart (h' more)]
  | name n h h' => simp [h, h', Look.parameters, Look.generics_apply, Name.spelling]
  | selfType h =>
    obtain ⟨hclose, hclose', hparameter⟩ := selfTypePath_parameter h more
    obtain ⟨_, _, _, _, _, rfl, -, htext, -⟩ := selfTypePath_parts h
    simp only [Look.parameters, Look.but_apply, Look.generics_apply, Look.second, hclose, hclose',
      hparameter]
    rw [htext]
    simp [marks?]

theorem exists_of_inside {α : Type} {delimiter : Delimiter} {inner : Reader α} {value : α}
    (h : inside delimiter inner trees = .ok (value, rest)) :
    ∃ content, inner content = .ok (value, []) := by
  unfold inside at h
  split at h
  next content _ =>
    split at h
    next =>
      split at h
      next hinner =>
        obtain ⟨rfl, -⟩ := Prod.mk.inj (Except.ok.inj h)
        exact ⟨content, hinner⟩
      next => cases h
      next => cases h
    next => cases h
  next => cases h

theorem attributeInside_inner {inner : Bool} {a : Attribute}
    (h : attributeInside q inner trees = .ok (a, rest)) : a.inner = inner := by
  obtain ⟨path, _, -, h⟩ := exists_of_bind h
  obtain ⟨after, _, -, h⟩ := exists_of_bind h
  dsimp only at h
  split at h
  next =>
    obtain ⟨arguments, _, -, h⟩ := exists_of_bind h
    obtain ⟨rfl, -⟩ := Prod.mk.inj (Except.ok.inj h)
    rfl
  next =>
    rw [peek_at] at h
    split at h
    next =>
      obtain ⟨_, _, -, h⟩ := exists_of_bind h
      obtain ⟨value, _, -, h⟩ := exists_of_bind h
      obtain ⟨rfl, -⟩ := Prod.mk.inj (Except.ok.inj h)
      rfl
    next =>
      obtain ⟨rfl, -⟩ := Prod.mk.inj (Except.ok.inj h)
      rfl

theorem outerAttribute_inner {a : Attribute} (h : outerAttribute q trees = .ok (a, rest)) :
    a.inner = false := by
  obtain ⟨_, _, -, h⟩ := exists_of_bind h
  obtain ⟨content, hinside⟩ := exists_of_inside h
  exact attributeInside_inner hinside

/-- Attributes are spelled if there are any. -/
theorem outer_cases (h : outer q trees = .ok (text, rest)) :
    (text = [] ∧ rest = trees) ∨ ∃ more, text = .leaf (.mark '#' false) :: more := by
  obtain ⟨attributes, middle, hattributes, h⟩ := exists_of_bind h
  obtain ⟨rfl, rfl⟩ := Prod.mk.inj (Except.ok.inj h)
  let Outer (found : List Attribute) (middle : List Tree) : Prop :=
    (found = [] ∧ middle = trees) ∨ ∃ first more, found = first :: more ∧ first.inner = false
  have hfound : Outer attributes middle := by
    refine loop_induction Outer Outer ?_ ?_ (.inl ⟨rfl, rfl⟩) hattributes
    · intro found middle next after hfound hstep
      rw [peek_at] at hstep
      split at hstep
      next =>
        obtain ⟨a, _, hread, hstep⟩ := exists_of_bind hstep
        obtain ⟨hnext, -⟩ := Prod.mk.inj (Except.ok.inj hstep)
        obtain rfl := Sum.inl.inj hnext
        rcases hfound with ⟨rfl, -⟩ | ⟨first, more, rfl, hfirst⟩
        · exact .inr ⟨a, [], rfl, outerAttribute_inner hread⟩
        · exact .inr ⟨first, more ++ [a], rfl, hfirst⟩
      next => cases hstep
    · intro found middle last after hfound hstep
      rw [peek_at] at hstep
      split at hstep
      next =>
        obtain ⟨_, _, -, hstep⟩ := exists_of_bind hstep
        cases hstep
      next =>
        obtain ⟨hlast, rfl⟩ := Prod.mk.inj (Except.ok.inj hstep)
        obtain rfl := Sum.inr.inj hlast
        exact hfound
  rcases hfound with ⟨rfl, hrest⟩ | ⟨first, more, rfl, hfirst⟩
  · exact .inl ⟨rfl, hrest⟩
  · exact .inr ⟨_, by simp [outerSpelling, hfirst, Attribute.spelling]; rfl⟩

/-- A part after a colon starts with it, or is left out. -/
theorem afterName_afterColon {part : Reader Spelling} {others : List Tree}
    (h : afterColon part trees = .ok (text, rest)) (hothers : Look.afterName others = true) :
    Look.afterName (text ++ others) = true := by
  rcases optional_cases h with ⟨-, hread⟩ | ⟨-, rfl, -⟩
  · obtain ⟨colon, _, hcolon, hread⟩ := exists_of_bind hread
    obtain ⟨bounds, _, -, hread⟩ := exists_of_bind hread
    obtain ⟨rfl, -⟩ := Prod.mk.inj (Except.ok.inj hread)
    split
    · exact hothers
    · rw [(op_single (c := ':') rfl hcolon).1]
      exact Look.afterName_mark rfl
  · exact hothers

/-- What follows a parameter: the sign after its name, and a comma or the closing bracket. -/
theorem lifetimeParam_text (h : lifetimeParam trees = .ok (text, rest)) : ∃ name more,
    text = .leaf (.lifetime name) :: more ∧
      ∀ others, Look.afterName others = true → Look.afterName (more ++ others) = true := by
  obtain ⟨lifetime, _, hlifetime, h⟩ := exists_of_bind h
  obtain ⟨bounds, _, hbounds, h⟩ := exists_of_bind h
  obtain ⟨rfl, -⟩ := Prod.mk.inj (Except.ok.inj h)
  unfold Reader.lifetime at hlifetime
  split at hlifetime
  next name _ =>
    obtain ⟨rfl, -⟩ := Prod.mk.inj (Except.ok.inj hlifetime)
    exact ⟨name, bounds, rfl, fun _ => afterName_afterColon hbounds⟩
  next => cases hlifetime

theorem typeParam_text (h : typeParam q trees = .ok (text, rest)) : ∃ (n : Name) (more : Spelling),
    text = n.spelling ++ more ∧ (n.raw = true ∨ n.text ∉ keywords) ∧
      ∀ others, Look.afterName others = true → Look.afterName (more ++ others) = true := by
  obtain ⟨_, _, hident, h⟩ := exists_of_bind h
  obtain ⟨n, _, hname, hn⟩ := exists_of_bind hident
  obtain ⟨rfl, rfl⟩ := Prod.mk.inj (Except.ok.inj hn)
  obtain ⟨bounds, _, hbounds, h⟩ := exists_of_bind h
  obtain ⟨default, _, hdefault, h⟩ := exists_of_bind h
  obtain ⟨rfl, -⟩ := Prod.mk.inj (Except.ok.inj h)
  refine ⟨n, bounds ++ default, by simp, (name_word hname).2, fun others hothers => ?_⟩
  rw [List.append_assoc]
  refine afterName_afterColon hbounds ?_
  rcases optional_cases hdefault with ⟨-, hread⟩ | ⟨-, rfl, -⟩
  · obtain ⟨sign, _, more, hsign, -, rfl⟩ := exists_of_cat hread
    rw [(op_single (c := '=') rfl hsign).1]
    exact Look.afterName_mark rfl
  · exact hothers

/-- A parameter is a lifetime, a type, a constant or a placeholder, after its attributes. -/
theorem genericParam_cases {isLifetime : Bool}
    (h : genericParam q true trees = .ok ((isLifetime, text), rest)) :
    ∃ attributes body middle, outer q trees = .ok (attributes, middle) ∧ text = attributes ++ body ∧
      ((isLifetime = true ∧ lifetimeParam middle = .ok (body, rest)) ∨
        typeParam q middle = .ok (body, rest) ∨ constParam q middle = .ok (body, rest) ∨
          (isLifetime = false ∧ Look.word "_" middle = true)) := by
  obtain ⟨attributes, middle, hattributes, hread⟩ := exists_of_bind h
  refine ⟨attributes, ?_⟩
  cases hlifetime : Look.lifetime middle
  case true =>
    rw [peek_true hlifetime] at hread
    obtain ⟨body, _, hbody, hread⟩ := exists_of_bind hread
    obtain ⟨hfound, rfl⟩ := Prod.mk.inj (Except.ok.inj hread)
    obtain ⟨rfl, rfl⟩ := Prod.mk.inj hfound
    exact ⟨body, middle, hattributes, rfl, .inl ⟨rfl, hbody⟩⟩
  rw [peek_false hlifetime] at hread
  cases hname : Look.name middle
  case true =>
    rw [peek_true hname] at hread
    obtain ⟨body, _, hbody, hread⟩ := exists_of_bind hread
    obtain ⟨hfound, rfl⟩ := Prod.mk.inj (Except.ok.inj hread)
    obtain ⟨rfl, rfl⟩ := Prod.mk.inj hfound
    exact ⟨body, middle, hattributes, rfl, .inr (.inl hbody)⟩
  rw [peek_false hname] at hread
  cases hconst : Look.word "const" middle
  case true =>
    rw [peek_true hconst] at hread
    obtain ⟨body, _, hbody, hread⟩ := exists_of_bind hread
    obtain ⟨hfound, rfl⟩ := Prod.mk.inj (Except.ok.inj hread)
    obtain ⟨rfl, rfl⟩ := Prod.mk.inj hfound
    exact ⟨body, middle, hattributes, rfl, .inr (.inr (.inl hbody))⟩
  rw [peek_false hconst, peek_at] at hread
  simp only [Bool.true_and] at hread
  split at hread
  next hhole =>
    obtain ⟨body, _, -, hread⟩ := exists_of_bind hread
    obtain ⟨hfound, rfl⟩ := Prod.mk.inj (Except.ok.inj hread)
    obtain ⟨rfl, rfl⟩ := Prod.mk.inj hfound
    exact ⟨body, middle, hattributes, rfl, .inr (.inr (.inr ⟨rfl, hhole⟩))⟩
  next => cases hread

/-- A parameter is spelled as one, but for a placeholder without attributes. -/
theorem genericParam_parameter {isLifetime : Bool} {others : List Tree}
    (h : genericParam q true trees = .ok ((isLifetime, text), rest))
    (hothers : Look.afterName others = true) :
    (Look.op ">" (text ++ others) = false ∧ Look.parameter (text ++ others) = true) ∨
      (isLifetime = false ∧ Look.parameter trees = false) := by
  obtain ⟨attributes, body, middle, hattributes, rfl, hbody⟩ := genericParam_cases h
  rcases outer_cases hattributes with ⟨rfl, rfl⟩ | ⟨more, rfl⟩
  case inr => exact .inl (by simp [Look.parameter, marks?])
  rcases hbody with ⟨-, hbody⟩ | hbody | hbody | ⟨hkind, hhole⟩
  · obtain ⟨name, more, rfl, hmore⟩ := lifetimeParam_text hbody
    exact .inl (by simp [Look.parameter, hmore others hothers])
  · obtain ⟨n, more, rfl, hname, hmore⟩ := typeParam_text hbody
    exact .inl (by simp [Look.parameter, Name.spelling, hname, hmore others hothers])
  · obtain ⟨keyword, _, more, hkeyword, -, rfl⟩ := exists_of_cat hbody
    exact .inl (by simp [Look.parameter, (word_text hkeyword).1])
  · obtain ⟨after, rfl⟩ := Look.exists_of_word hhole
    exact .inr ⟨hkind, by simp [Look.parameter, keywords]⟩

/-- One part of a list in angle brackets. -/
def angledStep (part : Reader (Bool × Spelling)) (parts : List AnglePart) :
    Reader (List AnglePart ⊕ List AnglePart) := do
  if ← peek (Look.op ">") then return .inr parts
  let (lifetime, text) ← part
  if ← peek (Look.op ">") then return .inr (parts ++ [⟨lifetime, text, false⟩])
  let _ ← op ","
  return .inl (parts ++ [⟨lifetime, text, true⟩])

theorem angledStep_cases {part : Reader (Bool × Spelling)} {before : List AnglePart}
    {out : List AnglePart ⊕ List AnglePart} (h : angledStep part before trees = .ok (out, rest)) :
    (Look.op ">" trees = true ∧ out = .inr before ∧ rest = trees) ∨
      ∃ p after, Look.op ">" trees = false ∧ part trees = .ok ((p.lifetime, p.text), after) ∧
        (out = .inl (before ++ [p]) ∨ out = .inr (before ++ [p])) := by
  unfold angledStep at h
  cases hclose : Look.op ">" trees
  case true =>
    rw [peek_true hclose] at h
    obtain ⟨rfl, rfl⟩ := Prod.mk.inj (Except.ok.inj h)
    exact .inl ⟨rfl, rfl, rfl⟩
  rw [peek_false hclose] at h
  obtain ⟨⟨lifetime, text⟩, after, hpart, h⟩ := exists_of_bind h
  dsimp only at h
  rw [peek_at] at h
  split at h
  · obtain ⟨rfl, -⟩ := Prod.mk.inj (Except.ok.inj h)
    exact .inr ⟨_, after, rfl, hpart, .inr rfl⟩
  · obtain ⟨_, _, -, h⟩ := exists_of_bind h
    obtain ⟨rfl, -⟩ := Prod.mk.inj (Except.ok.inj h)
    exact .inr ⟨_, after, rfl, hpart, .inl rfl⟩

/-- What is read between angle brackets: nothing, or parts of which the first one follows the
opening bracket. -/
theorem angled_cases {part : Reader (Bool × Spelling)} {parts : List AnglePart}
    (h : angled part trees = .ok (parts, rest)) :
    (parts = [] ∧ Look.emptyBrackets trees = true ∧ rest = trees.drop 2) ∨
      ∃ first others after, parts = first :: others ∧ Look.op ">" (trees.drop 1) = false ∧
        part (trees.drop 1) = .ok ((first.lifetime, first.text), after) ∧
        ∀ p ∈ parts, ∃ trees after, part trees = .ok ((p.lifetime, p.text), after) := by
  obtain ⟨_, inner, hless, hread⟩ := exists_of_bind h
  obtain ⟨found, last, hloop, hread⟩ := exists_of_bind hread
  obtain ⟨_, _, hgreater, hread⟩ := exists_of_bind hread
  obtain ⟨rfl, rfl⟩ := Prod.mk.inj (Except.ok.inj hread)
  obtain ⟨-, joint, rfl⟩ := op_single (c := '<') rfl hless
  let Parts (parts : List AnglePart) : Prop :=
    ∃ first others after, parts = first :: others ∧ Look.op ">" inner = false ∧
      part inner = .ok ((first.lifetime, first.text), after) ∧
      ∀ p ∈ parts, ∃ trees after, part trees = .ok ((p.lifetime, p.text), after)
  have hnext {before : List AnglePart} {p : AnglePart} {middle after : List Tree}
      (hbefore : (before = [] ∧ middle = inner) ∨ Parts before)
      (hclose : Look.op ">" middle = false)
      (hpart : part middle = .ok ((p.lifetime, p.text), after)) : Parts (before ++ [p]) := by
    rcases hbefore with ⟨rfl, rfl⟩ | ⟨first, others, next, rfl, hinner, hfirst, hall⟩
    · exact ⟨p, [], after, rfl, hclose, hpart, by simpa using ⟨_, _, hpart⟩⟩
    · refine ⟨first, others ++ [p], next, rfl, hinner, hfirst, fun other hother => ?_⟩
      rcases List.mem_append.mp hother with hother | hother
      · exact hall other hother
      · obtain rfl := List.mem_singleton.mp hother
        exact ⟨_, _, hpart⟩
  have hparts : (found = [] ∧ last = inner ∧ Look.op ">" inner = true) ∨ Parts found := by
    refine loop_induction
      (fun before middle => (before = [] ∧ middle = inner) ∨ Parts before)
      (fun parts last => (parts = [] ∧ last = inner ∧ Look.op ">" inner = true) ∨ Parts parts)
      ?_ ?_ (.inl ⟨rfl, rfl⟩) (show loop (angledStep part) [] inner = _ from hloop)
    · intro before middle next after hbefore hstep
      obtain ⟨-, hout, -⟩ | ⟨p, _, hclose, hpart, hout | hout⟩ := angledStep_cases hstep
      · nomatch hout
      · obtain rfl := Sum.inl.inj hout
        exact .inr (hnext hbefore hclose hpart)
      · nomatch hout
    · intro before middle result after hbefore hstep
      obtain ⟨hclose, hout, rfl⟩ | ⟨p, _, hclose, hpart, hout | hout⟩ := angledStep_cases hstep
      · obtain rfl := Sum.inr.inj hout
        rcases hbefore with ⟨rfl, rfl⟩ | hbefore
        · exact .inl ⟨rfl, rfl, hclose⟩
        · exact .inr hbefore
      · nomatch hout
      · obtain rfl := Sum.inr.inj hout
        exact .inr (hnext hbefore hclose hpart)
  rcases hparts with ⟨rfl, rfl, hclose⟩ | hparts
  · obtain ⟨-, joint', rfl⟩ := op_single (c := '>') rfl hgreater
    exact .inl ⟨rfl, by simp [Look.emptyBrackets, marks?], rfl⟩
  · exact .inr hparts

theorem exists_of_listed (p : AnglePart) (others : List AnglePart) : ∃ more,
    AnglePart.listed (p :: others) = p.text ++ more ∧
      ∀ tail, Look.afterName (more ++ (.leaf (.mark '>' false) :: tail)) = true := by
  cases others with
  | nil =>
    refine ⟨_, rfl, fun tail => ?_⟩
    split <;> exact Look.afterName_mark rfl
  | cons next others =>
    refine ⟨Tree.operator [','] ++ AnglePart.listed (next :: others), ?_, fun tail => ?_⟩
    · simp [AnglePart.listed]
    · exact Look.afterName_mark rfl

/-- The part that is spelled first is a lifetime if there is one. -/
theorem exists_of_spelling (first : AnglePart) (others : List AnglePart) :
    ∃ p more, p ∈ first :: others ∧ (p.lifetime = true ∨ p = first) ∧
      AnglePart.spelling (first :: others) = p.text ++ more ∧
        ∀ tail, Look.afterName (more ++ (.leaf (.mark '>' false) :: tail)) = true := by
  have hspelling : ∃ p more, AnglePart.spelling (first :: others) = AnglePart.listed (p :: more) ∧
      p ∈ first :: others ∧ (p.lifetime = true ∨ p = first) := by
    cases hlifetimes : (first :: others).filter (·.lifetime) with
    | nil =>
      have hnone := List.filter_eq_nil_iff.mp hlifetimes first List.mem_cons_self
      refine ⟨first, others.filter (!·.lifetime), ?_, List.mem_cons_self, .inr rfl⟩
      simp [AnglePart.spelling, hlifetimes, hnone]
    | cons p lifetimes =>
      have hp : p ∈ (first :: others).filter (·.lifetime) := by simp [hlifetimes]
      obtain ⟨hmem, hlifetime⟩ := List.mem_filter.mp hp
      exact ⟨p, _, by rw [AnglePart.spelling, hlifetimes]; rfl, hmem, .inl hlifetime⟩
  obtain ⟨p, rest, hspelling, hp, hkind⟩ := hspelling
  obtain ⟨more, hlisted, hmore⟩ := exists_of_listed p rest
  exact ⟨p, more, hp, hkind, hspelling.trans hlisted, hmore⟩

/-- Parameters are spelled as parameters, and empty brackets not at all. -/
theorem generics_cases {g : Generics} (hlook : Look.generics trees = true)
    (h : generics q trees = .ok (g, rest)) :
    (Look.emptyBrackets trees = true ∧ g = ⟨[], true, false⟩ ∧ rest = trees.drop 2) ∨
      (Look.parameters trees = true ∧ g.some = true ∧
        ∀ more, Look.parameters (g.text ++ more) = true) := by
  rw [Look.generics_apply, Bool.and_eq_true] at hlook
  obtain ⟨hless, hparameter⟩ := hlook
  unfold generics at h
  rw [peek_at, hless] at h
  obtain ⟨parts, _, hparts, h⟩ := exists_of_bind h
  obtain ⟨rfl, hempty, rfl⟩ | ⟨first, others, after, rfl, hclose, hfirst, hall⟩ :=
    angled_cases hparts
  · obtain ⟨rfl, rfl⟩ := Prod.mk.inj (Except.ok.inj h)
    exact .inl ⟨hempty, rfl, rfl⟩
  · obtain ⟨rfl, -⟩ := Prod.mk.inj (Except.ok.inj h)
    have hparameters : Look.parameters trees = true := by
      simp only [Look.parameters, Look.but_apply, Look.generics_apply, Look.second, hless,
        hparameter, hclose, Bool.not_false, Bool.and_true]
    refine .inr ⟨hparameters, rfl, fun more => ?_⟩
    obtain ⟨p, tail, hp, hkind, hspelling, htail⟩ := exists_of_spelling first others
    -- A placeholder stands first only if one is read there.
    have hstart : Look.op ">" (p.text ++ (tail ++ (.leaf (.mark '>' false) :: more))) = false ∧
        Look.parameter (p.text ++ (tail ++ (.leaf (.mark '>' false) :: more))) = true := by
      rcases hkind with hlifetime | rfl
      · obtain ⟨_, _, hread⟩ := hall p hp
        rcases genericParam_parameter hread (htail more) with hstart | ⟨hkind, -⟩
        · exact hstart
        · rw [hlifetime] at hkind
          cases hkind
      · rcases genericParam_parameter hfirst (htail more) with hstart | ⟨-, hnone⟩
        · exact hstart
        · rw [hparameter] at hnone
          cases hnone
    rw [hspelling]
    simpa [inAngles, Look.parameters, Look.generics_apply, Look.second, marks?, and_comm]
      using hstart

/-- The look tells what the reader finds. -/
theorem generics_some {g : Generics} (hlook : Look.generics trees = true)
    (h : generics q trees = .ok (g, rest)) : g.some = Look.parameters trees := by
  obtain ⟨hempty, rfl, -⟩ | ⟨hparameters, hsome, -⟩ := generics_cases hlook h
  · rw [Look.parameters_of_emptyBrackets hempty]
  · rw [hsome, hparameters]

end Reader

/-- What follows the keyword of an implementation. -/
def afterImpl (trees : List Tree) : List Tree :=
  Look.dropWord "impl" (Look.dropWord "unsafe" (Look.dropWord "default" trees))

namespace Reader

variable {q : Rules} {trees rest : List Tree} {text : Spelling} {depth : Nat}

theorem optWord_cases {name : String} (h : optWord name trees = .ok (text, rest)) :
    rest = Look.dropWord name trees ∧ (text = [.leaf (.word false name)] ∨ text = []) := by
  rcases optional_cases h with ⟨hlook, hword⟩ | ⟨hlook, rfl, rfl⟩
  · obtain ⟨rfl, rfl⟩ := word_text hword
    exact ⟨by simp [Look.dropWord], .inl rfl⟩
  · exact ⟨by simp [Look.dropWord, hlook], .inr rfl⟩

theorem afterImpl_head
    (h : cat [optWord "default", optWord "unsafe", word "impl"] trees = .ok (text, rest)) :
    afterImpl trees = rest ∧ ∀ more, afterImpl (text ++ more) = more := by
  obtain ⟨default, _, _, hdefault, hmore, rfl⟩ := exists_of_cat h
  obtain ⟨safety, _, _, hsafety, hlast, rfl⟩ := exists_of_cat hmore
  obtain ⟨keyword, _, _, hkeyword, hend, rfl⟩ := exists_of_cat hlast
  obtain ⟨rfl, rfl⟩ := Prod.mk.inj (Except.ok.inj hend)
  obtain ⟨rfl, hdefaultText⟩ := optWord_cases hdefault
  obtain ⟨rfl, hsafetyText⟩ := optWord_cases hsafety
  obtain ⟨rfl, himpl⟩ := word_text hkeyword
  refine ⟨by rw [afterImpl, himpl]; simp [Look.dropWord], fun more => ?_⟩
  clear hdefault hsafety hmore hlast h
  rcases hdefaultText with rfl | rfl <;> rcases hsafetyText with rfl | rfl <;>
    simp [afterImpl, Look.dropWord]

/-- What an implementation is made of after its generic parameters. -/
def implementationAfter (r : Rules) (head : Spelling) (generics : Generics) :
    Reader (Spelling × Bool) := do
  let isConst := Look.either (Look.word "const")
    (Look.both (Look.op "?") (Look.second (Look.word "const")))
  let constant ← optional isConst (cat [optOp "?", word "const"])
  let negative ← optional (Look.but (Look.op "!") (Look.second (Look.group .brace))) (op "!")
  let first ← r.type true
  let forTrait ← peek (Look.word "for")
  if !forTrait && !negative.isEmpty then refuse "inherent impls cannot be negative"
  let target ← optional (Look.word "for") (cat [word "for", r.typeText])
  let rest ← cat [whereText r, body r (many Look.nothing (implMember r))]
  let isPath := match first.form with
    | .path _ => true
    | _ => false
  return (head ++ generics.text ++ negative ++ first.text ++ target ++ rest,
    constant.isEmpty && (!forTrait || isPath))

theorem implementation_eq (r : Rules) : implementation r = (do
    let head ← cat [optWord "default", optWord "unsafe", word "impl"]
    let generics ← if ← peek Look.generics then generics r else pure ⟨[], false, false⟩
    implementationAfter r head generics) := rfl

/-- An implementation that is not kept as it was written is spelled by its parts. -/
theorem implementationAfter_cases {head : Spelling} {g : Generics}
    (h : implementationAfter q head g trees = .ok ((text, true), rest)) :
    ∃ negative start found after more,
      optional (Look.but (Look.op "!") (Look.second (Look.group .brace))) (op "!") trees =
        .ok (negative, start) ∧
      q.type true start = .ok (found, after) ∧
      text = head ++ (g.text ++ (negative ++ (found.text ++ more))) := by
  obtain ⟨constant, middle, hconstant, h⟩ := exists_of_bind h
  obtain ⟨negative, start, hnegative, h⟩ := exists_of_bind h
  obtain ⟨found, after, hfound, h⟩ := exists_of_bind h
  rw [peek_at] at h
  dsimp only at h
  split at h
  next =>
    obtain ⟨_, _, hrefuse, -⟩ := exists_of_bind h
    cases hrefuse
  next =>
    obtain ⟨target, _, -, h⟩ := exists_of_bind h
    obtain ⟨last, _, -, h⟩ := exists_of_bind h
    obtain ⟨hpair, rfl⟩ := Prod.mk.inj (Except.ok.inj h)
    obtain ⟨rfl, hregular⟩ := Prod.mk.inj hpair
    rcases optional_cases hconstant with ⟨-, hconstant⟩ | ⟨-, -, rfl⟩
    · obtain ⟨mark, _, _, -, hword, rfl⟩ := exists_of_cat hconstant
      obtain ⟨keyword, _, _, hkeyword, -, rfl⟩ := exists_of_cat hword
      simp [(word_text hkeyword).1] at hregular
    · exact ⟨negative, start, found, after, target ++ last, hnegative, hfound, by simp⟩

/-- The type that follows the generic parameters of an implementation is spelled as parameters if
and only if it is written like some. -/
theorem implementationAfter_parameters {head : Spelling} {g : Generics}
    (h : implementationAfter (Rules.upTo depth) head g trees = .ok ((text, true), rest)) :
    ∃ more, text = head ++ (g.text ++ more) ∧ Look.parameters more = Look.parameters trees := by
  obtain ⟨negative, start, found, _, more, hnegative, hfound, rfl⟩ := implementationAfter_cases h
  refine ⟨_, rfl, ?_⟩
  rcases optional_cases hnegative with ⟨-, hbang⟩ | ⟨-, rfl, rfl⟩
  · obtain ⟨rfl, joint, rfl⟩ := op_single (c := '!') rfl hbang
    simp [Look.parameters, Look.generics_apply, marks?]
  · cases depth with
    | zero => cases hfound
    | succ depth => exact type_parameters hfound more

/-- The parameters of an implementation that is not kept as it was written. -/
theorem implementation_parameters (h : implementation (Rules.upTo depth) trees =
      .ok ((text, true), rest)) :
    Look.parameters (afterImpl text) = Look.parameters (afterImpl trees) ↔
      ¬(Look.emptyBrackets (afterImpl trees) = true ∧
        Look.parameters ((afterImpl trees).drop 2) = true) := by
  rw [implementation_eq] at h
  obtain ⟨head, after, hhead, h⟩ := exists_of_bind h
  obtain ⟨rfl, hspelled⟩ := afterImpl_head hhead
  cases hlook : Look.generics (afterImpl trees)
  · rw [peek_false hlook] at h
    obtain ⟨more, rfl, hmore⟩ := implementationAfter_parameters h
    have hempty : Look.emptyBrackets (afterImpl trees) = false := by
      by_contra hempty
      rw [Look.generics_of_emptyBrackets (Bool.not_eq_false _ ▸ hempty)] at hlook
      cases hlook
    rw [hspelled, List.nil_append, hmore, hempty]
    simp
  · rw [peek_true hlook] at h
    obtain ⟨g, middle, hgenerics, h⟩ := exists_of_bind h
    obtain ⟨more, rfl, hmore⟩ := implementationAfter_parameters h
    rw [hspelled]
    obtain ⟨hempty, rfl, rfl⟩ | ⟨hsome, -, hg⟩ := generics_cases hlook hgenerics
    · rw [List.nil_append, hmore, hempty, Look.parameters_of_emptyBrackets hempty]
      simp
    · have hempty : Look.emptyBrackets (afterImpl trees) = false := by
        by_contra hempty
        rw [Look.parameters_of_emptyBrackets (Bool.not_eq_false _ ▸ hempty)] at hsome
        cases hsome
      rw [hg, hsome, hempty]
      simp

end Reader

end Grammar

open Grammar

end ComponentRegistry
