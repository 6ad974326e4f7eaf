import ComponentRegistry.Proofs.Grammar.AlikeItems

/-! How paths start, as they are written and as they are spelled: with the same name, and with the
same kind of thing after it. No more than that decides whether generic parameters or a type in angle
brackets stand somewhere. -/

namespace ComponentRegistry.Grammar

open Reader

namespace Look

variable {tree : Tree} {trees more : List Tree}

/-- What follows the name of a parameter. -/
def afterName : Look := any [op ">", op ",", colon, op "="]

/-- The start of a parameter, or the end of none. -/
def parameter : Look :=
  either (any [op ">", op "#", word "const"]) (both (either lifetime name) (second afterName))

theorem generics_apply : generics trees = (op "<" trees && parameter (trees.drop 1)) := by
  simp only [generics, parameter, both_apply, either_apply, any_apply, second, third, List.any_cons,
    List.any_nil, Bool.or_false, List.drop_drop, afterName]

/-- Neither angle brackets nor a parameter start here. -/
def apart : Look := not (either (op "<") parameter)

/-- What follows a name in a longer path or bound. -/
def goingOn : Look := any [op "<", op "::", op "!", op "+"]

theorem afterName_of_goingOn (h : goingOn trees = true) : afterName trees = false := by
  rcases trees with _ | ⟨⟨_ | _ | ⟨c, joint⟩ | _⟩ | _, rest⟩
  case cons.leaf.mark =>
    simp only [goingOn, afterName, colon] at h ⊢
    by_cases hc : c = '<' ∨ c = '!' ∨ c = '+'
    · rcases hc with rfl | rfl | rfl <;> simp [marks?]
    · have hcolon : op "::" (.leaf (.mark c joint) :: rest) = true := by
        simp only [not_or] at hc
        simpa [marks?, Ne.symm hc.1, Ne.symm hc.2.1, Ne.symm hc.2.2] using h
      have hc : c = ':' := by
        by_contra hne
        cases joint <;> simp [marks?, Ne.symm hne] at hcolon
      subst hc
      simp [marks?] at hcolon ⊢
      simp [hcolon]
  all_goals simp [goingOn] at h

/-- The trees that start neither brackets nor a parameter, whatever follows them. -/
def apartTree : Tree → Bool
  | .leaf (.word raw text) => !raw && keywords.contains text && text != "const"
  | .leaf (.mark c _) => !(['<', '>', '#'].contains c)
  | .leaf (.lifetime _) => false
  | _ => true

theorem apart_cons (h : apartTree tree = true) : apart (tree :: trees) = true := by
  obtain ⟨⟨raw, text⟩ | _ | ⟨c, joint⟩ | _⟩ | _ := tree
  case leaf.word =>
    simp only [apartTree, Bool.and_eq_true, Bool.not_eq_true', bne_iff_ne] at h
    obtain ⟨⟨rfl, hkeyword⟩, hconst⟩ := h
    simp [apart, parameter, hconst, -List.contains_eq_mem, hkeyword]
  case leaf.mark =>
    simp only [apartTree, List.contains_cons, List.contains_nil, Bool.or_false, Bool.not_eq_true',
      Bool.or_eq_false_iff, beq_eq_false_iff_ne] at h
    simp [apart, parameter, marks?, Ne.symm h.1, Ne.symm h.2.1, Ne.symm h.2.2]
  case leaf.lifetime => cases h
  all_goals simp [apart, parameter]

theorem apart_name {n : Name} (hconst : word "const" (n.spelling ++ trees) = false)
    (h : goingOn more = true) : apart (n.spelling ++ more) = true := by
  have hafter := afterName_of_goingOn h
  obtain ⟨raw, text⟩ := n
  cases raw <;> simp_all [apart, parameter, Name.spelling]

theorem apart_lifetime {name : String} (h : goingOn more = true) :
    apart (.leaf (.lifetime name) :: more) = true := by
  have hafter := afterName_of_goingOn h
  simp_all [apart, parameter]

theorem exists_of_word {name : String} (h : word name trees = true) :
    ∃ rest, trees = .leaf (.word false name) :: rest := by
  unfold word at h
  split at h
  next found rest =>
    obtain rfl := eq_of_beq h
    exact ⟨rest, rfl⟩
  next => cases h

theorem exists_of_group {delimiter : Delimiter} (h : group delimiter trees = true) :
    ∃ inner rest, trees = .group delimiter inner :: rest := by
  unfold group at h
  split at h
  next found inner rest =>
    obtain rfl := eq_of_beq h
    exact ⟨inner, rest, rfl⟩
  next => cases h

theorem exists_of_lifetime (h : lifetime trees = true) :
    ∃ name rest, trees = .leaf (.lifetime name) :: rest := by
  unfold lifetime at h
  split at h
  next name rest => exact ⟨name, rest, rfl⟩
  next => cases h

theorem exists_of_words {names : List String} (h : words names trees = true) :
    ∃ name ∈ names, ∃ rest, trees = .leaf (.word false name) :: rest := by
  simp only [words_apply, List.any_eq_true, List.mem_map] at h
  obtain ⟨_, ⟨name, hname, rfl⟩, hword⟩ := h
  exact ⟨name, hname, exists_of_word hword⟩

/-- An operator starts with its first mark. -/
theorem exists_of_op {marks : String} {c : Char} (hmarks : marks.toList.head? = some c)
    (h : op marks trees = true) : ∃ joint rest, trees = .leaf (.mark c joint) :: rest := by
  have hne : marks ≠ "" := by
    rintro rfl
    cases hmarks
  rcases trees with _ | ⟨⟨_ | _ | ⟨d, joint⟩ | _⟩ | _, rest⟩
  case cons.leaf.mark =>
    refine ⟨joint, rest, ?_⟩
    cases hchars : marks.toList with
    | nil => simp [hchars] at hmarks
    | cons e es =>
      obtain rfl : e = c := by simpa [hchars] using hmarks
      by_cases hd : e = d
      · rw [hd]
      · cases es <;> cases joint <;> simp [hchars, marks?, hd] at h
  all_goals simp [hne] at h

/-- No operator and no constant starts where the first name of a path does. -/
theorem not_of_pathStart (h : either name (words ["super", "self", "Self", "crate"]) trees = true) :
    op "<" trees = false ∧ op "::" trees = false ∧ word "const" trees = false := by
  rcases trees with _ | ⟨⟨⟨raw, text⟩ | _ | _ | _⟩ | _, rest⟩
  case cons.leaf.word =>
    refine ⟨by simp, by simp, ?_⟩
    by_contra hconst
    obtain ⟨rfl, rfl⟩ : raw = false ∧ text = "const" := by simpa using hconst
    exact absurd h (by simp [keywords])
  all_goals simp at h

theorem goingOn_operator (marks : List Char) (h : marks ∈ [['<'], [':', ':'], ['!'], ['+']])
    (more : List Tree) : goingOn (Tree.operator marks ++ more) = true := by
  simp only [List.mem_cons, List.not_mem_nil, or_false] at h
  rcases h with rfl | rfl | rfl | rfl <;> simp [goingOn, marks?]

end Look

namespace Reader

variable {α : Type} {r : Rules} {trees rest : List Tree} {text : Spelling} {look : Look}
  {x y : Reader α}

theorem peek_at (f : Bool → Reader α) : (peek look >>= f) trees = f (look trees) trees := by
  rw [bind_apply, peek_apply]

theorem peek_true (h : look trees = true) :
    (peek look >>= fun c => if c = true then x else y) trees = x trees := by
  rw [bind_apply, peek_apply]
  simp [h]

theorem peek_false (h : look trees = false) :
    (peek look >>= fun c => if c = true then x else y) trees = y trees := by
  rw [bind_apply, peek_apply]
  simp [h]

theorem exists_of_cat {part : Reader Spelling} {parts : List (Reader Spelling)}
    (h : cat (part :: parts) trees = .ok (text, rest)) : ∃ first middle more,
      part trees = .ok (first, middle) ∧ cat parts middle = .ok (more, rest) ∧
        text = first ++ more := by
  obtain ⟨first, middle, hfirst, h⟩ := exists_of_bind h
  obtain ⟨more, after, hmore, h⟩ := exists_of_bind h
  obtain ⟨rfl, rfl⟩ := Prod.mk.inj (Except.ok.inj h)
  exact ⟨first, middle, more, hfirst, hmore, rfl⟩

theorem op_text {marks : String} (h : op marks trees = .ok (text, rest)) :
    text = Tree.operator marks.toList ∧ Look.op marks trees = true := by
  unfold op at h
  split at h
  next hmarks =>
    obtain ⟨rfl, rfl⟩ := Prod.mk.inj (Except.ok.inj h)
    exact ⟨rfl, by simp [Look.op, hmarks]⟩
  next => cases h

theorem optional_cases {part : Reader Spelling} (h : optional look part trees = .ok (text, rest)) :
    (look trees = true ∧ part trees = .ok (text, rest)) ∨
      (look trees = false ∧ text = [] ∧ rest = trees) := by
  cases hlook : look trees
  · rw [Reader.optional, peek_false hlook] at h
    obtain ⟨rfl, rfl⟩ := Prod.mk.inj (Except.ok.inj h)
    exact .inr ⟨rfl, rfl, rfl⟩
  · rw [Reader.optional, peek_true hlook] at h
    exact .inl ⟨rfl, h⟩

theorem word_text {name : String} (h : word name trees = .ok (text, rest)) :
    text = [.leaf (.word false name)] ∧ trees = .leaf (.word false name) :: rest := by
  unfold word at h
  split at h
  next =>
    split at h
    next hname =>
      obtain ⟨rfl, rfl⟩ := Prod.mk.inj (Except.ok.inj h)
      exact ⟨rfl, by rw [hname]⟩
    next => cases h
  next => cases h

theorem op_single {marks : String} {c : Char} (hmarks : marks.toList = [c])
    (h : op marks trees = .ok (text, rest)) :
    text = [.leaf (.mark c false)] ∧ ∃ joint, trees = .leaf (.mark c joint) :: rest := by
  unfold op at h
  rw [hmarks] at h
  split at h
  next hrest =>
    obtain ⟨rfl, rfl⟩ := Prod.mk.inj (Except.ok.inj h)
    refine ⟨rfl, ?_⟩
    unfold marks? at hrest
    split at hrest <;> simp_all
  next => cases h

/-- A name of a path goes on with arguments, or ends. -/
theorem segmentOf_cases {n : Name} {s : Segment} (h : segmentOf r false n trees = .ok (s, rest)) :
    s.name = n ∧ ((s.arguments = [] ∧ rest = trees) ∨
      Look.goingOn trees = true ∧ ∀ more, Look.goingOn (s.arguments ++ more) = true) := by
  unfold segmentOf at h
  obtain ⟨direct, _, hdirect, h⟩ := exists_of_bind h
  obtain ⟨rfl, rfl⟩ := Prod.mk.inj (Except.ok.inj hdirect)
  obtain ⟨turbo, _, hturbo, h⟩ := exists_of_bind h
  obtain ⟨rfl, rfl⟩ := Prod.mk.inj (Except.ok.inj hturbo)
  split at h
  next hlook =>
    obtain ⟨colons, middle, hcolons, h⟩ := exists_of_bind h
    obtain ⟨parts, after, hparts, h⟩ := exists_of_bind h
    obtain ⟨rfl, rfl⟩ := Prod.mk.inj (Except.ok.inj h)
    refine ⟨rfl, .inr ⟨?_, fun more => ?_⟩⟩
    · simp only [Bool.not_false, Bool.true_and, Bool.or_eq_true, Look.but_apply, Look.both_apply,
        Bool.and_eq_true] at hlook
      rcases hlook with ⟨hless, -⟩ | ⟨hcolon, -⟩ <;> simp [Look.goingOn, *]
    · cases hlook : Look.op "::" trees
      · rw [optOp, Reader.optional, peek_false hlook] at hcolons
        obtain ⟨rfl, rfl⟩ := Prod.mk.inj (Except.ok.inj hcolons)
        exact Look.goingOn_operator ['<'] (by decide) _
      · rw [optOp, Reader.optional, peek_true hlook] at hcolons
        rw [(op_text hcolons).1, List.append_assoc]
        exact Look.goingOn_operator [':', ':'] (by decide) _
  next =>
    obtain ⟨rfl, rfl⟩ := Prod.mk.inj (Except.ok.inj h)
    exact ⟨rfl, .inl ⟨rfl, rfl⟩⟩

/-- A segment starts with its name. -/
theorem segment_cases {s : Segment} (h : segment r false trees = .ok (s, rest)) :
    ∃ after, trees = s.name.spelling ++ after ∧ ((s.arguments = [] ∧ rest = after) ∨
      Look.goingOn after = true ∧ ∀ more, Look.goingOn (s.arguments ++ more) = true) := by
  rw [segment_eq] at h
  dsimp only at h
  cases hpath : Look.words ["super", "self", "crate", "try"] trees
  · rw [peek_false hpath] at h
    have hof : ∃ n middle, trees = n.spelling ++ middle ∧
        segmentOf r false n middle = .ok (s, rest) := by
      cases hself : Look.word "Self" trees
      · rw [peek_false hself] at h
        obtain ⟨n, middle, hname, h⟩ := exists_of_bind h
        exact ⟨n, middle, (name_word hname).1, h⟩
      · rw [peek_true hself] at h
        obtain ⟨n, middle, hname, h⟩ := exists_of_bind h
        exact ⟨n, middle, anyName_word hname, h⟩
    obtain ⟨n, middle, rfl, hof⟩ := hof
    obtain ⟨rfl, hcases⟩ := segmentOf_cases hof
    exact ⟨middle, rfl, hcases⟩
  · rw [peek_true hpath] at h
    obtain ⟨n, middle, hname, h⟩ := exists_of_bind h
    obtain ⟨rfl, rfl⟩ := Prod.mk.inj (Except.ok.inj h)
    exact ⟨middle, anyName_word hname, .inl ⟨rfl, rfl⟩⟩

theorem pathStep_cases {before : List Segment} {out : List Segment ⊕ List Segment}
    (h : pathStep r false before trees = .ok (out, rest)) : ∃ s middle,
      segment r false trees = .ok (s, middle) ∧
        ((goesOn middle = true ∧ out = .inl (before ++ [s])) ∨
          (out = .inr (before ++ [s]) ∧ rest = middle)) := by
  obtain ⟨s, middle, hsegment, h⟩ := exists_of_bind h
  refine ⟨s, middle, hsegment, ?_⟩
  cases hmore : goesOn middle
  · rw [peek_false hmore] at h
    obtain ⟨rfl, rfl⟩ := Prod.mk.inj (Except.ok.inj h)
    exact .inr ⟨rfl, rfl⟩
  · rw [peek_true hmore] at h
    obtain ⟨_, _, -, h⟩ := exists_of_bind h
    obtain ⟨rfl, -⟩ := Prod.mk.inj (Except.ok.inj h)
    exact .inl ⟨rfl, rfl⟩

/-- The first name of a path is the only one, or a double colon follows it. -/
theorem pathLoop_cases {segments : List Segment}
    (h : loop (pathStep r false) [] trees = .ok (segments, rest)) : ∃ s middle,
      segment r false trees = .ok (s, middle) ∧ ((segments = [s] ∧ rest = middle) ∨
        goesOn middle = true ∧ ∃ next more, segments = s :: next :: more) := by
  refine loop_induction
    (fun before middle => (before = [] ∧ middle = trees) ∨ ∃ s after more,
      segment r false trees = .ok (s, after) ∧ goesOn after = true ∧ before = s :: more)
    (fun segments rest => ∃ s middle, segment r false trees = .ok (s, middle) ∧
      ((segments = [s] ∧ rest = middle) ∨
        goesOn middle = true ∧ ∃ next more, segments = s :: next :: more)) ?_ ?_ (.inl ⟨rfl, rfl⟩) h
  · rintro before middle next after (⟨rfl, rfl⟩ | ⟨s, first, more, hs, hmore, rfl⟩) hstep
    · obtain ⟨s, first, hs, ⟨hmore, hout⟩ | ⟨hout, -⟩⟩ := pathStep_cases hstep
      · exact .inr ⟨s, first, [], hs, hmore, Sum.inl.inj hout⟩
      · nomatch hout
    · obtain ⟨t, _, -, ⟨-, hout⟩ | ⟨hout, -⟩⟩ := pathStep_cases hstep
      · exact .inr ⟨s, first, more ++ [t], hs, hmore, Sum.inl.inj hout⟩
      · nomatch hout
  · rintro before middle segments after (⟨rfl, rfl⟩ | ⟨s, first, more, hs, hmore, rfl⟩) hstep
    · obtain ⟨s, first, hs, ⟨-, hout⟩ | ⟨hout, hrest⟩⟩ := pathStep_cases hstep
      · nomatch hout
      · exact ⟨s, _, hs, .inl ⟨Sum.inr.inj hout, hrest⟩⟩
    · obtain ⟨t, _, -, ⟨-, hout⟩ | ⟨hout, -⟩⟩ := pathStep_cases hstep
      · nomatch hout
      · obtain rfl := Sum.inr.inj hout
        cases more with
        | nil => exact ⟨s, first, hs, .inr ⟨hmore, t, [], rfl⟩⟩
        | cons next more => exact ⟨s, first, hs, .inr ⟨hmore, next, more ++ [t], rfl⟩⟩

/-- A path without double colon at its start goes on after its first name, or ends. -/
theorem path_cases {p : Path} (hcolons : Look.op "::" trees = false)
    (h : path r false trees = .ok (p, rest)) :
    ∃ (n : Name) (after : List Tree), trees = n.spelling ++ after ∧
      ((p.spelling = n.spelling ∧ rest = after) ∨ Look.goingOn after = true ∧
        ∃ text, p.spelling = n.spelling ++ text ∧ ∀ more, Look.goingOn (text ++ more) = true) := by
  rw [path_eq] at h
  obtain ⟨leading, _, hleading, h⟩ := exists_of_bind h
  obtain ⟨rfl, rfl⟩ := Prod.mk.inj (Except.ok.inj hleading)
  obtain ⟨_, _, hstart, h⟩ := exists_of_bind h
  rw [optOp, Reader.optional, peek_false hcolons] at hstart
  obtain ⟨rfl, rfl⟩ := Prod.mk.inj (Except.ok.inj hstart)
  obtain ⟨segments, _, hloop, h⟩ := exists_of_bind h
  obtain ⟨rfl, rfl⟩ := Prod.mk.inj (Except.ok.inj h)
  obtain ⟨s, middle, hs, hsegments⟩ := pathLoop_cases hloop
  replace hs := segment_cases hs
  obtain ⟨after, rfl, hs⟩ := hs
  refine ⟨s.name, after, rfl, ?_⟩
  rcases hsegments with ⟨rfl, rfl⟩ | ⟨hmore, next, more, rfl⟩
  · rcases hs with ⟨hbare, rfl⟩ | ⟨hgoing, harguments⟩
    · exact .inl ⟨by simp [Path.spelling, hcolons, interleave, Path.segmentSpelling, hbare], rfl⟩
    · exact .inr ⟨hgoing, s.arguments,
        by simp [Path.spelling, hcolons, interleave, Path.segmentSpelling], harguments⟩
  · refine .inr ⟨?_, s.arguments ++ (Tree.operator [':', ':'] ++
      interleave "::" ((next :: more).map Path.segmentSpelling)), ?_, fun others => ?_⟩
    · rcases hs with ⟨-, rfl⟩ | ⟨hgoing, -⟩
      · simp only [goesOn, Look.but_apply, Bool.and_eq_true] at hmore
        simp [Look.goingOn, hmore.1]
      · exact hgoing
    · simp [Path.spelling, hcolons, interleave, Path.segmentSpelling]
    · rcases hs with ⟨hbare, -⟩ | ⟨-, harguments⟩
      · rw [hbare, List.nil_append, List.append_assoc]
        exact Look.goingOn_operator [':', ':'] (by decide) _
      · rw [List.append_assoc]
        exact harguments _



theorem path_leading {p : Path} (hcolons : Look.op "::" trees = true)
    (h : path r false trees = .ok (p, rest)) :
    ∃ more, p.spelling = .leaf (.mark ':' true) :: more := by
  rw [path_eq] at h
  rw [peek_at] at h
  obtain ⟨_, _, -, h⟩ := exists_of_bind h
  obtain ⟨segments, _, -, h⟩ := exists_of_bind h
  obtain ⟨rfl, -⟩ := Prod.mk.inj (Except.ok.inj h)
  exact ⟨_, by simp [Path.spelling, hcolons]; rfl⟩

end Reader

end ComponentRegistry.Grammar
