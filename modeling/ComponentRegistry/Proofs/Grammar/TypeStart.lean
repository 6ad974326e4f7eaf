import ComponentRegistry.Proofs.Grammar.PathStart

/-! How types start: as a type is written, so it is spelled. -/

namespace ComponentRegistry.Grammar

namespace Rules

/-- The rules of any depth leave an end of the trees. -/
theorem alike_self (depth n : Nat) : Rules.Alike n (upTo depth) (upTo depth) := by
  induction depth with
  | zero => constructor <;> intros <;> exact Reader.Alike.fail _
  | succ depth ih => exact ih.step

end Rules

namespace Reader

variable {α : Type} {q : Rules} {trees rest : List Tree} {text : Spelling} {plus : Bool}
  {depth : Nat} {x : Reader α}

/-- How a type starts, as it is written and as it is spelled: with nothing that starts brackets or
a parameter, or it is a single name, or it starts with a self type in brackets. -/
inductive TypeStart (q : Rules) (trees : List Tree) (text : Spelling) (rest : List Tree) : Prop
  | apart (h : Look.apart trees = true) (h' : ∀ more, Look.apart (text ++ more) = true)
  | name (n : Name) (h : trees = n.spelling ++ rest) (h' : text = n.spelling)
  | selfType (h : selfTypePath q false trees = .ok (text, rest))

/-- Spelled from a first tree that starts neither brackets nor a parameter. -/
theorem TypeStart.of_trees {tree other : Tree} {more tail : List Tree}
    (htrees : trees = tree :: more) (htext : text = other :: tail)
    (h : Look.apartTree tree = true) (h' : Look.apartTree other = true) :
    TypeStart q trees text rest := by
  subst htrees htext
  exact .apart (Look.apart_cons h) fun _ => Look.apart_cons h'

theorem moreBounds_text {first : Spelling} (h : moreBounds q first trees = .ok (text, rest)) :
    ∃ more, text = first ++ more := by
  refine loop_induction (fun text _ => ∃ more, text = first ++ more)
    (fun text _ => ∃ more, text = first ++ more) ?_ ?_ ⟨[], (List.append_nil _).symm⟩ h
  · rintro _ middle next after ⟨more, rfl⟩ hstep
    cases hplus : Look.op "+" middle
    · rw [peek_false hplus] at hstep
      cases hstep
    · rw [peek_true hplus] at hstep
      obtain ⟨plus, _, -, hstep⟩ := exists_of_bind hstep
      obtain ⟨bound, _, -, hstep⟩ := exists_of_bind hstep
      obtain ⟨hnext, -⟩ := Prod.mk.inj (Except.ok.inj hstep)
      exact ⟨more ++ plus ++ bound.text, by simp [← Sum.inl.inj hnext]⟩
  · rintro _ middle last after ⟨more, rfl⟩ hstep
    cases hplus : Look.op "+" middle
    · rw [peek_false hplus] at hstep
      obtain ⟨hlast, -⟩ := Prod.mk.inj (Except.ok.inj hstep)
      exact ⟨more, (Sum.inr.inj hlast).symm⟩
    · rw [peek_true hplus] at hstep
      obtain ⟨_, _, -, hstep⟩ := exists_of_bind hstep
      obtain ⟨_, _, -, hstep⟩ := exists_of_bind hstep
      cases hstep

theorem parenType_text {found : TypePhrase} (h : parenType q plus trees = .ok (found, rest)) :
    ∃ inner more, found.text = .group .paren inner :: more := by
  obtain ⟨inside, middle, -, h⟩ := exists_of_bind h
  have hobject {bare : Spelling} {single : Spelling → Bool} {trees : List Tree}
      (h : (do
        let text ← moreBounds q [.group .paren bare]
        return traitObject bare text (single text) : Reader TypePhrase) trees =
          .ok (found, rest)) : ∃ inner more, found.text = .group .paren inner :: more := by
    obtain ⟨text, _, htext, h⟩ := exists_of_bind h
    obtain ⟨rfl, -⟩ := Prod.mk.inj (Except.ok.inj h)
    exact ⟨bare, moreBounds_text htext⟩
  cases inside with
  | closed text =>
    obtain ⟨rfl, -⟩ := Prod.mk.inj (Except.ok.inj h)
    exact ⟨text, [], rfl⟩
  | bound bare => exact hobject h
  | single type =>
    dsimp only at h
    obtain ⟨more, _, -, h⟩ := exists_of_bind h
    generalize (plus && more) = goesOn at h
    generalize type.form = form at h
    split at h
    · exact hobject h
    · exact hobject h
    · obtain ⟨rfl, -⟩ := Prod.mk.inj (Except.ok.inj h)
      exact ⟨type.text, [], rfl⟩

theorem functionPointer_text (h : functionPointer q trees = .ok (text, rest)) :
    ∃ name more, text = .leaf (.word false name) :: more ∧ name ∈ ["fn", "unsafe", "extern"] := by
  obtain ⟨unsafety, _, more, hunsafety, hmore, rfl⟩ := exists_of_cat h
  rcases optional_cases hunsafety with ⟨-, hword⟩ | ⟨-, rfl, -⟩
  · exact ⟨"unsafe", more, by rw [(word_text hword).1]; rfl, by decide⟩
  obtain ⟨abi, _, more, habi, hrest, rfl⟩ := exists_of_cat hmore
  rcases optional_cases habi with ⟨-, habi⟩ | ⟨-, rfl, -⟩
  · obtain ⟨keyword, _, name, hkeyword, -, rfl⟩ := exists_of_cat habi
    exact ⟨"extern", name ++ more, by rw [(word_text hkeyword).1]; rfl, by decide⟩
  obtain ⟨keyword, _, more, hkeyword, -, rfl⟩ := exists_of_cat hrest
  exact ⟨"fn", more, by rw [(word_text hkeyword).1]; rfl, by decide⟩

theorem binder_text (h : binder q trees = .ok (text, rest)) :
    ∃ more, text = .leaf (.word false "for") :: more := by
  obtain ⟨keyword, _, hkeyword, h⟩ := exists_of_bind h
  obtain ⟨parts, _, -, h⟩ := exists_of_bind h
  obtain ⟨rfl, -⟩ := Prod.mk.inj (Except.ok.inj h)
  exact ⟨_, by rw [(word_text hkeyword).1]; rfl⟩

/-- One more bound after a path that is the first one. -/
def plusStep (q : Rules) (text : Spelling) : Reader (Spelling ⊕ Spelling) := do
  if !(← peek (Look.op "+")) then return .inr text
  let text := text ++ (← op "+")
  if !(← peek startsBound) then return .inr text
  return .inl (text ++ (← q.bound false false).text)

theorem plusStep_cases {out : Spelling ⊕ Spelling} {first : Spelling}
    (h : plusStep q first trees = .ok (out, rest)) :
    (Look.op "+" trees = false ∧ out = .inr first ∧ rest = trees) ∨
      (Look.op "+" trees = true ∧ ∃ more, let text := first ++ (Tree.operator ['+'] ++ more)
        out = .inl text ∨ out = .inr text) := by
  unfold plusStep at h
  rw [peek_at] at h
  cases hplus : Look.op "+" trees
  · simp only [hplus, Bool.not_false, if_true] at h
    obtain ⟨rfl, rfl⟩ := Prod.mk.inj (Except.ok.inj h)
    exact .inl ⟨rfl, rfl, rfl⟩
  · simp only [hplus, Bool.not_true, Bool.false_eq_true, if_false] at h
    obtain ⟨sign, middle, hsign, h⟩ := exists_of_bind h
    obtain rfl := (op_text hsign).1
    rw [peek_at] at h
    refine .inr ⟨rfl, ?_⟩
    cases hbound : startsBound middle
    · simp only [hbound, Bool.not_false, if_true] at h
      obtain ⟨rfl, -⟩ := Prod.mk.inj (Except.ok.inj h)
      exact ⟨[], .inr (by simp)⟩
    · simp only [hbound, Bool.not_true, Bool.false_eq_true, if_false] at h
      obtain ⟨bound, _, -, h⟩ := exists_of_bind h
      obtain ⟨rfl, -⟩ := Prod.mk.inj (Except.ok.inj h)
      exact ⟨bound.text, .inl (by simp)⟩

/-- Bounds after a first one are read only where a plus sign follows it, and it is spelled. -/
theorem plusLoop_cases {first : Spelling} (h : loop (plusStep q) first trees = .ok (text, rest)) :
    (text = first ∧ rest = trees) ∨
      (Look.op "+" trees = true ∧ ∃ more, text = first ++ (Tree.operator ['+'] ++ more)) := by
  refine loop_induction
    (fun text middle => (text = first ∧ middle = trees) ∨
      (Look.op "+" trees = true ∧ ∃ more, text = first ++ (Tree.operator ['+'] ++ more)))
    (fun text middle => (text = first ∧ middle = trees) ∨
      (Look.op "+" trees = true ∧ ∃ more, text = first ++ (Tree.operator ['+'] ++ more)))
    ?_ ?_ (.inl ⟨rfl, rfl⟩) h
  · intro before middle next after hbefore hstep
    obtain ⟨-, hout, -⟩ | ⟨hplus, more, hout | hout⟩ := plusStep_cases hstep
    · nomatch hout
    · obtain rfl := Sum.inl.inj hout
      rcases hbefore with ⟨rfl, rfl⟩ | ⟨hplus, others, rfl⟩
      · exact .inr ⟨hplus, more, rfl⟩
      · exact .inr ⟨hplus, others ++ (Tree.operator ['+'] ++ more), by simp⟩
    · nomatch hout
  · intro before middle last after hbefore hstep
    obtain ⟨-, hout, rfl⟩ | ⟨hplus, more, hout | hout⟩ := plusStep_cases hstep
    · obtain rfl := Sum.inr.inj hout
      exact hbefore
    · nomatch hout
    · obtain rfl := Sum.inr.inj hout
      rcases hbefore with ⟨rfl, rfl⟩ | ⟨hplus, others, rfl⟩
      · exact .inr ⟨hplus, more, rfl⟩
      · exact .inr ⟨hplus, others ++ (Tree.operator ['+'] ++ more), by simp⟩

/-- A type that starts with a path is the path, or goes on after it. Of a macro call the lifetimes
before it are dropped. -/
theorem pathType_cases {lifetimes : Spelling} {found : TypePhrase}
    (hless : Look.op "<" trees = false)
    (h : pathType q plus lifetimes trees = .ok (found, rest)) : ∃ p middle,
      path q false trees = .ok (p, middle) ∧
        ((found.text = lifetimes ++ p.spelling ∧ rest = middle) ∨ Look.goingOn middle = true ∧
          ∃ text,
            (found.text = lifetimes ++ (p.spelling ++ text) ∨ found.text = p.spelling ++ text) ∧
            ∀ more, Look.goingOn (text ++ more) = true) := by
  unfold pathType at h
  obtain ⟨start, middle, hstart, h⟩ := exists_of_bind h
  rw [anyPath, peek_false hless] at hstart
  obtain ⟨p, _, hpath, hstart⟩ := exists_of_bind hstart
  obtain ⟨rfl, rfl⟩ := Prod.mk.inj (Except.ok.inj hstart)
  refine ⟨p, _, hpath, ?_⟩
  clear hpath hstart
  dsimp only at h
  rw [peek_at] at h
  split at h
  next hmacro =>
    obtain ⟨bang, _, hbang, h⟩ := exists_of_bind h
    obtain ⟨⟨_, arguments⟩, _, -, h⟩ := exists_of_bind h
    obtain ⟨rfl, -⟩ := Prod.mk.inj (Except.ok.inj h)
    obtain ⟨rfl, hlook⟩ := op_text hbang
    refine .inr ⟨by simp [Look.goingOn, hlook], Tree.operator ['!'] ++ arguments,
      .inr (by simp [other]), fun more => ?_⟩
    rw [List.append_assoc]
    exact Look.goingOn_operator ['!'] (by decide) _
  next =>
    rw [peek_at] at h
    split at h
    next hlone =>
      obtain ⟨rfl, rfl⟩ := Prod.mk.inj (Except.ok.inj h)
      simp only [Bool.and_eq_true, List.isEmpty_iff] at hlone
      exact .inl ⟨by simp [hlone.1], rfl⟩
    next =>
      split at h
      next =>
        obtain ⟨rfl, rfl⟩ := Prod.mk.inj (Except.ok.inj h)
        exact .inl ⟨rfl, rfl⟩
      next =>
        obtain ⟨text, _, hloop, h⟩ := exists_of_bind h
        obtain ⟨rfl, rfl⟩ := Prod.mk.inj (Except.ok.inj h)
        obtain ⟨rfl, rfl⟩ | ⟨hplus, more, rfl⟩ := plusLoop_cases hloop
        · exact .inl ⟨rfl, rfl⟩
        · refine .inr ⟨by simp [Look.goingOn, hplus], Tree.operator ['+'] ++ more,
            .inl (by simp [traitObject]), fun others => ?_⟩
          rw [List.append_assoc]
          exact Look.goingOn_operator ['+'] (by decide) _

/-- A type that starts with a name or a double colon. -/
theorem pathType_start {found : TypePhrase} (hless : Look.op "<" trees = false)
    (hconst : Look.word "const" trees = false)
    (h : pathType q plus [] trees = .ok (found, rest)) : TypeStart q trees found.text rest := by
  obtain ⟨p, middle, hpath, hfound⟩ := pathType_cases hless h
  simp only [List.nil_append, or_self] at hfound
  cases hcolons : Look.op "::" trees
  · obtain ⟨n, after, rfl, ⟨hp, rfl⟩ | ⟨hgoing, text, hp, htext⟩⟩ := path_cases hcolons hpath
    · rcases hfound with ⟨hfound, rfl⟩ | ⟨hgoing, text, hfound, htext⟩
      · exact .name n rfl (by rw [hfound, hp])
      · refine .apart (Look.apart_name hconst hgoing) fun more => ?_
        rw [hfound, hp, List.append_assoc]
        exact Look.apart_name hconst (htext more)
    · refine .apart (Look.apart_name hconst hgoing) fun more => ?_
      rcases hfound with ⟨hfound, -⟩ | ⟨-, others, hfound, -⟩ <;> rw [hfound, hp] <;>
        simp only [List.append_assoc] <;> exact Look.apart_name hconst (htext _)
  · obtain ⟨joint, after, rfl⟩ := Look.exists_of_op (c := ':') rfl hcolons
    obtain ⟨more, hp⟩ := path_leading hcolons hpath
    rcases hfound with ⟨hfound, -⟩ | ⟨-, others, hfound, -⟩ <;> rw [hp] at hfound <;>
      exact .of_trees rfl hfound rfl rfl

/-- A type that starts with a binder of lifetimes. -/
theorem binderType_start {lifetimes more : Spelling} {middle : List Tree} {found : TypePhrase}
    (htrees : ∃ more, trees = .leaf (.word false "for") :: more)
    (hlifetimes : lifetimes = .leaf (.word false "for") :: more)
    (hless : Look.op "<" middle = false) (hcolons : Look.op "::" middle = false)
    (hconst : Look.word "const" middle = false)
    (h : pathType q plus lifetimes middle = .ok (found, rest)) :
    TypeStart q trees found.text rest := by
  obtain ⟨after, rfl⟩ := htrees
  obtain ⟨p, next, hpath, hfound⟩ := pathType_cases hless h
  have hfor {text : Spelling} (hfound : found.text = lifetimes ++ text) :
      TypeStart q (.leaf (.word false "for") :: after) found.text rest :=
    .of_trees rfl (by rw [hfound, hlifetimes]; rfl) (by decide) (by decide)
  rcases hfound with ⟨hfound, -⟩ | ⟨hgoing, text, hfound | hfound, htext⟩
  · exact hfor hfound
  · exact hfor hfound
  · refine .apart (Look.apart_cons (by decide)) fun more => ?_
    obtain ⟨n, _, rfl, ⟨hp, -⟩ | ⟨-, first, hp, hfirst⟩⟩ := path_cases hcolons hpath <;>
      rw [hfound, hp] <;> simp only [List.append_assoc]
    · exact Look.apart_name hconst (htext more)
    · exact Look.apart_name hconst (hfirst _)

/-- One bound of a trait object without keyword. -/
def boundStep (q : Rules) : List Bound × Spelling →
    Reader ((List Bound × Spelling) ⊕ (List Bound × Spelling)) := fun (found, text) => do
  let bound ← q.bound false false
  let found := found ++ [bound]
  let text := text ++ bound.text
  if !(← peek (Look.op "+")) then return .inr (found, text)
  let text := text ++ (← op "+")
  if ← peek startsBound then return .inl (found, text)
  return .inr (found, text)

theorem boundStep_cases {found : List Bound} {before : Spelling}
    {out : (List Bound × Spelling) ⊕ (List Bound × Spelling)}
    (h : boundStep q (found, before) trees = .ok (out, rest)) : ∃ bound middle,
      q.bound false false trees = .ok (bound, middle) ∧
        (out = .inr (found ++ [bound], before ++ bound.text) ∨
          Look.op "+" middle = true ∧
            let next := (found ++ [bound], before ++ (bound.text ++ Tree.operator ['+']))
            out = .inl next ∨ out = .inr next) := by
  obtain ⟨bound, middle, hbound, h⟩ := exists_of_bind h
  refine ⟨bound, middle, hbound, ?_⟩
  rw [peek_at] at h
  cases hplus : Look.op "+" middle
  · simp only [hplus, Bool.not_false, if_true] at h
    obtain ⟨rfl, -⟩ := Prod.mk.inj (Except.ok.inj h)
    exact .inl rfl
  · simp only [hplus, Bool.not_true, Bool.false_eq_true, if_false] at h
    obtain ⟨sign, after, hsign, h⟩ := exists_of_bind h
    obtain rfl := (op_text hsign).1
    rw [peek_at, List.append_assoc] at h
    refine .inr ⟨rfl, ?_⟩
    split at h
    · obtain ⟨rfl, -⟩ := Prod.mk.inj (Except.ok.inj h)
      exact .inl rfl
    · obtain ⟨rfl, -⟩ := Prod.mk.inj (Except.ok.inj h)
      exact .inr rfl

theorem objectBounds_cases (h : objectBounds q true trees = .ok (text, rest)) : ∃ found,
    loop (boundStep q) ([], []) trees = .ok ((found, text), rest) ∧
      found.all (·.form != .trait) = false := by
  obtain ⟨⟨found, text⟩, _, hbounds, h⟩ := exists_of_bind h
  obtain ⟨rfl, rfl⟩ := Prod.mk.inj (Except.ok.inj h)
  clear h
  obtain ⟨⟨found', text'⟩, middle, hloop, h⟩ := exists_of_bind hbounds
  dsimp only at h
  split at h
  next =>
    obtain ⟨_, _, hrefuse, -⟩ := exists_of_bind h
    cases hrefuse
  next hall =>
    obtain ⟨hfound, rfl⟩ := Prod.mk.inj (Except.ok.inj h)
    obtain ⟨rfl, rfl⟩ := Prod.mk.inj hfound
    exact ⟨found', hloop, by simpa using hall⟩

/-- A trait object that starts with a lifetime has another bound. -/
theorem objectBounds_lifetime {name : String} {after : List Tree}
    (hbound : ∀ {bound middle}, q.bound false false (.leaf (.lifetime name) :: after) =
      .ok (bound, middle) → bound.text = [.leaf (.lifetime name)] ∧ bound.form = .lifetime ∧
        middle = after)
    (h : objectBounds q true (.leaf (.lifetime name) :: after) = .ok (text, rest)) :
    Look.op "+" after = true ∧
      ∃ more, text = .leaf (.lifetime name) :: (Tree.operator ['+'] ++ more) := by
  obtain ⟨found, hloop, hall⟩ := objectBounds_cases h
  let Further (text : Spelling) : Prop := Look.op "+" after = true ∧
    ∃ more, text = .leaf (.lifetime name) :: (Tree.operator ['+'] ++ more)
  have hpost : found.all (·.form != .trait) = true ∨ Further text := by
    have hnext {state : List Bound × Spelling} {middle next : List Tree} {bound : Bound}
        (hstate : (state = ([], []) ∧ middle = .leaf (.lifetime name) :: after) ∨ Further state.2)
        (hread : q.bound false false middle = .ok (bound, next))
        (hplus : Look.op "+" next = true) :
        Further (state.2 ++ (bound.text ++ Tree.operator ['+'])) := by
      rcases hstate with ⟨rfl, rfl⟩ | ⟨hfurther, more, htext⟩
      · obtain ⟨htext, -, rfl⟩ := hbound hread
        exact ⟨hplus, [], by simp [htext]⟩
      · exact ⟨hfurther, more ++ (bound.text ++ Tree.operator ['+']), by simp [htext]⟩
    refine loop_induction
      (fun state middle => (state = ([], []) ∧ middle = .leaf (.lifetime name) :: after) ∨
        Further state.2)
      (fun result _ => result.1.all (·.form != .trait) = true ∨ Further result.2) ?_ ?_
      (.inl ⟨rfl, rfl⟩) hloop
    · intro state middle next rest hstate hstep
      obtain ⟨bound, _, hread, hout | ⟨hplus, hout | hout⟩⟩ := boundStep_cases hstep
      · nomatch hout
      · obtain rfl := Sum.inl.inj hout
        exact .inr (hnext hstate hread hplus)
      · nomatch hout
    · intro state middle result rest hstate hstep
      obtain ⟨bound, _, hread, hout | ⟨hplus, hout | hout⟩⟩ := boundStep_cases hstep
      · obtain rfl := Sum.inr.inj hout
        rcases hstate with ⟨rfl, rfl⟩ | ⟨hfurther, more, htext⟩
        · exact .inl (by simp [(hbound hread).2.1])
        · exact .inr ⟨hfurther, more ++ bound.text, by simp [htext]⟩
      · nomatch hout
      · obtain rfl := Sum.inr.inj hout
        exact .inr (hnext hstate hread hplus)
  rcases hpost with hpost | hpost
  · rw [hall] at hpost
    cases hpost
  · exact hpost

theorem suffix_of_alike (halike : ∀ n, Alike n false x x) {value : α}
    (h : x trees = .ok (value, rest)) : rest <:+ trees :=
  (halike (Tree.sizeAll trees + 1)).suffix (Nat.lt_succ_self _) h

theorem dynType_text {found : TypePhrase} (halike : ∀ n, Rules.Alike n q q)
    (h : dynType q plus trees = .ok (found, rest)) :
    ∃ more, found.text = .leaf (.word false "dyn") :: more := by
  obtain ⟨start, _, hstart, h⟩ := exists_of_bind h
  obtain ⟨rfl, rfl⟩ := Prod.mk.inj (Except.ok.inj hstart)
  obtain ⟨keyword, middle, hkeyword, h⟩ := exists_of_bind h
  obtain ⟨rfl, rfl⟩ := word_text hkeyword
  obtain ⟨star, after, hstar, h⟩ := exists_of_bind h
  obtain ⟨bounds, last, hbounds, h⟩ := exists_of_bind h
  split at h
  next =>
    obtain ⟨rfl, -⟩ := Prod.mk.inj (Except.ok.inj h)
    exact ⟨bounds, rfl⟩
  next =>
    obtain ⟨text, _, hsince, h⟩ := exists_of_bind h
    obtain ⟨rfl, -⟩ := Prod.mk.inj (Except.ok.inj h)
    obtain ⟨rfl, -⟩ := Prod.mk.inj (Except.ok.inj hsince)
    have hsuffix : last <:+ middle :=
      (suffix_of_alike (fun n => have := halike n; inferInstance) hbounds).trans
        (suffix_of_alike (fun n => inferInstance) hstar)
    have hlength := hsuffix.length_le
    exact ⟨middle.take (middle.length - last.length), by
      rw [other, List.length_cons, Nat.succ_sub hlength, List.take_succ_cons]⟩

theorem bracketType_text {found : TypePhrase} (h : bracketType q trees = .ok (found, rest)) :
    ∃ inner, found.text = [.group .bracket inner] := by
  obtain ⟨text, _, htext, h⟩ := exists_of_bind h
  obtain ⟨rfl, -⟩ := Prod.mk.inj (Except.ok.inj h)
  obtain ⟨inner, _, -, htext⟩ := exists_of_bind htext
  obtain ⟨rfl, -⟩ := Prod.mk.inj (Except.ok.inj htext)
  exact ⟨inner, rfl⟩

theorem pointerType_text {found : TypePhrase} (h : pointerType q trees = .ok (found, rest)) :
    ∃ more, found.text = .leaf (.mark '*' false) :: more := by
  obtain ⟨star, _, hstar, h⟩ := exists_of_bind h
  obtain ⟨_, _, -, h⟩ := exists_of_bind h
  dsimp only at h
  split at h
  next =>
    obtain ⟨kind, _, -, h⟩ := exists_of_bind h
    obtain ⟨text, _, -, h⟩ := exists_of_bind h
    obtain ⟨rfl, -⟩ := Prod.mk.inj (Except.ok.inj h)
    exact ⟨kind ++ text, by rw [(op_text hstar).1]; rfl⟩
  next =>
    obtain ⟨_, _, hexpected, -⟩ := exists_of_bind h
    cases hexpected

theorem referenceType_text {found : TypePhrase} (h : referenceType q trees = .ok (found, rest)) :
    ∃ more, found.text = .leaf (.mark '&' false) :: more := by
  obtain ⟨text, _, htext, h⟩ := exists_of_bind h
  obtain ⟨rfl, -⟩ := Prod.mk.inj (Except.ok.inj h)
  obtain ⟨sign, _, more, hsign, -, rfl⟩ := exists_of_cat htext
  exact ⟨more, by rw [(op_text hsign).1]; rfl⟩

theorem implType_text {found : TypePhrase} (h : implType q plus trees = .ok (found, rest)) :
    ∃ more, found.text = .leaf (.word false "impl") :: more := by
  obtain ⟨keyword, _, hkeyword, h⟩ := exists_of_bind h
  obtain ⟨bounds, _, -, h⟩ := exists_of_bind h
  obtain ⟨rfl, -⟩ := Prod.mk.inj (Except.ok.inj h)
  exact ⟨bounds.2, by rw [(word_text hkeyword).1]; rfl⟩

/-- A type that starts with an opening bracket has a self type. -/
theorem pathType_less {found : TypePhrase} (hless : Look.op "<" trees = true)
    (h : pathType q plus [] trees = .ok (found, rest)) :
    selfTypePath q false trees = .ok (found.text, rest) := by
  unfold pathType at h
  obtain ⟨start, _, hstart, h⟩ := exists_of_bind h
  rw [anyPath, peek_true hless] at hstart
  obtain ⟨text, _, hself, hstart⟩ := exists_of_bind hstart
  obtain ⟨rfl, rfl⟩ := Prod.mk.inj (Except.ok.inj hstart)
  obtain ⟨rfl, rfl⟩ := Prod.mk.inj (Except.ok.inj h)
  exact hself

/-- Every type starts as it is written. -/
theorem typeStart {found : TypePhrase} (halike : ∀ n, Rules.Alike n q q)
    (hbound : ∀ {name after bound middle}, q.bound false false (.leaf (.lifetime name) :: after) =
      .ok (bound, middle) → bound.text = [.leaf (.lifetime name)] ∧ bound.form = .lifetime ∧
        middle = after)
    (h : type q plus trees = .ok (found, rest)) : TypeStart q trees found.text rest := by
  unfold type at h
  cases hfor : Look.word "for" trees
  case true =>
    rw [peek_true hfor] at h
    obtain ⟨lifetimes, middle, hbinder, h⟩ := exists_of_bind h
    obtain ⟨after, rfl⟩ := Look.exists_of_word hfor
    obtain ⟨more, rfl⟩ := binder_text hbinder
    cases hpointer : Look.words ["fn", "unsafe", "extern"] middle
    · rw [peek_false hpointer] at h
      cases hpath : Look.either Look.name (Look.words ["super", "self", "Self", "crate"]) middle
      · rw [peek_false hpath] at h
        cases h
      · rw [peek_true hpath] at h
        obtain ⟨hless, hcolons, hconst⟩ := Look.not_of_pathStart hpath
        exact binderType_start ⟨_, rfl⟩ rfl hless hcolons hconst h
    · rw [peek_true hpointer] at h
      obtain ⟨text, _, -, h⟩ := exists_of_bind h
      obtain ⟨rfl, -⟩ := Prod.mk.inj (Except.ok.inj h)
      exact .of_trees rfl rfl rfl rfl
  rw [peek_false hfor] at h
  cases hparen : Look.group .paren trees
  case true =>
    rw [peek_true hparen] at h
    obtain ⟨inner, after, rfl⟩ := Look.exists_of_group hparen
    obtain ⟨inner', more, htext⟩ := parenType_text h
    exact .of_trees rfl htext rfl rfl
  rw [peek_false hparen] at h
  cases hpointer : Look.words ["fn", "unsafe", "extern"] trees
  case true =>
    rw [peek_true hpointer] at h
    obtain ⟨text, _, hread, h⟩ := exists_of_bind h
    obtain ⟨rfl, -⟩ := Prod.mk.inj (Except.ok.inj h)
    obtain ⟨name, hname, after, rfl⟩ := Look.exists_of_words hpointer
    obtain ⟨name', more, htext, hname'⟩ := functionPointer_text hread
    have happart : ∀ name ∈ ["fn", "unsafe", "extern"],
        Look.apartTree (.leaf (.word false name)) = true := by decide
    exact .of_trees rfl htext (happart _ hname) (happart _ hname')
  rw [peek_false hpointer] at h
  cases hpath : Look.any [Look.name, Look.words ["super", "self", "Self", "crate"], Look.op "::",
      Look.op "<"] trees
  case true =>
    rw [peek_true hpath] at h
    cases hless : Look.op "<" trees
    case true =>
      exact .selfType (pathType_less hless h)
    case false =>
      refine pathType_start hless ?_ h
      by_contra hconst
      obtain ⟨after, rfl⟩ := Look.exists_of_word (Bool.not_eq_false _ ▸ hconst)
      exact absurd hpath (by simp [keywords])
  rw [peek_false hpath] at h
  cases hdyn : Look.word "dyn" trees
  case true =>
    rw [peek_true hdyn] at h
    obtain ⟨after, rfl⟩ := Look.exists_of_word hdyn
    obtain ⟨more, htext⟩ := dynType_text halike h
    exact .of_trees rfl htext rfl rfl
  rw [peek_false hdyn] at h
  cases hbracket : Look.group .bracket trees
  case true =>
    rw [peek_true hbracket] at h
    obtain ⟨inner, after, rfl⟩ := Look.exists_of_group hbracket
    obtain ⟨inner', htext⟩ := bracketType_text h
    exact .of_trees rfl htext rfl rfl
  rw [peek_false hbracket] at h
  cases hstar : Look.op "*" trees
  case true =>
    rw [peek_true hstar] at h
    obtain ⟨joint, after, rfl⟩ := Look.exists_of_op (c := '*') rfl hstar
    obtain ⟨more, htext⟩ := pointerType_text h
    exact .of_trees rfl htext rfl rfl
  rw [peek_false hstar] at h
  cases hand : Look.op "&" trees
  case true =>
    rw [peek_true hand] at h
    obtain ⟨joint, after, rfl⟩ := Look.exists_of_op (c := '&') rfl hand
    obtain ⟨more, htext⟩ := referenceType_text h
    exact .of_trees rfl htext rfl rfl
  rw [peek_false hand] at h
  cases hbang : Look.op "!" trees
  case true =>
    rw [peek_true hbang] at h
    obtain ⟨joint, after, rfl⟩ := Look.exists_of_op (c := '!') rfl hbang
    obtain ⟨text, _, hread, h⟩ := exists_of_bind h
    obtain ⟨rfl, -⟩ := Prod.mk.inj (Except.ok.inj h)
    exact .of_trees rfl (by rw [(op_text hread).1]; rfl) rfl rfl
  rw [peek_false hbang] at h
  cases himpl : Look.word "impl" trees
  case true =>
    rw [peek_true himpl] at h
    obtain ⟨after, rfl⟩ := Look.exists_of_word himpl
    obtain ⟨more, htext⟩ := implType_text h
    exact .of_trees rfl htext rfl rfl
  rw [peek_false himpl] at h
  cases hhole : Look.word "_" trees
  case true =>
    rw [peek_true hhole] at h
    obtain ⟨after, rfl⟩ := Look.exists_of_word hhole
    obtain ⟨text, _, hread, h⟩ := exists_of_bind h
    obtain ⟨rfl, -⟩ := Prod.mk.inj (Except.ok.inj h)
    obtain ⟨rfl, -⟩ := Prod.mk.inj (Except.ok.inj hread)
    exact .of_trees rfl rfl rfl rfl
  rw [peek_false hhole] at h
  cases hlifetime : Look.lifetime trees
  case true =>
    rw [peek_true hlifetime] at h
    obtain ⟨name, after, rfl⟩ := Look.exists_of_lifetime hlifetime
    obtain ⟨text, _, hread, h⟩ := exists_of_bind h
    obtain ⟨rfl, -⟩ := Prod.mk.inj (Except.ok.inj h)
    obtain ⟨hplus, more, rfl⟩ := objectBounds_lifetime hbound hread
    refine .apart (Look.apart_lifetime (by simp [Look.goingOn, hplus])) fun others => ?_
    rw [other, List.cons_append, List.append_assoc]
    exact Look.apart_lifetime (Look.goingOn_operator ['+'] (by decide) _)
  rw [peek_false hlifetime] at h
  cases h

theorem bound_lifetime {name : String} {after middle : List Tree} {bound : Bound}
    (h : (Rules.upTo depth).bound false false (.leaf (.lifetime name) :: after) =
      .ok (bound, middle)) :
    bound.text = [.leaf (.lifetime name)] ∧ bound.form = .lifetime ∧ middle = after := by
  cases depth with
  | zero => cases h
  | succ depth =>
    obtain ⟨rfl, rfl⟩ := Prod.mk.inj (Except.ok.inj h)
    exact ⟨rfl, rfl, rfl⟩

theorem typeText_type (h : (Rules.upTo depth).typeText trees = .ok (text, rest)) :
    ∃ depth found, type (Rules.upTo depth) true trees = .ok (found, rest) ∧ found.text = text := by
  obtain ⟨found, _, hread, h⟩ := exists_of_bind h
  obtain ⟨rfl, rfl⟩ := Prod.mk.inj (Except.ok.inj h)
  cases depth with
  | zero => cases hread
  | succ depth => exact ⟨depth, found, hread, rfl⟩

end Reader

end ComponentRegistry.Grammar
