import ComponentRegistry.Proofs.Grammar.PlainPath

/-! What readers give, from a text on: the names stand in the trees that are read. -/

namespace ComponentRegistry.Grammar

open Path

theorem ofText?_eq_some {α : Type} {reader : Rules → Reader α} {text : String} {value : α}
    (h : ofText? reader text = some value) : ∃ trees, Tree.ofText? text = some trees ∧
      reader (Rules.forTrees trees) trees = .ok (value, []) := by
  obtain ⟨trees, htrees, h⟩ := Option.bind_eq_some_iff.mp h
  refine ⟨trees, htrees, ?_⟩
  unfold readAll Reader.runAll at h
  split at h
  next value' hread =>
    obtain rfl := Option.some.inj h
    exact hread
  next => cases h
  next => cases h

theorem ofText?_of_trees {α : Type} {reader : Rules → Reader α} {text : String} {value : α}
    {trees : List Tree} (htrees : Tree.ofText? text = some trees)
    (h : reader (Rules.forTrees trees) trees = .ok (value, [])) :
    ofText? reader text = some value := by
  simp [ofText?, htrees, readAll, Reader.runAll, h, Except.toOption]

namespace Reader

variable {α β σ ρ : Type} {r : Rules} {inExpr : Bool} {trees rest : List Tree}

theorem exists_of_bind {x : Reader α} {f : α → Reader β} {found : β × List Tree}
    (h : (x >>= f) trees = .ok found) :
    ∃ value middle, x trees = .ok (value, middle) ∧ f value middle = .ok found := by
  rw [bind_apply] at h
  split at h
  next value middle hx => exact ⟨value, middle, hx, h⟩
  next => cases h

/-- What every step of a loop keeps holds at its end. -/
theorem loop_induction {step : σ → Reader (σ ⊕ ρ)} (Inv : σ → List Tree → Prop)
    (Post : ρ → List Tree → Prop)
    (hnext : ∀ {state trees next rest}, Inv state trees →
      step state trees = .ok (.inl next, rest) → Inv next rest)
    (hlast : ∀ {state trees result rest}, Inv state trees →
      step state trees = .ok (.inr result, rest) → Post result rest)
    {state : σ} {result : ρ} (hinv : Inv state trees)
    (h : loop step state trees = .ok (result, rest)) : Post result rest := by
  rw [loop_apply] at h
  suffices hloop : ∀ (fuel : List Tree) {state : σ} {trees : List Tree}, Inv state trees →
      loopIn step fuel state trees = .ok (result, rest) → Post result rest from hloop trees hinv h
  intro fuel
  induction fuel with
  | nil =>
    intro state trees hinv h
    rw [loopIn_apply] at h
    split at h
    next result rest hstep =>
      obtain ⟨rfl, rfl⟩ := Prod.mk.inj (Except.ok.inj h)
      exact hlast hinv hstep
    next => cases h
    next => cases h
  | cons tree fuel ih =>
    intro state trees hinv h
    rw [loopIn_apply] at h
    split at h
    next result rest hstep =>
      obtain ⟨rfl, rfl⟩ := Prod.mk.inj (Except.ok.inj h)
      exact hlast hinv hstep
    next next rest hstep => exact ih (hnext hinv hstep) h
    next => cases h

theorem marks?_subset {marks : List Char} (h : marks? marks trees = some rest) : rest ⊆ trees := by
  fun_induction marks? marks trees with
  | case1 => exact (Option.some.inj h) ▸ List.Subset.refl _
  | case2 => exact (Option.some.inj h) ▸ List.subset_cons_self ..
  | case3 => cases h
  | case4 _ _ _ _ ih => exact List.Subset.trans (ih h) (List.subset_cons_self ..)
  | case5 => cases h
  | case6 => cases h

theorem op_subset {marks : String} {text : Spelling} (h : op marks trees = .ok (text, rest)) :
    rest ⊆ trees := by
  unfold op at h
  split at h
  next hmarks =>
    obtain ⟨-, rfl⟩ := Prod.mk.inj (Except.ok.inj h)
    exact marks?_subset hmarks
  next => cases h

theorem name_word {n : Name} (h : name trees = .ok (n, rest)) :
    trees = .leaf (.word n.raw n.text) :: rest ∧ (n.raw = true ∨ n.text ∉ keywords) := by
  unfold name at h
  split at h
  next =>
    split at h
    next hname =>
      obtain ⟨rfl, rfl⟩ := Prod.mk.inj (Except.ok.inj h)
      exact ⟨rfl, by simpa using hname⟩
    next => cases h
  next => cases h

theorem anyName_word {n : Name} (h : anyName trees = .ok (n, rest)) :
    trees = .leaf (.word n.raw n.text) :: rest := by
  unfold anyName at h
  split at h
  next =>
    obtain ⟨rfl, rfl⟩ := Prod.mk.inj (Except.ok.inj h)
    rfl
  next => cases h

/-- What a segment makes of a name. -/
def segmentOf (r : Rules) (inExpr : Bool) (name : Name) : Reader Segment := do
  let direct := Look.but (Look.op "<") (Look.any [Look.op "<=", Look.op "<<="])
  let turbo := Look.both (Look.op "::") (Look.third (Look.op "<"))
  if (!inExpr && (← peek direct)) || (← peek turbo) then
    let colons ← optOp "::"
    let parts ← angled (pathArgument r)
    return ⟨name, colons ++ inAngles (AnglePart.spelling parts), parts.isEmpty⟩
  return ⟨name, [], true⟩

theorem segment_eq (r : Rules) (inExpr : Bool) : segment r inExpr = (do
    if ← peek (Look.words ["super", "self", "crate", "try"]) then return ⟨← anyName, [], true⟩
    let name ← if ← peek (Look.word "Self") then anyName else name
    segmentOf r inExpr name) := rfl

theorem segmentOf_bare {n : Name} {s : Segment} (h : segmentOf r inExpr n trees = .ok (s, rest))
    (hbare : s.arguments = []) : s.name = n ∧ rest = trees := by
  simp only [segmentOf, bind_apply, peek_apply, ite_apply, pure_apply] at h
  split at h
  next =>
    split at h
    next =>
      split at h
      next =>
        obtain ⟨rfl, -⟩ := Prod.mk.inj (Except.ok.inj h)
        simp [inAngles] at hbare
      next => cases h
    next => cases h
  next =>
    obtain ⟨rfl, rfl⟩ := Prod.mk.inj (Except.ok.inj h)
    exact ⟨rfl, rfl⟩

/-- A segment without arguments is a word. -/
theorem segment_word {s : Segment} (h : segment r inExpr trees = .ok (s, rest))
    (hbare : s.arguments = []) : trees = .leaf (.word s.name.raw s.name.text) :: rest := by
  rw [segment_eq] at h
  simp only [bind_apply, peek_apply, ite_apply, pure_apply] at h
  split at h
  next =>
    split at h
    next n middle hname =>
      obtain ⟨rfl, rfl⟩ := Prod.mk.inj (Except.ok.inj h)
      exact anyName_word hname
    next => cases h
  next =>
    have hof : ∃ n middle, trees = .leaf (.word n.raw n.text) :: middle ∧
        segmentOf r inExpr n middle = .ok (s, rest) := by
      split at h
      · split at h
        next n middle hname => exact ⟨n, middle, anyName_word hname, h⟩
        next => cases h
      · split at h
        next n middle hname => exact ⟨n, middle, (name_word hname).1, h⟩
        next => cases h
    obtain ⟨n, middle, rfl, hof⟩ := hof
    obtain ⟨hname, hrest⟩ := segmentOf_bare hof hbare
    rw [hname, hrest]

theorem optOp_subset {marks : String} {text : Spelling} (h : optOp marks trees = .ok (text, rest)) :
    rest ⊆ trees := by
  simp only [optOp, Reader.optional, bind_apply, peek_apply, ite_apply, pure_apply] at h
  split at h
  next => exact op_subset h
  next =>
    obtain ⟨-, rfl⟩ := Prod.mk.inj (Except.ok.inj h)
    exact List.Subset.refl _

theorem pathStep_ok {segments : List Segment} {out : List Segment ⊕ List Segment}
    (h : pathStep r inExpr segments trees = .ok (out, rest)) : ∃ s middle,
      segment r inExpr trees = .ok (s, middle) ∧ rest ⊆ middle ∧
        (out = .inl (segments ++ [s]) ∨ out = .inr (segments ++ [s])) := by
  simp only [pathStep, bind_apply, peek_apply, ite_apply, pure_apply] at h
  split at h
  next s middle hsegment =>
    refine ⟨s, middle, hsegment, ?_⟩
    split at h
    next =>
      split at h
      next hop =>
        obtain ⟨rfl, rfl⟩ := Prod.mk.inj (Except.ok.inj h)
        exact ⟨op_subset hop, .inl rfl⟩
      next => cases h
    next =>
      obtain ⟨rfl, rfl⟩ := Prod.mk.inj (Except.ok.inj h)
      exact ⟨List.Subset.refl _, .inr rfl⟩
  next => cases h

/-- The names so far stand in the trees that a path is read from, unless one has arguments. -/
def NamesIn (trees : List Tree) (segments : List Segment) : Prop :=
  (∀ s ∈ segments, s.arguments = []) →
    ∀ s ∈ segments, .leaf (.word s.name.raw s.name.text) ∈ trees

theorem namesIn_step {segments : List Segment} {middle after : List Tree} {s : Segment}
    (hnames : (∀ s ∈ segments, s.arguments = []) → middle ⊆ trees ∧ NamesIn trees segments)
    (hsegment : segment r inExpr middle = .ok (s, after))
    (hbare : ∀ t ∈ segments ++ [s], t.arguments = []) :
    after ⊆ trees ∧ NamesIn trees (segments ++ [s]) := by
  have hbefore : ∀ s ∈ segments, s.arguments = [] := fun s hs =>
    hbare s (List.mem_append_left _ hs)
  obtain ⟨hsubset, hin⟩ := hnames hbefore
  have hword := segment_word hsegment (hbare s (by simp))
  rw [hword] at hsubset
  refine ⟨List.Subset.trans (List.subset_cons_self ..) hsubset, fun _ t ht => ?_⟩
  rcases List.mem_append.mp ht with ht | ht
  · exact hin hbefore t ht
  · obtain rfl := List.mem_singleton.mp ht
    exact hsubset List.mem_cons_self

/-- The names of a path without arguments stand in the trees that it was read from. -/
theorem mem_of_path {p : Path} (h : path r inExpr trees = .ok (p, rest))
    (hbare : ∀ s ∈ p.segments, s.arguments = []) :
    ∀ s ∈ p.segments, .leaf (.word s.name.raw s.name.text) ∈ trees := by
  rw [path_eq] at h
  simp only [bind_apply, peek_apply, pure_apply] at h
  split at h
  next text start hstart =>
    split at h
    next segments after hloop =>
      obtain ⟨rfl, rfl⟩ := Prod.mk.inj (Except.ok.inj h)
      -- Trees may be skipped only with arguments.
      refine loop_induction
        (fun segments middle => (∀ s ∈ segments, s.arguments = []) →
          middle ⊆ trees ∧ NamesIn trees segments)
        (fun segments _ => NamesIn trees segments) ?_ ?_ ?_ hloop hbare
      · intro segments middle next rest hinv hstep hbare
        obtain ⟨s, after, hsegment, hrest, hout | hout⟩ := pathStep_ok hstep
        · obtain rfl := Sum.inl.inj hout
          obtain ⟨hsubset, hin⟩ := namesIn_step hinv hsegment hbare
          exact ⟨List.Subset.trans hrest hsubset, hin⟩
        · cases hout
      · intro segments middle result rest hinv hstep hbare
        obtain ⟨s, after, hsegment, -, hout | hout⟩ := pathStep_ok hstep
        · cases hout
        · obtain rfl := Sum.inr.inj hout
          exact (namesIn_step hinv hsegment hbare).2 hbare
      · exact fun _ => ⟨optOp_subset hstart, fun _ s hs => nomatch hs⟩
    next => cases h
  next => cases h

end Reader

end ComponentRegistry.Grammar
