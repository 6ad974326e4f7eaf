import ComponentRegistry.Grammar.SourceFile
import Mathlib.Data.List.Forall2

/-! Running readers on trees of which the first ones are known. -/

namespace ComponentRegistry

attribute [simp] Tree.word Tree.mark Tree.operator

namespace Grammar

namespace Look

variable {found text : String} {raw joint : Bool} {c : Char} {delimiter other : Delimiter}
  {inner trees : List Tree} {look first : Look}

@[simp] theorem word_nil (name : String) : word name [] = false := rfl

@[simp] theorem word_word (name : String) :
    word name (.leaf (.word raw found) :: trees) = (!raw && found == name) := by
  cases raw <;> rfl

@[simp] theorem word_mark (name : String) : word name (.leaf (.mark c joint) :: trees) = false := rfl

@[simp] theorem word_lifetime (name : String) :
    word name (.leaf (.lifetime found) :: trees) = false := rfl

@[simp] theorem word_literal (name : String) :
    word name (.leaf (.literal text) :: trees) = false := rfl

@[simp] theorem word_group (name : String) :
    word name (.group delimiter inner :: trees) = false := rfl

@[simp] theorem anyWord_nil : anyWord [] = false := rfl

@[simp] theorem anyWord_word : anyWord (.leaf (.word raw found) :: trees) = true := rfl

@[simp] theorem anyWord_mark : anyWord (.leaf (.mark c joint) :: trees) = false := rfl

@[simp] theorem anyWord_group : anyWord (.group delimiter inner :: trees) = false := rfl

@[simp] theorem name_nil : name [] = false := rfl

@[simp] theorem name_word :
    name (.leaf (.word raw found) :: trees) = (raw || !keywords.contains found) := rfl

@[simp] theorem name_mark : name (.leaf (.mark c joint) :: trees) = false := rfl

@[simp] theorem name_lifetime : name (.leaf (.lifetime found) :: trees) = false := rfl

@[simp] theorem name_literal : name (.leaf (.literal text) :: trees) = false := rfl

@[simp] theorem name_group : name (.group delimiter inner :: trees) = false := rfl

@[simp] theorem lifetime_nil : lifetime [] = false := rfl

@[simp] theorem lifetime_word : lifetime (.leaf (.word raw found) :: trees) = false := rfl

@[simp] theorem lifetime_mark : lifetime (.leaf (.mark c joint) :: trees) = false := rfl

@[simp] theorem lifetime_lifetime : lifetime (.leaf (.lifetime found) :: trees) = true := rfl

@[simp] theorem lifetime_literal : lifetime (.leaf (.literal text) :: trees) = false := rfl

@[simp] theorem lifetime_group : lifetime (.group delimiter inner :: trees) = false := rfl

@[simp] theorem literal_nil : literal [] = false := rfl

@[simp] theorem literal_word : literal (.leaf (.word raw found) :: trees) =
    (!raw && (found == "true" || found == "false")) := by
  cases raw <;> rfl

@[simp] theorem literal_literal : literal (.leaf (.literal text) :: trees) = true := rfl

@[simp] theorem literal_group : literal (.group delimiter inner :: trees) = false := rfl

@[simp] theorem literal_lifetime : literal (.leaf (.lifetime found) :: trees) = false := rfl

theorem literal_mark (h : c ≠ '-') : literal (.leaf (.mark c joint) :: trees) = false := by
  unfold literal
  split <;> simp_all

@[simp] theorem string_word : string (.leaf (.word raw found) :: trees) = false := rfl

@[simp] theorem group_nil : group delimiter [] = false := rfl

@[simp] theorem group_word : group delimiter (.leaf (.word raw found) :: trees) = false := rfl

@[simp] theorem group_mark : group delimiter (.leaf (.mark c joint) :: trees) = false := rfl

@[simp] theorem group_lifetime : group delimiter (.leaf (.lifetime found) :: trees) = false := rfl

@[simp] theorem group_literal : group delimiter (.leaf (.literal text) :: trees) = false := rfl

@[simp] theorem group_group :
    group delimiter (.group other inner :: trees) = (other == delimiter) := rfl

theorem op_eq_false {marks : String} (hmarks : marks ≠ "")
    (h : ∀ c joint rest, trees ≠ .leaf (.mark c joint) :: rest) : op marks trees = false := by
  cases hchars : marks.toList with
  | nil => exact absurd (String.toList_eq_nil_iff.mp hchars) hmarks
  | cons d ds =>
    rw [op, hchars]
    unfold marks?
    split <;> simp_all

@[simp] theorem op_nil {marks : String} (hmarks : marks ≠ "") : op marks [] = false :=
  op_eq_false hmarks (by simp)

@[simp] theorem op_word {marks : String} (hmarks : marks ≠ "") :
    op marks (.leaf (.word raw found) :: trees) = false := op_eq_false hmarks (by simp)

@[simp] theorem op_lifetime {marks : String} (hmarks : marks ≠ "") :
    op marks (.leaf (.lifetime found) :: trees) = false := op_eq_false hmarks (by simp)

@[simp] theorem op_literal {marks : String} (hmarks : marks ≠ "") :
    op marks (.leaf (.literal text) :: trees) = false := op_eq_false hmarks (by simp)

@[simp] theorem op_group {marks : String} (hmarks : marks ≠ "") :
    op marks (.group delimiter inner :: trees) = false := op_eq_false hmarks (by simp)

@[simp] theorem op_mark (marks : String) : op marks (.leaf (.mark c joint) :: trees) =
    (marks? marks.toList (.leaf (.mark c joint) :: trees)).isSome := rfl

@[simp] theorem second_cons {tree : Tree} : second look (tree :: trees) = look trees := rfl

@[simp] theorem third_cons {tree next : Tree} : third look (tree :: next :: trees) = look trees :=
  rfl

@[simp] theorem second_nil : second look [] = look [] := rfl

@[simp] theorem third_nil : third look [] = look [] := rfl

@[simp] theorem third_singleton {tree : Tree} : third look [tree] = look [] := rfl

@[simp] theorem both_apply : both first look trees = (first trees && look trees) := rfl

@[simp] theorem either_apply : either first look trees = (first trees || look trees) := rfl

@[simp] theorem not_apply : not look trees = !look trees := rfl

@[simp] theorem but_apply : but first look trees = (first trees && !look trees) := rfl

@[simp] theorem any_apply (looks : List Look) : any looks trees = looks.any (· trees) := rfl

@[simp] theorem words_apply (names : List String) :
    words names trees = (names.map word).any (· trees) := rfl

@[simp] theorem nothing_apply : nothing trees = trees.isEmpty := rfl

end Look

namespace Reader

variable {α β σ ρ : Type} {trees rest : List Tree}

@[simp ↓] theorem bind_apply (x : Reader α) (f : α → Reader β) (trees : List Tree) :
    (x >>= f) trees = match x trees with
      | .ok (value, rest) => f value rest
      | .error failure => .error failure := by
  show StateT.bind x f trees = _
  unfold StateT.bind
  cases x trees <;> rfl

@[simp ↓] theorem map_apply (f : α → β) (x : Reader α) (trees : List Tree) :
    (f <$> x) trees = match x trees with
      | .ok (value, rest) => .ok (f value, rest)
      | .error failure => .error failure := by
  show StateT.map f x trees = _
  unfold StateT.map
  cases x trees <;> rfl

@[simp ↓] theorem ite_apply (c : Prop) [Decidable c] (x y : Reader α) (trees : List Tree) :
    (if c then x else y) trees = if c then x trees else y trees := by
  split <;> rfl

@[simp] theorem pure_apply (value : α) (trees : List Tree) :
    (pure value : Reader α) trees = .ok (value, trees) := rfl

@[simp] theorem fail_apply (failure : Failure) (trees : List Tree) :
    (fail failure : Reader α) trees = .error failure := rfl

@[simp] theorem peek_apply (look : Look) (trees : List Tree) :
    peek look trees = .ok (look trees, trees) := rfl

@[simp] theorem atEnd_apply (trees : List Tree) : atEnd trees = .ok (trees.isEmpty, trees) := rfl

@[simp] theorem get_apply (trees : List Tree) :
    (get : Reader (List Tree)) trees = .ok (trees, trees) := rfl

@[simp] theorem set_apply (trees others : List Tree) :
    (set others : Reader PUnit) trees = .ok (⟨⟩, others) := rfl

@[simp] theorem word_apply (name : String) (trees : List Tree) :
    word name (.leaf (.word false name) :: trees) = .ok ([.leaf (.word false name)], trees) := by
  simp [word]

@[simp] theorem op_apply (marks : String) {c : Char} {joint : Bool} :
    op marks (.leaf (.mark c joint) :: trees) =
      match marks? marks.toList (.leaf (.mark c joint) :: trees) with
      | some rest => .ok (Tree.operator marks.toList, rest)
      | none => .error (.expected [quoted marks] false) := rfl

@[simp] theorem name_apply (raw : Bool) (text : String) (trees : List Tree) :
    Reader.name (.leaf (.word raw text) :: trees) =
      if raw || !keywords.contains text then .ok (⟨raw, text⟩, trees)
      else .error (.keyword text) := rfl

@[simp] theorem anyName_apply {raw : Bool} {text : String} :
    anyName (.leaf (.word raw text) :: trees) = .ok (⟨raw, text⟩, trees) := rfl

@[simp] theorem lifetime_apply {name : String} :
    lifetime (.leaf (.lifetime name) :: trees) = .ok ([.leaf (.lifetime name)], trees) := rfl

@[simp] theorem inside_apply (delimiter : Delimiter) (inner : Reader α) (content : List Tree) :
    inside delimiter inner (.group delimiter content :: trees) = match inner content with
      | .ok (value, []) => .ok (value, trees)
      | .ok (_, _ :: _) => .error (.leftover (some delimiter))
      | .error failure => .error failure := if_pos rfl

@[simp] theorem rawGroup_apply {delimiter : Delimiter} {content : List Tree} :
    rawGroup (.group delimiter content :: trees) = .ok ((delimiter, content), trees) := rfl

@[simp] theorem cat_nil : cat [] trees = .ok ([], trees) := rfl

@[simp ↓] theorem cat_cons (part : Reader Spelling) (parts : List (Reader Spelling))
    (trees : List Tree) : cat (part :: parts) trees = (do
      let text ← part
      let more ← cat parts
      return text ++ more) trees := rfl

@[simp ↓] theorem loop_apply (step : σ → Reader (σ ⊕ ρ)) (state : σ) (trees : List Tree) :
    loop step state trees = loopIn step trees state trees := rfl

@[simp ↓] theorem loopIn_apply (step : σ → Reader (σ ⊕ ρ)) (fuel : List Tree) (state : σ)
    (trees : List Tree) :
    loopIn step fuel state trees = match step state trees with
      | .ok (.inr result, rest) => .ok (result, rest)
      | .ok (.inl next, rest) => match fuel with
        | [] => .error .tooDeep
        | _ :: fuel => loopIn step fuel next rest
      | .error failure => .error failure := by
  rw [loopIn.eq_def, bind_apply]
  cases step state trees with
  | error => rfl
  | ok found =>
    obtain ⟨next | result, rest⟩ := found
    · cases fuel <;> rfl
    · rfl

@[simp] theorem outerAttributes_nil {r : Rules} (h : Look.op "#" trees = false) :
    outerAttributes r trees = .ok ([], trees) := by
  simp [outerAttributes, collect, h]

@[simp] theorem outer_nil {r : Rules} (h : Look.op "#" trees = false) :
    outer r trees = .ok ([], trees) := by
  simp [outer, outerSpelling, h]

/-- A loop ends with the step that gives a result. -/
theorem loop_last {step : σ → Reader (σ ⊕ ρ)} {state : σ} {result : ρ}
    (h : step state trees = .ok (.inr result, rest)) : loop step state trees = .ok (result, rest) := by
  simp [h]

theorem loopIn_mono {step : σ → Reader (σ ⊕ ρ)} {fuel more : List Tree} {state : σ}
    {found : ρ × List Tree} (h : loopIn step fuel state trees = .ok found)
    (hle : fuel.length ≤ more.length) : loopIn step more state trees = .ok found := by
  induction fuel generalizing more state trees with
  | nil =>
    rw [loopIn_apply] at h ⊢
    cases hstep : step state trees with
    | error e => simp [hstep] at h
    | ok next =>
      obtain ⟨next | result, rest⟩ := next
      · simp [hstep] at h
      · simpa [hstep] using h
  | cons tree fuel ih =>
    cases more with
    | nil => simp at hle
    | cons other more =>
      rw [loopIn_apply] at h ⊢
      cases hstep : step state trees with
      | error e => simp [hstep] at h
      | ok next =>
        obtain ⟨next | result, rest⟩ := next
        · simp only [hstep] at h ⊢
          exact ih h (by simpa using hle)
        · simpa [hstep] using h

/-- A loop goes on from a step that takes a tree. -/
theorem loop_next {step : σ → Reader (σ ⊕ ρ)} {state next : σ} {found : ρ × List Tree}
    (h : step state trees = .ok (.inl next, rest)) (hlt : rest.length < trees.length)
    (hrest : loop step next rest = .ok found) : loop step state trees = .ok found := by
  rw [loop_apply] at hrest ⊢
  cases trees with
  | nil => simp at hlt
  | cons tree trees =>
    rw [loopIn_apply, h]
    exact loopIn_mono hrest (by simpa [Nat.lt_succ_iff] using hlt)

/-- The part reads these trees, whatever follows them. -/
structure Takes (part : Reader α) (trees : List Tree) (value : α) : Prop where
  nonempty : trees ≠ []
  read : ∀ rest, part (trees ++ rest) = .ok (value, rest)

theorem many_takes {part : Reader Spelling} {pieces : List (List Tree)} {texts : List Spelling}
    (h : List.Forall₂ (Takes part) pieces texts) :
    many Look.nothing part pieces.flatten = .ok (texts.flatten, []) := by
  suffices hloop : ∀ before, loop (fun text => do
      if ← peek Look.nothing then return .inr text
      return .inl (text ++ (← part))) before pieces.flatten = .ok (before ++ texts.flatten, []) from
    hloop []
  induction h with
  | nil =>
    intro before
    refine loop_last ?_
    simp
  | @cons piece text pieces texts hpiece _ ih =>
    intro before
    have hempty : (piece ++ pieces.flatten).isEmpty = false := by simp [hpiece.nonempty]
    rw [List.flatten_cons, List.flatten_cons, ← List.append_assoc]
    refine loop_next ?_ ?_ (ih (before ++ text))
    · simp [hempty, hpiece.read]
    · rw [List.length_append]
      have := List.length_pos_iff.mpr hpiece.nonempty
      omega

theorem many_one {part : Reader Spelling} {text : Spelling} (h : Takes part trees text) :
    many Look.nothing part trees = .ok (text, []) := by
  simpa using many_takes (.cons h .nil)

/-- The same text for each of some entries. -/
theorem many_flatMap {ε : Type} {part : Reader Spelling} {entries : List ε} {spelling : ε → Spelling}
    (h : ∀ e ∈ entries, Takes part (spelling e) (spelling e)) :
    many Look.nothing part (entries.flatMap spelling) = .ok (entries.flatMap spelling, []) := by
  refine many_takes ?_
  rw [List.forall₂_map_left_iff, List.forall₂_map_right_iff, List.forall₂_same]
  exact h

theorem commaList_one {part : Reader Spelling} {text : Spelling} (hne : trees ≠ [])
    (h : part trees = .ok (text, [])) : commaList part trees = .ok (text, []) := by
  simp [↓commaList, ↓separated, hne, h]

/-- Parts with a comma after each of them. -/
theorem commaList_takes {ε : Type} {part : Reader Spelling} {entries : List ε}
    {spelling : ε → Spelling} (h : ∀ e ∈ entries, spelling e ≠ [] ∧ ∀ rest,
      part (spelling e ++ .leaf (.mark ',' false) :: rest) =
        .ok (spelling e, .leaf (.mark ',' false) :: rest)) :
    commaList part (entries.flatMap fun e => spelling e ++ [.leaf (.mark ',' false)]) =
      .ok (entries.flatMap fun e => spelling e ++ [.leaf (.mark ',' false)], []) := by
  suffices hloop : ∀ before, loop (fun text => do
      if ← peek Look.nothing then return .inr text
      let text := text ++ (← part)
      if ← peek Look.nothing then return .inr text
      return .inl (text ++ (← op ","))) before
        (entries.flatMap fun e => spelling e ++ [.leaf (.mark ',' false)]) =
      .ok (before ++ entries.flatMap fun e => spelling e ++ [.leaf (.mark ',' false)], []) from
    hloop []
  induction entries with
  | nil =>
    intro before
    refine loop_last ?_
    simp
  | cons e entries ih =>
    intro before
    obtain ⟨hne, hread⟩ := h e List.mem_cons_self
    have hnext := ih (fun e he => h e (List.mem_cons_of_mem _ he))
      (before ++ (spelling e ++ [.leaf (.mark ',' false)]))
    rw [List.flatMap_cons, ← List.append_assoc]
    refine loop_next ?_ ?_ hnext
    · simp [hread, hne, marks?]
    · simp only [List.length_append, List.length_singleton]
      omega

end Reader

end Grammar

end ComponentRegistry
