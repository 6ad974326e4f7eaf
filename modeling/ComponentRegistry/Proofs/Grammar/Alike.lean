import ComponentRegistry.Grammar.SourceFile
import ComponentRegistry.Proofs.Grammar.ReadNames

/-! Readers that read alike whatever is short enough. A reader takes a tree before it calls one of
the rules, or calls it on what is left of a bracket, so two records of rules that agree on all shorter
lists make readers that agree on a longer one. `Reader.Alike` says this of two readers and has an
instance for each way to put readers together; that for a reader of the grammar is found by following
its definition. -/

namespace ComponentRegistry

namespace Tree

theorem sizeAll_append (trees others : List Tree) :
    sizeAll (trees ++ others) = sizeAll trees + sizeAll others := by
  induction trees with
  | nil => simp [sizeAll]
  | cons tree trees ih => rw [List.cons_append, sizeAll, sizeAll, ih, Nat.add_assoc]

theorem sizeAll_le_of_suffix {rest trees : List Tree} (h : rest <:+ trees) :
    sizeAll rest ≤ sizeAll trees := by
  obtain ⟨taken, rfl⟩ := h
  rw [sizeAll_append]
  exact Nat.le_add_left ..

theorem size_pos (tree : Tree) : 0 < size tree := by
  cases tree with
  | leaf token => rw [size]; exact Nat.one_pos
  | group delimiter inner => rw [size]; omega

end Tree

namespace Grammar

open Tree

/-- The trees are fewer than `n`, or at most `n` as long as none has been taken. -/
def Within (n : Nat) (fresh : Bool) (trees : List Tree) : Prop := sizeAll trees < n + fresh.toNat

namespace Within

variable {n : Nat} {fresh : Bool} {trees rest : List Tree}

theorem suffix (h : Within n fresh trees) (hrest : rest <:+ trees) : Within n fresh rest :=
  Nat.lt_of_le_of_lt (sizeAll_le_of_suffix hrest) h

theorem shorter (h : Within n fresh trees) (hlt : sizeAll rest < sizeAll trees) :
    Within n false rest := by
  have := Bool.toNat_le fresh
  simp only [Within, Bool.toNat_false] at h ⊢
  omega

end Within

namespace Reader

variable {α β γ ε σ ρ : Type} {n : Nat} {fresh : Bool} {trees rest : List Tree} {x y : Reader α}
  {f g : α → Reader β}

/-- Two readers come to the same result on all lists within reach, and leave an end of the list. -/
class Alike (n : Nat) (fresh : Bool) (x y : Reader α) : Prop where
  same : ∀ {trees}, Within n fresh trees → x trees = y trees
  suffix : ∀ {trees value rest}, Within n fresh trees → x trees = .ok (value, rest) → rest <:+ trees

/-- A reader takes something of every list within reach. -/
class Eats (n : Nat) (fresh : Bool) (x : Reader α) : Prop where
  shorter : ∀ {trees value rest}, Within n fresh trees → x trees = .ok (value, rest) →
    sizeAll rest < sizeAll trees

/-- A reader that depends on no rule is like itself. -/
theorem Alike.self (h : ∀ {trees value rest}, x trees = .ok (value, rest) → rest <:+ trees) :
    Alike n fresh x x := ⟨fun _ => rfl, fun _ => h⟩

theorem Alike.left (h : Alike n fresh x y) : Alike n fresh x x := ⟨fun _ => rfl, h.suffix⟩

theorem Alike.succ (h : Alike n true x y) : Alike (n + 1) false x y := ⟨h.same, h.suffix⟩

/-- Two families of readers are alike. -/
class AlikeAll (n : Nat) (fresh : Bool) (f g : α → Reader β) : Prop where
  all : ∀ value, Alike n fresh (f value) (g value)

instance (priority := low) AlikeAll.of_all [h : ∀ value, Alike n fresh (f value) (g value)] :
    AlikeAll n fresh f g := ⟨h⟩

instance AlikeAll.pair {f g : α × γ → Reader β}
    [h : ∀ first second, Alike n fresh (f (first, second)) (g (first, second))] :
    AlikeAll n fresh f g := ⟨fun value => h value.1 value.2⟩

instance AlikeAll.sum {f g : α ⊕ γ → Reader β}
    [hl : ∀ value, Alike n fresh (f (.inl value)) (g (.inl value))]
    [hr : ∀ value, Alike n fresh (f (.inr value)) (g (.inr value))] : AlikeAll n fresh f g where
  all
  | .inl value => hl value
  | .inr value => hr value

instance AlikeAll.option {f g : Option α → Reader β} [hn : Alike n fresh (f none) (g none)]
    [hs : ∀ value, Alike n fresh (f (some value)) (g (some value))] : AlikeAll n fresh f g where
  all
  | none => hn
  | some value => hs value

/-! Ways to put readers together. -/

/-- What follows a reader that takes a tree is on a shorter list. -/
instance Alike.bind_eats [hx : Eats n fresh x] [hxy : Alike n fresh x y]
    [hfg : AlikeAll n false f g] : Alike n fresh (x >>= f) (y >>= g) where
  same {trees} htrees := by
    rw [bind_apply, bind_apply, ← hxy.same htrees]
    cases hread : x trees with
    | error => rfl
    | ok found => exact (hfg.all found.1).same (htrees.shorter (hx.shorter htrees hread))
  suffix {trees value rest} htrees h := by
    rw [bind_apply] at h
    cases hread : x trees with
    | error => simp [hread] at h
    | ok found =>
      rw [hread] at h
      exact ((hfg.all found.1).suffix (htrees.shorter (hx.shorter htrees hread)) h).trans
        (hxy.suffix htrees hread)

instance (priority := low) Alike.bind [hxy : Alike n fresh x y] [hfg : AlikeAll n fresh f g] :
    Alike n fresh (x >>= f) (y >>= g) where
  same {trees} htrees := by
    rw [bind_apply, bind_apply, ← hxy.same htrees]
    cases hread : x trees with
    | error => rfl
    | ok found => exact (hfg.all found.1).same (htrees.suffix (hxy.suffix htrees hread))
  suffix {trees value rest} htrees h := by
    rw [bind_apply] at h
    cases hread : x trees with
    | error => simp [hread] at h
    | ok found =>
      rw [hread] at h
      exact ((hfg.all found.1).suffix (htrees.suffix (hxy.suffix htrees hread)) h).trans
        (hxy.suffix htrees hread)

/-- Where no instance fits what follows. -/
theorem Alike.andThen (hxy : Alike n fresh x y) (hfg : ∀ value, Alike n fresh (f value) (g value)) :
    Alike n fresh (x >>= f) (y >>= g) :=
  have : AlikeAll n fresh f g := ⟨hfg⟩
  .bind

theorem Alike.eatsThen [Eats n fresh x] (hxy : Alike n fresh x y)
    (hfg : ∀ value, Alike n false (f value) (g value)) : Alike n fresh (x >>= f) (y >>= g) :=
  have : AlikeAll n false f g := ⟨hfg⟩
  .bind_eats

instance Eats.bind_left [hx : Eats n fresh x] [hf : AlikeAll n false f f] :
    Eats n fresh (x >>= f) where
  shorter {trees value rest} htrees h := by
    obtain ⟨first, middle, hread, h⟩ := exists_of_bind h
    have hlt := hx.shorter htrees hread
    exact Nat.lt_of_le_of_lt (sizeAll_le_of_suffix
      ((hf.all first).suffix (htrees.shorter hlt) h)) hlt

instance Eats.bind_right [hx : Alike n fresh x x] [hf : ∀ value, Eats n fresh (f value)] :
    Eats n fresh (x >>= f) where
  shorter {trees value rest} htrees h := by
    obtain ⟨first, middle, hread, h⟩ := exists_of_bind h
    have hsuffix := hx.suffix htrees hread
    exact Nat.lt_of_lt_of_le ((hf first).shorter (htrees.suffix hsuffix) h)
      (sizeAll_le_of_suffix hsuffix)

instance Alike.ite {c : Prop} [Decidable c] {x' y' : Reader α} [h : Alike n fresh x y]
    [h' : Alike n fresh x' y'] : Alike n fresh (if c then x else x') (if c then y else y') := by
  split
  · exact h
  · exact h'

instance Eats.ite {c : Prop} [Decidable c] {x' : Reader α} [h : Eats n fresh x]
    [h' : Eats n fresh x'] : Eats n fresh (if c then x else x') := by
  split
  · exact h
  · exact h'

/-- A loop has the same fuel for both. -/
instance Alike.loop {step step' : σ → Reader (σ ⊕ ρ)} {state : σ}
    [hstep : ∀ state, Alike n fresh (step state) (step' state)] :
    Alike n fresh (loop step state) (loop step' state) where
  same {trees} htrees := by
    suffices hloop : ∀ (fuel : List Tree) {state : σ} {trees : List Tree}, Within n fresh trees →
        loopIn step fuel state trees = loopIn step' fuel state trees from hloop trees htrees
    intro fuel
    induction fuel with
    | nil =>
      intro state trees htrees
      rw [loopIn_apply, loopIn_apply, (hstep state).same htrees]
    | cons tree fuel ih =>
      intro state trees htrees
      rw [loopIn_apply, loopIn_apply, ← (hstep state).same htrees]
      cases hread : step state trees with
      | error => rfl
      | ok found =>
        obtain ⟨next | result, rest⟩ := found
        · exact ih (htrees.suffix ((hstep state).suffix htrees hread))
        · rfl
  suffix {trees value rest} htrees h := by
    refine loop_induction (fun _ rest => rest <:+ trees) (fun _ rest => rest <:+ trees)
      (fun hinv hread => ?_) (fun hinv hread => ?_) (List.suffix_refl trees) h
    · exact ((hstep _).suffix (htrees.suffix hinv) hread).trans hinv
    · exact ((hstep _).suffix (htrees.suffix hinv) hread).trans hinv

instance Eats.loop {step : σ → Reader (σ ⊕ ρ)} {state : σ}
    [hstep : ∀ state, Eats n fresh (step state)] : Eats n fresh (loop step state) where
  shorter {trees value rest} htrees h := by
    refine loop_induction (fun _ rest => sizeAll rest ≤ sizeAll trees)
      (fun _ rest => sizeAll rest < sizeAll trees)
      (fun hinv hread => ?_) (fun hinv hread => ?_) (Nat.le_refl _) h
    · exact Nat.le_trans
        (Nat.le_of_lt ((hstep _).shorter (Nat.lt_of_le_of_lt hinv htrees) hread)) hinv
    · exact Nat.lt_of_lt_of_le ((hstep _).shorter (Nat.lt_of_le_of_lt hinv htrees) hread) hinv

instance Alike.pure (value : α) : Alike n fresh (pure value : Reader α) (pure value) :=
  .self fun h => (Prod.mk.inj (Except.ok.inj h)).2 ▸ List.suffix_refl _

theorem Alike.forIn {items : List σ} {state : ρ} {step step' : σ → ρ → Reader (ForInStep ρ)}
    (h : ∀ item ∈ items, ∀ state, Alike n fresh (step item state) (step' item state)) :
    Alike n fresh (forIn items state step) (forIn items state step') := by
  induction items generalizing state with
  | nil => exact .pure _
  | cons item items ih =>
    rw [List.forIn_cons, List.forIn_cons]
    refine .andThen (h item List.mem_cons_self state) fun next => ?_
    cases next with
    | done state => exact .pure _
    | yield state => exact ih fun item hitem => h item (List.mem_cons_of_mem _ hitem)

instance Alike.peek (look : Look) : Alike n fresh (peek look) (peek look) :=
  .self fun h => (Prod.mk.inj (Except.ok.inj h)).2 ▸ List.suffix_refl _

instance Alike.get : Alike n fresh (get : Reader (List Tree)) get :=
  .self fun h => (Prod.mk.inj (Except.ok.inj h)).2 ▸ List.suffix_refl _

instance Alike.set_nil :
    Alike n fresh (set (σ := List Tree) [] : Reader PUnit) (set (σ := List Tree) []) :=
  .self fun h => (Prod.mk.inj (Except.ok.inj h)).2 ▸ List.nil_suffix

instance Alike.since (start : List Tree) : Alike n fresh (since start) (since start) :=
  .self fun h => (Prod.mk.inj (Except.ok.inj h)).2 ▸ List.suffix_refl _

instance Alike.atEnd : Alike n fresh atEnd atEnd := by unfold Reader.atEnd; infer_instance

instance Alike.fail (failure : Failure) : Alike n fresh (fail failure : Reader α) (fail failure) :=
  .self nofun

instance Eats.fail (failure : Failure) : Eats n fresh (fail failure : Reader α) := ⟨nofun⟩

instance Alike.expected (wanted : List String) :
    Alike n fresh (expected wanted : Reader α) (expected wanted) := .self nofun

instance Eats.expected (wanted : List String) : Eats n fresh (expected wanted : Reader α) := ⟨nofun⟩

instance Alike.refuse (reason : String) :
    Alike n fresh (refuse reason : Reader α) (refuse reason) := .self nofun

instance Eats.refuse (reason : String) : Eats n fresh (refuse reason : Reader α) := ⟨nofun⟩

/-! A reader may go back to a list that it has got hold of. -/

/-- Two readers come to the same result on `trees`, and leave an end of `start`. -/
structure AlikeFrom (start trees : List Tree) (x y : Reader α) : Prop where
  same : x trees = y trees
  suffix : ∀ {value rest}, x trees = .ok (value, rest) → rest <:+ start

section From

variable {start : List Tree}

theorem Alike.from (h : Alike n fresh x y) (htrees : Within n fresh trees)
    (hstart : trees <:+ start) : AlikeFrom start trees x y :=
  ⟨h.same htrees, fun hread => (h.suffix htrees hread).trans hstart⟩

theorem Alike.get_bind {f g : List Tree → Reader α}
    (h : ∀ trees, Within n fresh trees → AlikeFrom trees trees (f trees) (g trees)) :
    Alike n fresh (MonadState.get >>= f) (MonadState.get >>= g) :=
  ⟨fun htrees => (h _ htrees).same, fun htrees => (h _ htrees).suffix⟩

theorem AlikeFrom.set_bind (h : AlikeFrom start rest x y) :
    AlikeFrom start trees (set rest >>= fun _ => x) (set rest >>= fun _ => y) :=
  ⟨h.same, h.suffix⟩

theorem AlikeFrom.peek_bind {look : Look} {f g : Bool → Reader α}
    (h : AlikeFrom start trees (f (look trees)) (g (look trees))) :
    AlikeFrom start trees (peek look >>= f) (peek look >>= g) :=
  ⟨h.same, h.suffix⟩

theorem AlikeFrom.bind (hxy : Alike n fresh x y) (htrees : Within n fresh trees)
    (h : ∀ value rest, rest <:+ trees → AlikeFrom start rest (f value) (g value)) :
    AlikeFrom start trees (x >>= f) (y >>= g) where
  same := by
    rw [bind_apply, bind_apply, ← hxy.same htrees]
    cases hread : x trees with
    | error => rfl
    | ok found => exact (h found.1 found.2 (hxy.suffix htrees hread)).same
  suffix {value rest} hread := by
    obtain ⟨first, middle, hfirst, hread⟩ := exists_of_bind hread
    exact (h first middle (hxy.suffix htrees hfirst)).suffix hread

end From

/-! Single tokens. -/

theorem sizeAll_lt_cons (tree : Tree) (trees : List Tree) :
    sizeAll trees < sizeAll (tree :: trees) := by
  rw [sizeAll]
  exact Nat.lt_add_of_pos_left (size_pos tree)

/-- A reader takes exactly one tree. -/
class TakesOne (x : Reader α) : Prop where
  takes : ∀ {trees value rest}, x trees = .ok (value, rest) → ∃ tree, trees = tree :: rest

instance TakesOne.alike [h : TakesOne x] : Alike n fresh x x := .self fun hread => by
  obtain ⟨tree, rfl⟩ := h.takes hread
  exact List.suffix_cons ..

instance TakesOne.eats [h : TakesOne x] : Eats n fresh x := ⟨fun _ hread => by
  obtain ⟨tree, rfl⟩ := h.takes hread
  exact sizeAll_lt_cons ..⟩

instance TakesOne.word (name : String) : TakesOne (word name) where
  takes h := by
    unfold Reader.word at h
    split at h
    · split at h
      · exact ⟨_, by rw [(Prod.mk.inj (Except.ok.inj h)).2]⟩
      · cases h
    · cases h

instance TakesOne.name : TakesOne name := ⟨fun h => ⟨_, (name_word h).1⟩⟩

instance TakesOne.anyName : TakesOne anyName := ⟨fun h => ⟨_, anyName_word h⟩⟩

instance TakesOne.lifetime : TakesOne lifetime where
  takes h := by
    unfold Reader.lifetime at h
    split at h
    · exact ⟨_, by rw [(Prod.mk.inj (Except.ok.inj h)).2]⟩
    · cases h

instance TakesOne.string : TakesOne string where
  takes h := by
    unfold Reader.string at h
    split at h
    · split at h
      · exact ⟨_, by rw [(Prod.mk.inj (Except.ok.inj h)).2]⟩
      · cases h
    · cases h

instance TakesOne.rawGroup : TakesOne rawGroup where
  takes h := by
    unfold Reader.rawGroup at h
    split at h
    · exact ⟨_, by rw [(Prod.mk.inj (Except.ok.inj h)).2]⟩
    · cases h

instance TakesOne.inside {delimiter : Delimiter} : TakesOne (inside delimiter x) where
  takes h := by
    unfold Reader.inside at h
    split at h
    next =>
      split at h
      · split at h
        · exact ⟨_, by rw [(Prod.mk.inj (Except.ok.inj h)).2]⟩
        · cases h
        · cases h
      · cases h
    next => cases h

instance Alike.ident : Alike n fresh ident ident := by unfold Reader.ident; infer_instance

instance Eats.ident : Eats n fresh ident := by unfold Reader.ident; infer_instance

instance Alike.anyIdent : Alike n fresh anyIdent anyIdent := by
  unfold Reader.anyIdent; infer_instance

instance Eats.anyIdent : Eats n fresh anyIdent := by unfold Reader.anyIdent; infer_instance

theorem literal_suffix {text : Spelling} (h : literal trees = .ok (text, rest)) :
    rest <:+ trees := by
  unfold literal at h
  split at h
  next =>
    split at h
    · rw [← (Prod.mk.inj (Except.ok.inj h)).2]
      exact (List.suffix_cons ..).trans (List.suffix_cons ..)
    · rw [← (Prod.mk.inj (Except.ok.inj h)).2]
      exact List.suffix_cons ..
    · cases h
  next => cases h

instance Alike.literal : Alike n fresh literal literal := .self literal_suffix

theorem marks?_suffix {marks : List Char} (h : marks? marks trees = some rest) :
    rest <:+ trees ∧ (marks ≠ [] → sizeAll rest < sizeAll trees) := by
  fun_induction marks? marks trees with
  | case1 => exact ⟨(Option.some.inj h) ▸ List.suffix_refl _, fun hne => absurd rfl hne⟩
  | case2 => exact ⟨(Option.some.inj h) ▸ List.suffix_cons .., fun _ =>
      (Option.some.inj h) ▸ sizeAll_lt_cons ..⟩
  | case3 => cases h
  | case4 _ _ _ _ ih =>
    have hsuffix := (ih h).1
    exact ⟨hsuffix.trans (List.suffix_cons ..), fun _ =>
      Nat.lt_of_le_of_lt (sizeAll_le_of_suffix hsuffix) (sizeAll_lt_cons ..)⟩
  | case5 => cases h
  | case6 => cases h

theorem marks?_of_op {marks : String} {text : Spelling} (h : op marks trees = .ok (text, rest)) :
    marks? marks.toList trees = some rest := by
  unfold op at h
  split at h
  next hmarks =>
    obtain ⟨-, rfl⟩ := Prod.mk.inj (Except.ok.inj h)
    exact hmarks
  next => cases h

instance Alike.op (marks : String) : Alike n fresh (op marks) (op marks) :=
  .self fun h => (marks?_suffix (marks?_of_op h)).1

theorem Eats.op {marks : String} (hmarks : marks ≠ "") : Eats n fresh (op marks) where
  shorter _ h := (marks?_suffix (marks?_of_op h)).2 fun hnil => hmarks (String.toList_inj.mp hnil)

/-! Optional parts, lists and brackets. -/

instance Alike.optional {look : Look} {x y : Reader Spelling} [Alike n fresh x y] :
    Alike n fresh (optional look x) (optional look y) := by
  unfold Reader.optional; infer_instance

instance Alike.optWord (name : String) : Alike n fresh (optWord name) (optWord name) := by
  unfold Reader.optWord; infer_instance

instance Alike.optOp (marks : String) : Alike n fresh (optOp marks) (optOp marks) := by
  unfold Reader.optOp; infer_instance

instance Alike.cat_nil : Alike n fresh (cat []) (cat []) := Alike.pure _

instance Alike.cat_eats {x y : Reader Spelling} {xs ys : List (Reader Spelling)}
    [Eats n fresh x] [Alike n fresh x y] [Alike n false (cat xs) (cat ys)] :
    Alike n fresh (cat (x :: xs)) (cat (y :: ys)) := by
  unfold Reader.cat; infer_instance

instance (priority := low) Alike.cat_cons {x y : Reader Spelling} {xs ys : List (Reader Spelling)}
    [Alike n fresh x y] [Alike n fresh (cat xs) (cat ys)] :
    Alike n fresh (cat (x :: xs)) (cat (y :: ys)) := by
  unfold Reader.cat; infer_instance

instance Eats.cat_head {x : Reader Spelling} {xs : List (Reader Spelling)} [Eats n fresh x]
    [Alike n false (cat xs) (cat xs)] : Eats n fresh (cat (x :: xs)) := by
  unfold Reader.cat; infer_instance

instance (priority := low) Eats.cat_tail {x : Reader Spelling} {xs : List (Reader Spelling)}
    [Alike n fresh x x] [Eats n fresh (cat xs)] : Eats n fresh (cat (x :: xs)) := by
  unfold Reader.cat; infer_instance

instance Alike.many {stop : Look} {x y : Reader Spelling} [Alike n fresh x y] :
    Alike n fresh (many stop x) (many stop y) := by
  unfold Reader.many; infer_instance

instance Alike.separated {stop : Look} {marks : String} {x y : Reader Spelling}
    [Alike n fresh x y] : Alike n fresh (separated stop x marks) (separated stop y marks) := by
  unfold Reader.separated; dsimp only; infer_instance

instance Alike.joined {stop : Look} {marks : String} {x y : Reader Spelling}
    [Alike n fresh x y] : Alike n fresh (joined stop x marks) (joined stop y marks) := by
  unfold Reader.joined; dsimp only; infer_instance

instance Alike.commaList {x y : Reader Spelling} [Alike n fresh x y] :
    Alike n fresh (commaList x) (commaList y) := by
  unfold Reader.commaList; infer_instance

/-- What stands in a bracket is shorter than the bracket. -/
instance Alike.inside {delimiter : Delimiter} [hxy : Alike n false x y] :
    Alike n fresh (inside delimiter x) (inside delimiter y) where
  same {trees} htrees := by
    unfold Reader.inside
    split
    next found content rest =>
      have hlt : sizeAll content < sizeAll (.group found content :: rest) := by
        simp only [sizeAll, size]
        omega
      rw [hxy.same (htrees.shorter hlt)]
    next => rfl
  suffix htrees h := by
    obtain ⟨tree, rfl⟩ := TakesOne.takes h
    exact List.suffix_cons ..

instance Alike.enclosed {delimiter : Delimiter} {x y : Reader Spelling} [Alike n false x y] :
    Alike n fresh (enclosed delimiter x) (enclosed delimiter y) := by
  unfold Reader.enclosed; infer_instance

instance Alike.remaining : Alike n fresh remaining remaining :=
  .self fun h => (Prod.mk.inj (Except.ok.inj h)).2 ▸ List.nil_suffix

end Reader

end Grammar

end ComponentRegistry
