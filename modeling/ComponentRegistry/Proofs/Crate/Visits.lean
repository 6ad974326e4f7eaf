import ComponentRegistry.Proofs.Crate.Search

/-! The files that a search visits, in their order. What the search finds is what stands in them
(`Sources.found_of_run`), and it depends on nothing but the paths at which it looks while it visits
them (`Sources.run_congr_of_visits`). -/

namespace ComponentRegistry

namespace Sources

variable {s s₁ s₂ : Sources} {directory : FilePath} {n : Nat} {search final : Search}

/-- The files that are visited during at most `n` turns. The last one may be a file that cannot be
read. -/
def visits (s : Sources) (directory : FilePath) : Nat → Search → List ModuleFile
  | 0, _ => []
  | n + 1, search =>
    match search.due with
    | [] => []
    | m :: rest => m ::
      match s.read (directory.join m.path) with
      | .error _ => []
      | .ok text => s.visits directory n (s.after directory search m rest text)

/-- The declarations in a file. -/
def nodesIn (s : Sources) (directory : FilePath) (m : ModuleFile) : List Node :=
  match s.read (directory.join m.path) with
  | .ok text => (Outline.ofText m.path.key m.modulePath text).nodes
  | .error _ => []

/-- The paths that are tried until one of them is that of a file. -/
def tried (s : Sources) (paths : List FilePath) : List FilePath :=
  paths.takeWhile (!s.isFile ·) ++ (paths.find? s.isFile).toList

/-- The paths at which the modules of a file are looked for. -/
def probes (s : Sources) (directory : FilePath) (m : ModuleFile) : List FilePath :=
  match s.read (directory.join m.path) with
  | .ok text => (Outline.ofText m.path.key m.modulePath text).modules.flatMap fun decl =>
    s.tried ((m.candidates decl).map (directory.join ·.path))
  | .error _ => []

theorem visits_of_due_nil (h : search.due = []) : s.visits directory n search = [] := by
  cases n with
  | zero => rfl
  | succ n => rw [visits, h]

theorem visits_of_due_cons {m : ModuleFile} {rest : List ModuleFile} {text : String}
    (h : search.due = m :: rest) (hread : s.read (directory.join m.path) = .ok text) :
    s.visits directory (n + 1) search =
      m :: s.visits directory n (s.after directory search m rest text) := by
  rw [visits, h]
  dsimp only
  rw [hread]

theorem mem_visits_of_due {m : ModuleFile} {rest : List ModuleFile} (h : search.due = m :: rest) :
    m ∈ s.visits directory (n + 1) search := by
  rw [visits, h]
  exact List.mem_cons_self

/-- What holds of the pending files, and of those that a visited file leads to, holds of all files
that are visited. -/
theorem visits_induction {P : ModuleFile → Prop} (hpending : ∀ m ∈ search.pending, P m)
    (hchild : ∀ {m}, m ∈ s.visits directory n search → P m →
      ∀ text, s.read (directory.join m.path) = .ok text →
      ∀ decl ∈ (Outline.ofText m.path.key m.modulePath text).modules,
      ∀ child, s.child? directory m decl = some child → P child) :
    ∀ m ∈ s.visits directory n search, P m := by
  induction n generalizing search with
  | zero => simp [visits]
  | succ n ih =>
    cases hdue : search.due with
    | nil => simp [visits_of_due_nil hdue]
    | cons m rest =>
      have hrest : ∀ m' ∈ m :: rest, P m' := fun m' hm' =>
        hpending m' ((List.dropWhile_sublist _).subset (hdue ▸ hm'))
      have hm := hrest m List.mem_cons_self
      cases hread : s.read (directory.join m.path) with
      | error e => simpa [visits, hdue, hread] using hm
      | ok text =>
        rw [visits_of_due_cons hdue hread] at hchild ⊢
        refine List.forall_mem_cons.mpr ⟨hm, ih (fun c hc => ?_) fun hc =>
          hchild (List.mem_cons_of_mem _ hc)⟩
        rcases List.mem_append.mp hc with hc | hc
        · obtain ⟨decl, hdecl, hc⟩ := List.mem_filterMap.mp hc
          exact hchild List.mem_cons_self hm text hread decl hdecl c hc
        · exact hrest c (List.mem_cons_of_mem _ hc)

/-- A search finds what stands in the files that it visits. -/
theorem found_of_run (h : s.run directory n search = .ok final) :
    final.found.files = search.found.files ++
      (s.visits directory n search).map (directory.join ·.path) ∧
    final.found.nodes = search.found.nodes ++
      (s.visits directory n search).flatMap (s.nodesIn directory) := by
  induction n generalizing search with
  | zero =>
    obtain rfl := Except.ok.inj h
    simp [visits]
  | succ n ih =>
    rcases run_succ_cases h with ⟨hdue, rfl⟩ | ⟨m, rest, text, hdue, hread, hrun⟩
    · simp [visits_of_due_nil hdue]
    · obtain ⟨hfiles, hnodes⟩ := ih hrun
      have hm : s.nodesIn directory m = (Outline.ofText m.path.key m.modulePath text).nodes := by
        rw [nodesIn, hread]
      rw [visits_of_due_cons hdue hread, hfiles, hnodes]
      simp [after, hm]

/-- No path is visited twice, nor one that the search has come to before. -/
theorem nodup_visits : ((s.visits directory n search).map (·.path.identity)).Nodup ∧
    ∀ m ∈ s.visits directory n search, m.path.identity ∉ search.seen := by
  induction n generalizing search with
  | zero => simp [visits]
  | succ n ih =>
    cases hdue : search.due with
    | nil => simp [visits_of_due_nil hdue]
    | cons m rest =>
      have hfresh := fresh_of_due hdue
      cases hread : s.read (directory.join m.path) with
      | error e => simpa [visits, hdue, hread] using hfresh
      | ok text =>
        obtain ⟨hnodup, hseen⟩ := @ih (s.after directory search m rest text)
        rw [visits_of_due_cons hdue hread]
        refine ⟨List.nodup_cons.mpr ⟨fun hm => ?_, hnodup⟩, fun m' hm' => ?_⟩
        · obtain ⟨other, hother, hidentity⟩ := List.mem_map.mp hm
          exact hseen other hother (hidentity ▸ List.mem_cons_self)
        · rcases List.mem_cons.mp hm' with rfl | hm'
          · exact hfresh
          · exact fun hmem => hseen m' hm' (List.mem_cons_of_mem _ hmem)

theorem find?_eq_of_tried {α : Type} {f : α → FilePath} {xs : List α}
    (h : ∀ p ∈ s₁.tried (xs.map f), s₂.isFile p = s₁.isFile p) :
    (xs.find? fun x => s₂.isFile (f x)) = xs.find? fun x => s₁.isFile (f x) := by
  have hfind : (xs.map f).find? s₁.isFile = (xs.find? fun x => s₁.isFile (f x)).map f :=
    List.find?_map ..
  refine find?_eq_of_missed (fun x hx => ?_) fun x hx => ?_
  · have hfile : s₁.isFile (f x) = true := List.find?_some (p := fun x => s₁.isFile (f x)) hx
    rw [h (f x) (List.mem_append_right _ (by simp [hfind, hx])), hfile]
  · have hnofile : s₁.isFile (f x) = false := by
      simpa using List.all_eq_true.mp (List.all_takeWhile ..) x hx
    rw [h (f x) (List.mem_append_left _ ?_), hnofile]
    rw [List.takeWhile_map]
    exact List.mem_map_of_mem hx

/-- Sources that are alike at all paths at which a search looks are searched in the same way. -/
theorem run_congr_of_visits (h : ∀ m ∈ s₁.visits directory n search,
      s₂.read (directory.join m.path) = s₁.read (directory.join m.path) ∧
      ∀ p ∈ s₁.probes directory m, s₂.isFile p = s₁.isFile p) :
    s₂.run directory n search = s₁.run directory n search := by
  induction n generalizing search with
  | zero => rfl
  | succ n ih =>
    cases hdue : search.due with
    | nil => rw [run_of_due_nil hdue, run_of_due_nil hdue]
    | cons m rest =>
      obtain ⟨hread, hprobes⟩ := h m (mem_visits_of_due hdue)
      rw [run_of_due_cons hdue, run_of_due_cons hdue, hread]
      cases htext : s₁.read (directory.join m.path) with
      | error e => rfl
      | ok text =>
        have hchild : ∀ decl ∈ (Outline.ofText m.path.key m.modulePath text).modules,
            s₂.child? directory m decl = s₁.child? directory m decl := by
          intro decl hdecl
          refine find?_eq_of_tried fun p hp => hprobes p ?_
          rw [probes, htext]
          exact List.mem_flatMap.mpr ⟨decl, hdecl, hp⟩
        dsimp only
        rw [after_congr hchild]
        rw [visits_of_due_cons hdue htext] at h
        exact ih fun m' hm' => h m' (List.mem_cons_of_mem _ hm')

end Sources

end ComponentRegistry
