import ComponentRegistry.Crate.Corpus
import Mathlib.Data.List.Basic

/-! What a search for the files of a crate keeps from turn to turn. Every file that was pending has
been come to at the end (`identity_mem_seen`), and a search that does not end has come to a new file
in every turn (`run_ends`). Two searches go the same way if they find the same files where one of
them has looked (`run_congr`, `missed_of_run`). -/

namespace ComponentRegistry

/-- The pending files from the first one on that the search has not come to. -/
def Search.due (search : Search) : List ModuleFile :=
  search.pending.dropWhile fun m => search.seen.contains m.path.identity

/-- The search after a file with this text. -/
def Sources.after (s : Sources) (directory : FilePath) (search : Search) (m : ModuleFile)
    (rest : List ModuleFile) (text : String) : Search :=
  let outline := Outline.ofText m.path.key m.modulePath text
  { seen := m.path.identity :: search.seen
    pending := outline.modules.filterMap (s.child? directory m) ++ rest
    found := ⟨search.found.files ++ [directory.join m.path], search.found.nodes ++ outline.nodes⟩ }

/-- The paths at which a module is looked for in vain. -/
def Sources.missed (s : Sources) (directory : FilePath) (m : ModuleFile) (decl : ModuleDecl) :
    List FilePath :=
  ((m.candidates decl).takeWhile fun child => !s.isFile (directory.join child.path)).map (·.path)

/-- The paths at which the modules of a file with this text are looked for in vain. -/
def Sources.missedBy (s : Sources) (directory : FilePath) (m : ModuleFile) (text : String) :
    List FilePath :=
  (Outline.ofText m.path.key m.modulePath text).modules.flatMap (s.missed directory m)

/-- The paths at which modules are looked for in vain during at most `n` turns. -/
def Sources.missedIn (s : Sources) (directory : FilePath) : Nat → Search → List FilePath
  | 0, _ => []
  | n + 1, search =>
    match search.due with
    | [] => []
    | m :: rest =>
      match s.read (directory.join m.path) with
      | .error _ => []
      | .ok text =>
        s.missedBy directory m text ++ s.missedIn directory n (s.after directory search m rest text)

namespace Sources

variable {s s₁ s₂ : Sources} {directory : FilePath} {n : Nat} {search final final₁ final₂ : Search}

theorem run_zero : s.run directory 0 search = .ok search := rfl

theorem run_of_pending_nil (h : search.pending = []) : s.run directory n search = .ok search := by
  cases n with
  | zero => rfl
  | succ n => simp [run, h]

theorem pending_ne_nil {m : ModuleFile} {rest : List ModuleFile} (h : search.due = m :: rest) :
    search.pending ≠ [] := by
  intro hnil
  simp [Search.due, hnil] at h

theorem run_of_due_nil (h : search.due = []) :
    s.run directory (n + 1) search = .ok { search with pending := [] } := by
  unfold run
  split
  next hempty =>
    obtain ⟨seen, pending, found⟩ := search
    obtain rfl : pending = [] := by simpa using hempty
    rfl
  next =>
    have hturn : s.turn directory search = .ok { search with pending := [] } := by
      unfold turn
      rw [show search.pending.dropWhile _ = [] from h]
    rw [hturn]
    exact run_of_pending_nil rfl

theorem run_of_due_cons {m : ModuleFile} {rest : List ModuleFile} (h : search.due = m :: rest) :
    s.run directory (n + 1) search =
      match s.read (directory.join m.path) with
      | .error e => .error (.read (directory.join m.path) e)
      | .ok text => s.run directory n (s.after directory search m rest text) := by
  have hturn : s.turn directory search = s.visit directory { search with pending := rest } m := by
    unfold turn
    rw [show search.pending.dropWhile _ = m :: rest from h]
  rw [run, if_neg (by simpa using pending_ne_nil h), hturn, visit]
  cases s.read (directory.join m.path) <;> rfl

/-- A search that succeeds has come to an end, or it reads a file and goes on. -/
theorem run_succ_cases (h : s.run directory (n + 1) search = .ok final) :
    (search.due = [] ∧ final = { search with pending := [] }) ∨
    ∃ m rest text, search.due = m :: rest ∧ s.read (directory.join m.path) = .ok text ∧
      s.run directory n (s.after directory search m rest text) = .ok final := by
  cases hdue : search.due with
  | nil =>
    rw [run_of_due_nil hdue] at h
    exact .inl ⟨rfl, (Except.ok.inj h).symm⟩
  | cons m rest =>
    rw [run_of_due_cons hdue] at h
    cases hread : s.read (directory.join m.path) with
    | error e => simp [hread] at h
    | ok text => exact .inr ⟨m, rest, text, rfl, hread, by simpa [hread] using h⟩

theorem fresh_of_due {m : ModuleFile} {rest : List ModuleFile} (h : search.due = m :: rest) :
    m.path.identity ∉ search.seen := by
  have hne : search.due ≠ [] := by simp [h]
  have hhead : search.seen.contains (search.due.head hne).path.identity = false :=
    List.head_dropWhile_not (fun m : ModuleFile => search.seen.contains m.path.identity) hne
  simpa [h] using hhead

/-- A pending file has been come to, or it is due. -/
theorem mem_due {c : ModuleFile} (hc : c ∈ search.pending) :
    c.path.identity ∈ search.seen ∨ c ∈ search.due := by
  have hsplit := List.takeWhile_append_dropWhile
    (p := fun m : ModuleFile => search.seen.contains m.path.identity) (l := search.pending)
  rw [← hsplit] at hc
  rcases List.mem_append.mp hc with hc | hc
  · have hall := List.all_takeWhile
      (p := fun m : ModuleFile => search.seen.contains m.path.identity) (l := search.pending)
    exact .inl (by simpa using List.all_eq_true.mp hall c hc)
  · exact .inr hc

theorem seen_subset (h : s.run directory n search = .ok final) : search.seen ⊆ final.seen := by
  induction n generalizing search with
  | zero => rw [← Except.ok.inj h]; exact List.Subset.refl _
  | succ n ih =>
    rcases run_succ_cases h with ⟨-, rfl⟩ | ⟨m, rest, text, -, -, hrun⟩
    · exact List.Subset.refl _
    · exact List.Subset.trans (List.subset_cons_self ..) (ih hrun)

/-- When the search has ended, it has come to all files that were pending. -/
theorem identity_mem_seen (h : s.run directory n search = .ok final) (hend : final.pending = [])
    {c : ModuleFile} (hc : c ∈ search.pending) : c.path.identity ∈ final.seen := by
  induction n generalizing search with
  | zero =>
    rw [← Except.ok.inj h] at hend
    simp [hend] at hc
  | succ n ih =>
    rcases run_succ_cases h with ⟨hdue, rfl⟩ | ⟨m, rest, text, hdue, -, hrun⟩
    · rcases mem_due hc with hc | hc
      · exact hc
      · simp [hdue] at hc
    · rcases mem_due hc with hc | hc
      · exact seen_subset hrun (List.mem_cons_of_mem _ hc)
      · rw [hdue] at hc
        rcases List.mem_cons.mp hc with rfl | hc
        · exact seen_subset hrun List.mem_cons_self
        · exact ih hrun (List.mem_append_right _ hc)

/-- What a search has come to are the files that it has read, each under one path. -/
structure Reads (s : Sources) (directory : FilePath) (search : Search) : Prop where
  nodup : search.seen.Nodup
  listed : ∀ x ∈ search.seen, ∃ p : FilePath, p.identity = x ∧ directory.join p ∈ search.found.files
  read : ∀ file ∈ search.found.files, ∃ text, s.read file = .ok text

theorem Reads.after (h : s.Reads directory search) {m : ModuleFile} {rest : List ModuleFile}
    {text : String} (hdue : search.due = m :: rest)
    (hread : s.read (directory.join m.path) = .ok text) :
    s.Reads directory (s.after directory search m rest text) where
  nodup := List.nodup_cons.mpr ⟨fresh_of_due hdue, h.nodup⟩
  listed x hx := by
    rcases List.mem_cons.mp hx with rfl | hx
    · exact ⟨m.path, rfl, List.mem_append_right _ List.mem_cons_self⟩
    · obtain ⟨p, hp, hfile⟩ := h.listed x hx
      exact ⟨p, hp, List.mem_append_left _ hfile⟩
  read file hfile := by
    rcases List.mem_append.mp hfile with hfile | hfile
    · exact h.read file hfile
    · exact ⟨text, List.mem_singleton.mp hfile ▸ hread⟩

theorem Reads.run (h : s.Reads directory search) (hrun : s.run directory n search = .ok final) :
    s.Reads directory final := by
  induction n generalizing search with
  | zero => exact Except.ok.inj hrun ▸ h
  | succ n ih =>
    rcases run_succ_cases hrun with ⟨-, rfl⟩ | ⟨m, rest, text, hdue, hread, hrun⟩
    · exact ⟨h.nodup, h.listed, h.read⟩
    · exact ih (h.after hdue hread) hrun

/-- A search comes to an end, or to a new file in every turn. -/
theorem run_ends (h : s.run directory n search = .ok final) :
    final.pending = [] ∨ final.seen.length = search.seen.length + n := by
  induction n generalizing search with
  | zero => exact .inr (by rw [← Except.ok.inj h, Nat.add_zero])
  | succ n ih =>
    rcases run_succ_cases h with ⟨-, rfl⟩ | ⟨m, rest, text, -, -, hrun⟩
    · exact .inl rfl
    · refine (ih hrun).imp_right fun hlength => ?_
      rw [hlength, after, List.length_cons]
      omega

theorem files_subset (h : s.run directory n search = .ok final) :
    search.found.files ⊆ final.found.files := by
  induction n generalizing search with
  | zero => rw [← Except.ok.inj h]; exact List.Subset.refl _
  | succ n ih =>
    rcases run_succ_cases h with ⟨-, rfl⟩ | ⟨m, rest, text, -, -, hrun⟩
    · exact List.Subset.refl _
    · exact List.Subset.trans (List.subset_append_left ..) (ih hrun)

/-! Two searches from the same point on. -/

section
variable {α : Type} {p₁ p₂ : α → Bool} {xs : List α}

theorem find?_eq_of_missed (hfound : ∀ x, xs.find? p₁ = some x → p₂ x = true)
    (hmissed : ∀ x ∈ xs.takeWhile (!p₁ ·), p₂ x = false) : xs.find? p₂ = xs.find? p₁ := by
  induction xs with
  | nil => rfl
  | cons x xs ih =>
    cases h₁ : p₁ x with
    | true => simp [h₁, hfound x (by simp [h₁])]
    | false =>
      have hx : p₂ x = false := hmissed x (by simp [h₁])
      simp only [List.find?_cons, h₁, hx]
      refine ih (fun y hy => hfound y (by simpa [h₁] using hy)) fun y hy => hmissed y ?_
      simp [h₁, hy]

theorem missed_of_find?_eq (h : xs.find? p₂ = xs.find? p₁) :
    ∀ x ∈ xs.takeWhile (!p₁ ·), p₂ x = false := by
  induction xs with
  | nil => simp
  | cons x xs ih =>
    cases h₁ : p₁ x with
    | true => simp [h₁]
    | false =>
      have hx : p₂ x = false := by
        cases h₂ : p₂ x with
        | false => rfl
        | true =>
          simp only [List.find?_cons, h₁, h₂] at h
          simpa [h₁] using List.find?_some h.symm
      simp only [List.find?_cons, h₁, hx] at h
      simpa [h₁, hx] using ih h

theorem find?_eq_of_found (h₁ : ∀ x, xs.find? p₁ = some x → p₂ x = true)
    (h₂ : ∀ x, xs.find? p₂ = some x → p₁ x = true) : xs.find? p₂ = xs.find? p₁ := by
  induction xs with
  | nil => rfl
  | cons x xs ih =>
    cases hx : p₁ x with
    | true => simp [hx, h₁ x (by simp [hx])]
    | false =>
      have hx₂ : p₂ x = false := by
        cases hp : p₂ x with
        | false => rfl
        | true => simp [h₂ x (by simp [hp])] at hx
      simp only [List.find?_cons, hx, hx₂]
      exact ih (fun y hy => h₁ y (by simpa [hx] using hy)) fun y hy => h₂ y (by simpa [hx₂] using hy)

end

/-- What the second sources have where a search in the first ones has found a file. -/
def Keeps (s₁ s₂ : Sources) (directory : FilePath) (final : Search) : Prop :=
  ∀ p : FilePath, p.identity ∈ final.seen → s₁.isFile (directory.join p) = true →
    s₂.isFile (directory.join p) = true

theorem isFile_of_child? {m c : ModuleFile} {decl : ModuleDecl}
    (h : s.child? directory m decl = some c) : s.isFile (directory.join c.path) = true :=
  List.find?_some (p := fun child : ModuleFile => s.isFile (directory.join child.path)) h

/-- A file that is found for a module has been come to at the end. -/
theorem identity_child?_mem_seen {m c : ModuleFile} {rest : List ModuleFile} {text : String}
    {decl : ModuleDecl} (hrun : s.run directory n (s.after directory search m rest text) = .ok final)
    (hend : final.pending = [])
    (hdecl : decl ∈ (Outline.ofText m.path.key m.modulePath text).modules)
    (hc : s.child? directory m decl = some c) : c.path.identity ∈ final.seen :=
  identity_mem_seen hrun hend
    (List.mem_append_left _ (List.mem_filterMap.mpr ⟨decl, hdecl, hc⟩))

theorem after_congr {m : ModuleFile} {rest : List ModuleFile} {text : String}
    (h : ∀ decl ∈ (Outline.ofText m.path.key m.modulePath text).modules,
      s₂.child? directory m decl = s₁.child? directory m decl) :
    s₂.after directory search m rest text = s₁.after directory search m rest text := by
  have hchildren := List.filterMap_congr h
  simp only [after, hchildren]

/-- Sources that have what a search has found, and nothing where it has looked in vain, are searched
in the same way. -/
theorem run_congr (hrun : s₁.run directory n search = .ok final) (hend : final.pending = [])
    (hread : ∀ file ∈ final.found.files, s₂.read file = s₁.read file)
    (hkeeps : s₁.Keeps s₂ directory final)
    (hmissed : ∀ p ∈ s₁.missedIn directory n search, s₂.isFile (directory.join p) = false) :
    s₂.run directory n search = .ok final := by
  induction n generalizing search with
  | zero => exact hrun
  | succ n ih =>
    rcases run_succ_cases hrun with ⟨hdue, rfl⟩ | ⟨m, rest, text, hdue, hm, hrest⟩
    · exact run_of_due_nil hdue
    · simp only [missedIn, hdue, hm] at hmissed
      have hfile : directory.join m.path ∈ final.found.files :=
        files_subset hrest (List.mem_append_right _ List.mem_cons_self)
      rw [run_of_due_cons hdue, hread _ hfile, hm]
      have hchild : ∀ decl ∈ (Outline.ofText m.path.key m.modulePath text).modules,
          s₂.child? directory m decl = s₁.child? directory m decl := by
        intro decl hdecl
        refine find?_eq_of_missed (fun c hc => ?_) fun c hc => ?_
        · exact hkeeps _ (identity_child?_mem_seen hrest hend hdecl hc) (isFile_of_child? hc)
        · exact hmissed _ (List.mem_append_left _ (List.mem_flatMap.mpr
            ⟨decl, hdecl, List.mem_map_of_mem hc⟩))
      dsimp only
      rw [after_congr hchild]
      exact ih hrest fun p hp => hmissed p (List.mem_append_right _ hp)

/-- Where one of two searches that find the same files has looked in vain, the sources of the other
one have no file. -/
theorem missed_of_run (hrun₁ : s₁.run directory n search = .ok final₁)
    (hrun₂ : s₂.run directory n search = .ok final₂)
    (hend₁ : final₁.pending = []) (hend₂ : final₂.pending = [])
    (hread : ∀ file ∈ final₁.found.files, s₂.read file = s₁.read file)
    (hkeeps₁ : s₁.Keeps s₂ directory final₁) (hkeeps₂ : s₂.Keeps s₁ directory final₂) :
    ∀ p ∈ s₁.missedIn directory n search, s₂.isFile (directory.join p) = false := by
  induction n generalizing search with
  | zero => simp [missedIn]
  | succ n ih =>
    rcases run_succ_cases hrun₁ with ⟨hdue, rfl⟩ | ⟨m, rest, text, hdue, hm, hrest₁⟩
    · simp [missedIn, hdue]
    · have hfile : directory.join m.path ∈ final₁.found.files :=
        files_subset hrest₁ (List.mem_append_right _ List.mem_cons_self)
      have hrest₂ : s₂.run directory n (s₂.after directory search m rest text) = .ok final₂ := by
        rw [run_of_due_cons hdue, hread _ hfile, hm] at hrun₂
        exact hrun₂
      have hchild : ∀ decl ∈ (Outline.ofText m.path.key m.modulePath text).modules,
          s₂.child? directory m decl = s₁.child? directory m decl := by
        intro decl hdecl
        refine find?_eq_of_found (fun c hc => ?_) fun c hc => ?_
        · exact hkeeps₁ _ (identity_child?_mem_seen hrest₁ hend₁ hdecl hc) (isFile_of_child? hc)
        · exact hkeeps₂ _ (identity_child?_mem_seen hrest₂ hend₂ hdecl hc) (isFile_of_child? hc)
      rw [after_congr hchild] at hrest₂
      simp only [missedIn, hdue, hm]
      intro p hp
      rcases List.mem_append.mp hp with hp | hp
      · obtain ⟨decl, hdecl, hp⟩ := List.mem_flatMap.mp hp
        obtain ⟨c, hc, rfl⟩ := List.mem_map.mp hp
        exact missed_of_find?_eq (hchild decl hdecl) c hc
      · exact ih hrest₁ hrest₂ p hp

end Sources

end ComponentRegistry
