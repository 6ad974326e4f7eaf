import ComponentRegistry.Proofs.Disk.Lookup
import ComponentRegistry.Proofs.SortedMap
import Mathlib.Data.Finite.Prod

/-! What a path leads to, however long it is. Files are on the disk under finitely many names, so that
finitely many paths lead to one if they lead up no further than some bound (`Disk.names_of_reach?`,
`Disk.finite_identities`). -/

namespace ComponentRegistry

namespace Disk

open FilePath

variable {d : Disk} {p : FilePath} {loc found : Location} {segments : List String}

/-- The contents of the file that a path leads to, however long the path is. -/
def reach? (d : Disk) (p : FilePath) : Option ByteArray :=
  match p.segments.getLast? with
  | none => none
  | some name =>
    if p.text.toList.contains '\x00' || !counts name || name == ".." ||
        longestName < name.utf8ByteSize then none
    else match d.enter (d.origin p) p.segments.dropLast with
      | .ok parent => (d.child? parent name).bind Entry.contents?
      | .error _ => none

theorem reach?_eq_some {contents : ByteArray} : d.reach? p = some contents ↔
    ∃ name, '\x00' ∉ p.text.toList ∧ p.segments.getLast? = some name ∧ counts name = true ∧
      name ≠ ".." ∧ name.utf8ByteSize ≤ longestName ∧ ∃ parent,
        d.enter (d.origin p) p.segments.dropLast = .ok parent ∧
          seen? (d.child? parent name) = some (some contents) := by
  have hseen : ∀ entry : Option Entry,
      entry.bind Entry.contents? = some contents ↔ seen? entry = some (some contents) := by
    intro entry
    cases entry <;> simp [seen?]
  unfold reach?
  cases hnamed : p.segments.getLast? with
  | none => simp
  | some name =>
    dsimp only
    split
    next hbad =>
      simp only [Bool.or_eq_true, decide_eq_true_eq, List.contains_iff_mem] at hbad
      refine iff_of_false (Option.some_ne_none _).symm ?_
      rintro ⟨other, hend, hother, hcounts, hup, hlength, -⟩
      obtain rfl := Option.some.inj hother
      rcases hbad with ((hbad | hbad) | hbad) | hbad
      · exact hend hbad
      · simp [hcounts] at hbad
      · exact hup (by simpa using hbad)
      · omega
    next hgood =>
      simp only [Bool.or_eq_true, decide_eq_true_eq, List.contains_iff_mem, not_or] at hgood
      obtain ⟨⟨⟨hend, hcounts⟩, hup⟩, hlength⟩ := hgood
      cases henter : d.enter (d.origin p) p.segments.dropLast with
      | error e => simp
      | ok parent =>
        dsimp only
        rw [hseen]
        constructor
        · intro hfile
          have hcounts : counts name = true := by simpa using hcounts
          exact ⟨name, hend, rfl, hcounts, by simpa using hup, by omega, parent, rfl, hfile⟩
        · rintro ⟨other, -, hother, -, -, -, found, hfound, hfile⟩
          obtain rfl := Option.some.inj hother
          obtain rfl := Except.ok.inj hfound
          exact hfile

/-- Paths that end in the same name lead to the same file if they come through the same directory. -/
theorem reach?_congr {q : FilePath} {before before' : List String} {name : String}
    (hp : p.segments = before ++ [name]) (hq : q.segments = before' ++ [name])
    (hend : '\x00' ∉ p.text.toList) (hend' : '\x00' ∉ q.text.toList)
    (henter : d.enter (d.origin p) before = d.enter (d.origin q) before') :
    d.reach? p = d.reach? q := by
  unfold reach?
  rw [hp, hq]
  simp only [List.getLast?_concat, List.dropLast_concat, henter, List.contains_iff_mem, hend, hend',
    Bool.or_eq_true, false_or]

/-- The disk is the one that looks up paths of any length, but for the paths that are too long. -/
theorem fileAt?_eq_reach? (d : Disk) (p : FilePath) :
    d.fileAt? p = if p.text.utf8ByteSize ≤ longestPath then d.reach? p else none := by
  refine Option.ext fun contents => ?_
  rw [fileAt?_eq_some]
  split
  next hshort =>
    rw [reach?_eq_some]
    constructor
    · rintro ⟨name, ⟨hend, -, -, hnamed, hcounts, hup, hlength⟩, parent, henter, hfile⟩
      exact ⟨name, hend, hnamed, hcounts, hup, hlength, parent, henter, hfile⟩
    · rintro ⟨name, hend, hnamed, hcounts, hup, hlength, parent, henter, hfile⟩
      have hne : p.isEmpty = false := by
        rw [isEmpty, beq_eq_false_iff_ne]
        rintro rfl
        obtain rfl : "" = name := Option.some.inj hnamed
        rw [not_counts_empty] at hcounts
        cases hcounts
      exact ⟨name, ⟨hend, hne, hshort, hnamed, hcounts, hup, hlength⟩, parent, henter, hfile⟩
  next hlong =>
    refine iff_of_false ?_ nofun
    rintro ⟨name, hok, -⟩
    exact hlong hok.short

/-! The paths that lead to a file: their names stand on the disk, and they are no more than the
directories on the way and the steps up. -/

/-- The names of the entries of a disk, and the step up. -/
def alphabet (d : Disk) : List String := ".." :: d.entries.entries.flatMap (·.1)

theorem mem_alphabet {name other : String} {entry : Entry} (h : d.child? loc name = some entry)
    (hother : other ∈ loc ++ [name]) : other ∈ d.alphabet := by
  rw [child?, entry?, entryIn?_append_singleton, ← SortedMap.mem_entries_iff] at h
  exact List.mem_cons_of_mem _ (List.mem_flatMap.mpr ⟨_, h, hother⟩)

theorem exists_bound {α : Type} (f : α → Nat) (xs : List α) : ∃ bound, ∀ x ∈ xs, f x ≤ bound := by
  induction xs with
  | nil => exact ⟨0, nofun⟩
  | cons x xs ih =>
    obtain ⟨bound, hbound⟩ := ih
    refine ⟨max (f x) bound, List.forall_mem_cons.mpr ⟨Nat.le_max_left .., fun y hy => ?_⟩⟩
    exact Nat.le_trans (hbound y hy) (Nat.le_max_right ..)

/-- No entry of the disk stands below more directories than this. -/
theorem exists_depth (d : Disk) : ∃ depth, ∀ {loc name entry},
    d.child? loc name = some entry → loc.length < depth := by
  obtain ⟨depth, hdepth⟩ := exists_bound (fun e : Location × Entry => e.1.length) d.entries.entries
  refine ⟨depth, fun {loc name entry} h => ?_⟩
  rw [child?, entry?, entryIn?_append_singleton, ← SortedMap.mem_entries_iff] at h
  have hlength := hdepth _ h
  rw [List.length_append, List.length_singleton] at hlength
  exact hlength

/-- On the way all names but the steps up lead one level down, where there is an entry. -/
theorem enter_bound {depth : Nat} (hdepth : ∀ {loc name entry}, d.child? loc name = some entry →
      loc.length < depth) (h : d.enter loc segments = .ok found) :
    (∀ s ∈ segments.filter counts, s ∈ d.alphabet) ∧ found.length ≤ max loc.length depth ∧
    loc.length + (segments.filter counts).length ≤
      found.length + 2 * (segments.filter counts).count ".." := by
  induction segments generalizing loc with
  | nil =>
    obtain rfl := Except.ok.inj h
    simp
  | cons segment segments ih =>
    rw [enter] at h
    split at h
    next hskip =>
      rw [List.filter_cons_of_neg (by simpa using hskip)]
      exact ih h
    next hcounts =>
    rw [List.filter_cons_of_pos (by simpa using hcounts), List.forall_mem_cons, List.length_cons]
    split at h
    next hup =>
      obtain rfl : segment = ".." := by simpa using hup
      obtain ⟨hall, hfound, hlength⟩ := ih h
      rw [List.length_dropLast] at hfound hlength
      rw [List.count_cons_self]
      exact ⟨⟨List.mem_cons_self, hall⟩, by omega, by omega⟩
    next hup =>
    split at h
    · cases h
    split at h
    · cases h
    · cases h
    next hchild =>
      obtain ⟨hall, hfound, hlength⟩ := ih h
      have hlt := hdepth hchild
      rw [List.length_append, List.length_singleton] at hfound hlength
      rw [List.count_cons_of_ne (by simpa using hup)]
      exact ⟨⟨mem_alphabet hchild (by simp), hall⟩, by omega, by omega⟩

theorem names_of_reach? {depth : Nat} (hdepth : ∀ {loc name entry},
      d.child? loc name = some entry → loc.length < depth) (h : (d.reach? p).isSome = true) :
    (∀ s ∈ p.names, s ∈ d.alphabet) ∧
    p.names.length ≤ max d.workingDirectory.length depth + 2 * p.names.count ".." + 1 := by
  obtain ⟨contents, h⟩ := Option.isSome_iff_exists.mp h
  obtain ⟨name, -, hnamed, hcounts, hup, -, parent, henter, hfile⟩ := reach?_eq_some.mp h
  obtain ⟨written, hfile⟩ := seen?_eq_file.mp hfile
  obtain ⟨hall, hfound, hlength⟩ := enter_bound hdepth henter
  obtain ⟨before, hbefore⟩ := List.getLast?_eq_some_iff.mp hnamed
  rw [hbefore, List.dropLast_concat] at hall hlength
  have hnames : p.names = before.filter counts ++ [name] := by
    rw [names_eq_filter, hbefore, List.filter_append, List.filter_cons_of_pos hcounts,
      List.filter_nil]
  have horigin : (d.origin p).length ≤ d.workingDirectory.length := by
    unfold origin
    split <;> simp
  rw [hnames, List.count_append, List.length_append, List.length_singleton]
  refine ⟨fun s hs => ?_, by omega⟩
  rcases List.mem_append.mp hs with hs | hs
  · exact hall s hs
  · exact mem_alphabet hfile (by simpa using Or.inr (List.mem_singleton.mp hs))

/-- Over a finite alphabet there are finitely many lists that are not longer than a bound. -/
theorem finite_lists {α : Type} {letters : Set α} (h : letters.Finite) (bound : Nat) :
    {xs : List α | xs.length ≤ bound ∧ ∀ x ∈ xs, x ∈ letters}.Finite := by
  induction bound with
  | zero =>
    refine (Set.finite_singleton []).subset fun xs hxs => ?_
    exact List.length_eq_zero_iff.mp (Nat.le_zero.mp hxs.1)
  | succ bound ih =>
    have hfinite := (Set.finite_singleton []).union (Set.Finite.image2 List.cons h ih)
    refine hfinite.subset fun xs hxs => ?_
    cases xs with
    | nil => exact .inl rfl
    | cons x xs =>
      obtain ⟨hlength, hall⟩ := hxs
      refine .inr ⟨x, hall x List.mem_cons_self, xs, ⟨?_, fun y hy => ?_⟩, rfl⟩
      · exact Nat.le_of_succ_le_succ hlength
      · exact hall y (List.mem_cons_of_mem _ hy)

/-- Finitely many paths are told apart if their names are from a finite alphabet and not more than a
bound. -/
theorem finite_identities (names : List String) (bound : Nat) :
    {x | ∃ p : FilePath, p.identity = x ∧ p.names.length ≤ bound ∧
      ∀ s ∈ p.names, s ∈ names}.Finite := by
  have hlists := finite_lists names.finite_toSet bound
  have hsegments := (Set.toFinite {[], ["."]}).image2 (fun lead rest => lead ++ rest) hlists
  have hfinite := (Set.finite_univ (α := Bool)).image2
    (fun absolute (segments : List String) => (segments.length, FilePath.mk absolute segments)) hsegments
  refine hfinite.subset ?_
  rintro x ⟨p, rfl, hlength, hall⟩
  have hlead : p.lead ∈ ({[], ["."]} : Set (List String)) := by
    unfold lead
    split <;> simp
  exact ⟨p.absolute, Set.mem_univ _, p.lead ++ p.names, ⟨p.lead, hlead, p.names, ⟨hlength, hall⟩, rfl⟩,
    rfl⟩

end Disk

end ComponentRegistry
