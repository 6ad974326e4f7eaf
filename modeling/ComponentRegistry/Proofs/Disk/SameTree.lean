import ComponentRegistry.Proofs.Disk.Lookup

/-! Directories that hold the same in two disks. A path below such a directory finds the same file
in both, as long as it does not lead out of there (`SameTree.fileAt?_join`). -/

namespace ComponentRegistry

namespace FilePath

/-- Segments that, from some depth below a directory on, do not lead out of it. -/
def staysBelow : Nat → List String → Bool
  | _, [] => true
  | depth, segment :: rest =>
    if !counts segment then staysBelow depth rest
    else if segment == ".." then depth != 0 && staysBelow (depth - 1) rest
    else staysBelow (depth + 1) rest

/-- A path that does not lead out of the directory it is joined to. -/
def staysInside (p : FilePath) : Bool := !p.absolute && staysBelow 0 p.segments

theorem staysBelow_of_append {depth : Nat} {segments rest : List String}
    (h : staysBelow depth (segments ++ rest) = true) : staysBelow depth segments = true := by
  induction segments generalizing depth with
  | nil => rfl
  | cons segment segments ih =>
    rw [List.cons_append, staysBelow] at h
    rw [staysBelow]
    split at h
    next hc => rw [if_pos hc]; exact ih h
    next hc =>
      rw [if_neg hc]
      split at h
      next hup =>
        rw [if_pos hup]
        obtain ⟨hdepth, h⟩ := Bool.and_eq_true_iff.mp h
        exact Bool.and_eq_true_iff.mpr ⟨hdepth, ih h⟩
      next hup => rw [if_neg hup]; exact ih h

end FilePath

namespace Disk

open FilePath

/-- What can be seen at a place. -/
def seenAt (d : Disk) (loc : Location) : Option (Option ByteArray) := seen? <| d.entry? loc

/-- The same stands below a place of one disk and below a place of another one. -/
def SameBelow (d₁ d₂ : Disk) (loc₁ loc₂ : Location) : Prop :=
  ∀ below, d₁.seenAt (loc₁ ++ below) = d₂.seenAt (loc₂ ++ below)

theorem SameBelow.symm {d₁ d₂ : Disk} {loc₁ loc₂ : Location} (h : SameBelow d₁ d₂ loc₁ loc₂) :
    SameBelow d₂ d₁ loc₂ loc₁ := fun below => (h below).symm

/-- A path is that of a directory in both disks, and the same stands below it. -/
def SameTree (d₁ d₂ : Disk) (root : FilePath) : Prop :=
  ∃ loc₁ loc₂, d₁.locate root = .ok (loc₁, .directory) ∧ d₂.locate root = .ok (loc₂, .directory) ∧
    SameBelow d₁ d₂ loc₁ loc₂

theorem SameTree.symm {d₁ d₂ : Disk} {root : FilePath} (h : SameTree d₁ d₂ root) :
    SameTree d₂ d₁ root := by
  obtain ⟨loc₁, loc₂, h₁, h₂, hsame⟩ := h
  exact ⟨loc₂, loc₁, h₂, h₁, hsame.symm⟩

/-- An entry that is put outside of a directory changes nothing below it. -/
theorem SameTree.of_insert {d₁ d₂ : Disk} {root : FilePath} {loc place : Location} {entry : Entry}
    (h₁ : d₁.locate root = .ok (loc, .directory)) (h₂ : d₂.locate root = .ok (loc, .directory))
    (hentries : d₂.entries = d₁.entries.insert place entry) (houtside : ¬loc <+: place) :
    SameTree d₁ d₂ root := by
  refine ⟨loc, loc, h₁, h₂, fun below => ?_⟩
  have hne : loc ++ below ≠ place := fun h => houtside (h ▸ List.prefix_append loc below)
  unfold seenAt entry?
  rw [hentries]
  cases h : loc ++ below with
  | nil => rfl
  | cons name rest => rw [entryIn?, entryIn?, SortedMap.get?_insert, if_neg (h ▸ hne)] <;> simp

theorem SameBelow.child {d₁ d₂ : Disk} {loc₁ loc₂ : Location} (h : SameBelow d₁ d₂ loc₁ loc₂)
    (below : Location) (name : String) :
    seen? (d₁.child? (loc₁ ++ below) name) = seen? (d₂.child? (loc₂ ++ below) name) := by
  simpa only [seenAt, child?, List.append_assoc] using h (below ++ [name])

/-- Segments that stay below a directory lead to the same place there in both disks. -/
theorem enter_of_sameBelow {d₁ d₂ : Disk} {loc₁ loc₂ : Location} (h : SameBelow d₁ d₂ loc₁ loc₂)
    {below found : Location} {segments : List String}
    (hstay : staysBelow below.length segments = true)
    (henter : d₁.enter (loc₁ ++ below) segments = .ok found) :
    ∃ there, found = loc₁ ++ there ∧ d₂.enter (loc₂ ++ below) segments = .ok (loc₂ ++ there) := by
  induction segments generalizing below with
  | nil =>
    obtain rfl : loc₁ ++ below = found := by simpa [enter] using henter
    exact ⟨below, rfl, rfl⟩
  | cons segment rest ih =>
    rw [staysBelow] at hstay
    rw [enter] at henter ⊢
    split at hstay
    next hc =>
      rw [if_pos hc] at henter ⊢
      exact ih hstay henter
    next hc =>
    rw [if_neg hc] at henter ⊢
    split at hstay
    next hup =>
      rw [if_pos hup] at henter ⊢
      obtain ⟨hdepth, hstay⟩ := Bool.and_eq_true_iff.mp hstay
      have hne : below ≠ [] := by
        rintro rfl
        simp at hdepth
      rw [List.dropLast_append_of_ne_nil hne] at henter ⊢
      exact ih (by simpa using hstay) henter
    next hup =>
    rw [if_neg hup] at henter ⊢
    split at henter
    · cases henter
    next hlength =>
    rw [if_neg hlength]
    have hchild := h.child below segment
    cases hc₁ : d₁.child? (loc₁ ++ below) segment with
    | none => simp [hc₁] at henter
    | some entry =>
      cases entry with
      | file contents written => simp [hc₁] at henter
      | directory =>
        rw [hc₁] at hchild
        rw [seen?_eq_directory.mp hchild.symm]
        simp only [hc₁, List.append_assoc] at henter ⊢
        exact ih (by simpa using hstay) henter

/-- Below a directory that holds the same in two disks, a path that stays there leads to the same
file in both. -/
theorem SameTree.fileAt?_join {d₁ d₂ : Disk} {root p : FilePath} {contents : ByteArray}
    (h : SameTree d₁ d₂ root) (hstay : p.staysInside = true)
    (hp : d₁.fileAt? (root.join p) = some contents) :
    d₂.fileAt? (root.join p) = some contents := by
  obtain ⟨loc₁, loc₂, hloc₁, hloc₂, hsame⟩ := h
  obtain ⟨habsolute, hbelow⟩ := Bool.and_eq_true_iff.mp hstay
  have habsolute : p.absolute = false := by simpa using habsolute
  have hjoin : root.join p = ⟨root.absolute, untrailed root.segments ++ p.segments⟩ := by
    simp [join, habsolute]
  have hroot : ∀ {d : Disk} {loc}, d.locate root = .ok (loc, .directory) →
      d.enter (d.origin (root.join p)) (untrailed root.segments) = .ok loc := by
    intro d loc hloc
    rw [← enter_filter, filter_counts_untrailed, enter_filter, ← enter_of_locate hloc, hjoin]
    rfl
  obtain ⟨name, hok, parent, henter, hfile⟩ := fileAt?_eq_some.mp hp
  refine fileAt?_eq_some.mpr ⟨name, hok, ?_⟩
  have hsegments : (root.join p).segments = untrailed root.segments ++ p.segments := by rw [hjoin]
  have hnamed := hok.named
  rw [hsegments] at henter hnamed ⊢
  rcases List.eq_nil_or_concat p.segments with hnil | ⟨before, last, hlast⟩
  · -- The path is that of the directory itself.
    rw [hnil, List.append_nil] at henter hnamed
    obtain ⟨before, hbefore⟩ := List.getLast?_eq_some_iff.mp hnamed
    have := hroot hloc₁
    rw [hbefore, enter_append] at this
    rw [hbefore, List.dropLast_concat] at henter
    obtain ⟨written, hfile⟩ := seen?_eq_file.mp hfile
    rw [henter] at this
    simp [bind, Except.bind, enter, hok.counts, hok.noParent, Nat.not_lt.mpr hok.shortName,
      hfile] at this
  · rw [List.concat_eq_append] at hlast
    rw [hlast, ← List.append_assoc, List.dropLast_concat, enter_append, hroot hloc₁] at henter
    rw [hlast, ← List.append_assoc, List.dropLast_concat, enter_append, hroot hloc₂]
    rw [hlast] at hbelow hnamed
    have hstays : staysBelow ([] : Location).length before = true := staysBelow_of_append hbelow
    obtain ⟨there, rfl, henter₂⟩ := enter_of_sameBelow hsame hstays
      (by simpa [bind, Except.bind] using henter)
    refine ⟨loc₂ ++ there, by simpa [bind, Except.bind] using henter₂, ?_⟩
    rw [← hsame.child there name, hfile]

end Disk

end ComponentRegistry
