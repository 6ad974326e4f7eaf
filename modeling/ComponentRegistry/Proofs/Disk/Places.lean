import ComponentRegistry.Proofs.Disk.SameTree

/-! The places that a path leads through. Two disks in which the same stands at these places give the
same answers for the path (`sees_congr`). Where a path leads to, if it leads anywhere, can be told
from its segments alone (`placeOf_of_target`). -/

namespace ComponentRegistry

namespace FilePath

/-- Where segments lead to from a place, if all that they name are directories. -/
def leadsTo (loc : Location) : List String → Location
  | [] => loc
  | segment :: rest =>
    if !counts segment then leadsTo loc rest
    else if segment == ".." then leadsTo loc.dropLast rest
    else leadsTo (loc ++ [segment]) rest

theorem leadsTo_append (loc : Location) (segments rest : List String) :
    leadsTo loc (segments ++ rest) = leadsTo (leadsTo loc segments) rest := by
  induction segments generalizing loc with
  | nil => rfl
  | cons segment segments ih =>
    rw [List.cons_append, leadsTo, leadsTo]
    split
    · exact ih loc
    · split
      · exact ih loc.dropLast
      · exact ih (loc ++ [segment])

theorem leadsTo_of_not_counts {loc : Location} {segments : List String}
    (h : ∀ segment ∈ segments, counts segment = false) : leadsTo loc segments = loc := by
  induction segments with
  | nil => rfl
  | cons segment segments ih =>
    obtain ⟨hsegment, hrest⟩ := List.forall_mem_cons.mp h
    rw [leadsTo, if_pos (by simp [hsegment]), ih hrest]

end FilePath

namespace Disk

open FilePath

variable {d d₁ d₂ : Disk} {loc found : Location} {segments rest : List String} {p : FilePath}

/-- The places that segments lead through from a place, as far as there are directories. -/
def along (d : Disk) (loc : Location) : List String → List Location
  | [] => [loc]
  | segment :: rest =>
    if !counts segment then d.along loc rest
    else if segment == ".." then loc :: d.along loc.dropLast rest
    else match d.child? loc segment with
      | some .directory => loc :: d.along (loc ++ [segment]) rest
      | _ => [loc, loc ++ [segment]]

/-- The places on a path. -/
def placesOn (d : Disk) (p : FilePath) : List Location := d.along (d.origin p) p.segments

/-- The place of a path, whether something stands there or not. -/
def placeOf (d : Disk) (p : FilePath) : Location := leadsTo (d.origin p) p.segments

theorem self_mem_along : loc ∈ d.along loc segments := by
  induction segments with
  | nil => exact List.mem_singleton_self _
  | cons segment segments ih =>
    rw [along]
    split
    · exact ih
    · split
      · exact List.mem_cons_self
      · split <;> exact List.mem_cons_self

theorem mem_along_append {place : Location} (h : place ∈ d.along loc segments) :
    place ∈ d.along loc (segments ++ rest) := by
  induction segments generalizing loc with
  | nil =>
    obtain rfl := List.mem_singleton.mp h
    exact self_mem_along
  | cons segment segments ih =>
    rw [along] at h
    rw [List.cons_append, along]
    split at h
    next hcounts =>
      rw [if_pos hcounts]
      exact ih h
    next hcounts =>
    rw [if_neg hcounts]
    split at h
    next hup =>
      rw [if_pos hup]
      exact (List.mem_cons.mp h).elim (· ▸ List.mem_cons_self) fun h => List.mem_cons_of_mem _ (ih h)
    next hup =>
    rw [if_neg hup]
    split at h
    · exact (List.mem_cons.mp h).elim (· ▸ List.mem_cons_self) fun h => List.mem_cons_of_mem _ (ih h)
    · exact h

/-- Segments that are followed lead to where they can be told to lead. -/
theorem eq_leadsTo_of_enter (h : d.enter loc segments = .ok found) :
    found = leadsTo loc segments := by
  induction segments generalizing loc with
  | nil => exact (Except.ok.inj h).symm
  | cons segment segments ih =>
    rw [enter] at h
    rw [leadsTo]
    split at h
    next hcounts => rw [if_pos hcounts]; exact ih h
    next hcounts =>
    rw [if_neg hcounts]
    split at h
    next hup => rw [if_pos hup]; exact ih h
    next hup =>
    rw [if_neg hup]
    split at h
    · cases h
    · split at h
      · cases h
      · cases h
      · exact ih h

/-- The next name after segments that are followed is on the way. -/
theorem mem_along_child {name : String} (hcounts : counts name = true) (hup : name ≠ "..")
    (h : d.enter loc segments = .ok found) :
    found ++ [name] ∈ d.along loc (segments ++ [name]) := by
  induction segments generalizing loc with
  | nil =>
    obtain rfl := Except.ok.inj h
    rw [List.nil_append, along, if_neg (by simp [hcounts]), if_neg (by simpa using hup)]
    split
    · exact List.mem_cons_of_mem _ List.mem_cons_self
    · exact List.mem_cons_of_mem _ List.mem_cons_self
  | cons segment segments ih =>
    rw [enter] at h
    rw [List.cons_append, along]
    split at h
    next hcounts => rw [if_pos hcounts]; exact ih h
    next hcounts =>
    rw [if_neg hcounts]
    split at h
    next hup => rw [if_pos hup]; exact List.mem_cons_of_mem _ (ih h)
    next hup =>
    rw [if_neg hup]
    split at h
    · cases h
    · split at h
      · cases h
      · cases h
      next hchild =>
        rw [hchild]
        exact List.mem_cons_of_mem _ (ih h)

theorem enter_congr (h : ∀ place ∈ d₁.along loc segments, d₂.seenAt place = d₁.seenAt place) :
    d₂.enter loc segments = d₁.enter loc segments := by
  induction segments generalizing loc with
  | nil => rfl
  | cons segment segments ih =>
    rw [enter, enter]
    rw [along] at h
    split
    next hcounts =>
      rw [if_pos hcounts] at h
      exact ih h
    next hcounts =>
    rw [if_neg hcounts] at h
    split
    next hup =>
      rw [if_pos hup] at h
      exact ih fun place hplace => h place (List.mem_cons_of_mem _ hplace)
    next hup =>
    rw [if_neg hup] at h
    split
    · rfl
    · have hseen : seen? (d₂.child? loc segment) = seen? (d₁.child? loc segment) := by
        refine h (loc ++ [segment]) ?_
        split
        · exact List.mem_cons_of_mem _ self_mem_along
        · exact List.mem_cons_of_mem _ List.mem_cons_self
      cases hchild : d₁.child? loc segment with
      | none =>
        rw [hchild] at hseen
        rw [show d₂.child? loc segment = none by simpa [seen?] using hseen]
      | some entry =>
        rw [hchild] at hseen
        cases entry with
        | file contents written =>
          obtain ⟨other, hother⟩ := seen?_eq_file.mp hseen
          rw [hother]
        | directory =>
          rw [seen?_eq_directory.mp hseen]
          dsimp only
          rw [hchild] at h
          exact ih fun place hplace => h place (List.mem_cons_of_mem _ hplace)

/-- What comes before the slashes at the end of a path, and these. -/
theorem segments_eq_append (segments : List String) : ∃ slashes : List String,
    segments = (segments.reverse.dropWhile (·.isEmpty)).reverse ++ slashes ∧
    ∀ segment ∈ slashes, counts segment = false := by
  refine ⟨(segments.reverse.takeWhile (·.isEmpty)).reverse, ?_, fun segment hsegment => ?_⟩
  · rw [← List.reverse_append, List.takeWhile_append_dropWhile, List.reverse_reverse]
  · have hempty : segment.isEmpty = true :=
      List.all_eq_true.mp (List.all_takeWhile (p := fun s : String => s.isEmpty)) segment
        (List.mem_reverse.mp hsegment)
    obtain rfl : segment = "" := by simpa using hempty
    exact not_counts_empty

/-- A path with a name at its end, as it is followed. -/
theorem segments_of_target {parent : Location} {name : String} {slashed : Bool}
    (h : d.target p = .ok (.named parent name slashed)) : ∃ before slashes,
      p.segments = before ++ [name] ++ slashes ∧ (∀ segment ∈ slashes, counts segment = false) ∧
      counts name = true ∧ name ≠ ".." ∧ d.enter (d.origin p) before = .ok parent := by
  rw [target_eq] at h
  split at h
  · cases h
  split at h
  · cases h
  split at h
  · cases h
  split at h
  · cases h
  next last before hsegments =>
  split at h
  · cases henter : d.enter (d.origin p) p.segments <;> simp [henter, Functor.map, Except.map] at h
  next hdots =>
  cases henter : d.enter (d.origin p) before.reverse with
  | error e => simp [henter, bind, Except.bind] at h
  | ok found =>
    simp only [henter, bind, Except.bind] at h
    split at h
    · cases h
    simp only [Except.ok.injEq, Target.named.injEq] at h
    obtain ⟨rfl, rfl, -⟩ := h
    obtain ⟨slashes, happend, hslashes⟩ := segments_eq_append p.segments
    rw [hsegments, List.reverse_cons] at happend
    have hname : last.isEmpty = false := by
      have hhead := List.head_dropWhile_not (fun s : String => s.isEmpty)
        (show p.segments.reverse.dropWhile (·.isEmpty) ≠ [] by simp [hsegments])
      simpa [hsegments] using hhead
    have hdots : last ≠ "." ∧ last ≠ ".." := by simpa using hdots
    have hempty : last ≠ "" := by simpa using hname
    exact ⟨before.reverse, slashes, happend, hslashes, by simp [counts, hempty, hdots.1], hdots.2,
      henter⟩

theorem placeOf_of_target {parent : Location} {name : String} {slashed : Bool}
    (h : d.target p = .ok (.named parent name slashed)) : d.placeOf p = parent ++ [name] := by
  obtain ⟨before, slashes, happend, hslashes, hcounts, hup, henter⟩ := segments_of_target h
  rw [placeOf, happend, leadsTo_append, leadsTo_append, leadsTo_of_not_counts hslashes,
    ← eq_leadsTo_of_enter henter]
  simp [leadsTo, hcounts, hup]

theorem mem_placesOn_of_target {parent : Location} {name : String} {slashed : Bool}
    (h : d.target p = .ok (.named parent name slashed)) : parent ++ [name] ∈ d.placesOn p := by
  obtain ⟨before, slashes, happend, -, hcounts, hup, henter⟩ := segments_of_target h
  rw [placesOn, happend]
  exact mem_along_append (mem_along_child hcounts hup henter)

/-- The same stands in two disks at all places on a path. -/
def SameOn (d₁ d₂ : Disk) (p : FilePath) : Prop :=
  ∀ place ∈ d₁.placesOn p, d₂.seenAt place = d₁.seenAt place

theorem target_congr (hw : d₂.workingDirectory = d₁.workingDirectory) (h : d₁.SameOn d₂ p) :
    d₂.target p = d₁.target p := by
  have horigin : d₂.origin p = d₁.origin p := by rw [origin, origin, hw]
  rw [target_eq, target_eq, horigin, enter_congr h]
  cases hsegments : p.segments.reverse.dropWhile (·.isEmpty) with
  | nil => rfl
  | cons last before =>
    obtain ⟨slashes, happend, -⟩ := segments_eq_append p.segments
    rw [hsegments, List.reverse_cons, List.append_assoc] at happend
    rw [SameOn, placesOn, happend] at h
    dsimp only
    rw [enter_congr fun place hplace => h place (mem_along_append hplace)]

/-- What is seen at a path, or why nothing is. -/
def sees (d : Disk) (p : FilePath) : Except FileError (Option ByteArray) :=
  (d.locate p).map (·.2.contents?)

theorem sees_eq (d : Disk) (p : FilePath) :
    d.sees p = d.target p >>= fun target =>
      match target with
      | .directory _ => .ok none
      | .named parent name slashed =>
        match d.seenAt (parent ++ [name]) with
        | none => .error .notFound
        | some none => .ok none
        | some (some contents) => if slashed then .error .notADirectory else .ok (some contents) := by
  unfold sees locate
  cases d.target p with
  | error e => rfl
  | ok target =>
    cases target with
    | directory loc => rfl
    | named parent name slashed =>
      simp only [bind, Except.bind, seenAt, child?]
      cases d.entry? (parent ++ [name]) with
      | none => rfl
      | some entry =>
        cases entry with
        | directory => rfl
        | file contents written => cases slashed <;> rfl

theorem sees_congr (hw : d₂.workingDirectory = d₁.workingDirectory) (h : d₁.SameOn d₂ p) :
    d₂.sees p = d₁.sees p := by
  rw [sees_eq, sees_eq, target_congr hw h]
  cases htarget : d₁.target p with
  | error e => rfl
  | ok target =>
    cases target with
    | directory loc => rfl
    | named parent name slashed =>
      simp only [bind, Except.bind, h _ (mem_placesOn_of_target htarget)]

theorem isFile_eq_sees (d : Disk) (p : FilePath) :
    d.isFile p = (d.sees p).toOption.join.isSome := by
  unfold isFile sees
  cases d.locate p with
  | error e => rfl
  | ok found =>
    obtain ⟨loc, entry⟩ := found
    cases entry <;> rfl

theorem readBytes_eq_sees (d : Disk) (p : FilePath) :
    d.readBytes p = d.sees p >>= fun seen => seen.elim (.error .isADirectory) .ok := by
  unfold readBytes sees
  cases d.locate p with
  | error e => rfl
  | ok found =>
    obtain ⟨loc, entry⟩ := found
    cases entry <;> rfl

theorem has_eq_sees (d : Disk) (p : FilePath) : d.has p = (d.sees p).toOption.isSome := by
  unfold has sees
  cases d.locate p <;> rfl

/-- Directories that stay make paths through them lead to the same place. -/
theorem enter_of_directories
    (h : ∀ place, d₁.entry? place = some .directory → d₂.entry? place = some .directory)
    (henter : d₁.enter loc segments = .ok found) : d₂.enter loc segments = .ok found := by
  induction segments generalizing loc with
  | nil => exact henter
  | cons segment segments ih =>
    rw [enter] at henter ⊢
    split at henter
    next hcounts => rw [if_pos hcounts]; exact ih henter
    next hcounts =>
    rw [if_neg hcounts]
    split at henter
    next hup => rw [if_pos hup]; exact ih henter
    next hup =>
    rw [if_neg hup]
    split at henter
    · cases henter
    next hlength =>
    rw [if_neg hlength]
    split at henter
    · cases henter
    · cases henter
    next hchild =>
      rw [child?, h _ hchild]
      exact ih henter

theorem target_of_directories {target : Target}
    (hw : d₂.workingDirectory = d₁.workingDirectory)
    (h : ∀ place, d₁.entry? place = some .directory → d₂.entry? place = some .directory)
    (htarget : d₁.target p = .ok target) : d₂.target p = .ok target := by
  have horigin : d₂.origin p = d₁.origin p := by rw [origin, origin, hw]
  rw [target_eq] at htarget ⊢
  rw [horigin]
  split at htarget
  · cases htarget
  next hend =>
  split at htarget
  · cases htarget
  next hne =>
  split at htarget
  · cases htarget
  next hshort =>
  rw [if_neg hend, if_neg hne, if_neg hshort]
  split at htarget
  · exact htarget
  next last before hsegments =>
  split at htarget
  next hdots =>
    rw [if_pos hdots]
    cases henter : d₁.enter (d₁.origin p) p.segments with
    | error e => simp [henter, Functor.map, Except.map] at htarget
    | ok found => rwa [enter_of_directories h henter, ← henter]
  next hdots =>
    rw [if_neg hdots]
    cases henter : d₁.enter (d₁.origin p) before.reverse with
    | error e => simp [henter, bind, Except.bind] at htarget
    | ok found => rwa [enter_of_directories h henter, ← henter]

end Disk

end ComponentRegistry
