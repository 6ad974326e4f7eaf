import ComponentRegistry.Disk.Publication
import ComponentRegistry.Proofs.Disk.Places

/-! What publishing does to a disk. Directories are made where nothing stood (`grown_ensureInside`),
and then the entry of one name is replaced (`Replaced`), so that every other file stays as it is
(`OutputDirectory.updated_publish`, `OutputDirectory.updated_retract`). -/

namespace ComponentRegistry

namespace Disk

open FilePath

variable {d d₁ d₂ d₃ : Disk} {loc place : Location} {p : FilePath} {paths : List FilePath}

theorem placeOf_congr (h : d₂.workingDirectory = d₁.workingDirectory) (p : FilePath) :
    d₂.placeOf p = d₁.placeOf p := by
  rw [placeOf, placeOf, origin, origin, h]

theorem entry?_put {parent : Location} {name : String} {entry : Entry}
    (hparent : d.entry? parent = some .directory) (hfree : d.child? parent name ≠ some .directory) :
    entry? (d.put parent name entry hparent hfree) place =
      if place = parent ++ [name] then some entry else d.entry? place :=
  entryIn?_insert _ (by simp) _ _

/-- Whatever stands somewhere stands in directories. -/
theorem entry?_of_append {entry : Entry} {below : Location} (hbelow : below ≠ [])
    (h : d.entry? (loc ++ below) = some entry) : d.entry? loc = some .directory := by
  induction below using List.reverseRecOn generalizing entry with
  | nil => exact absurd rfl hbelow
  | append_singleton below name ih =>
    rw [← List.append_assoc, entry?, entryIn?_append_singleton] at h
    have hup := d.closed h
    rcases eq_or_ne below [] with rfl | hne
    · rwa [List.append_nil] at hup
    · exact ih hne hup

theorem entry?_drop_of_file {contents : ByteArray} {written : Nat} (hloc : loc ≠ [])
    (h : d.entry? loc = some (.file contents written)) :
    entry? (d.drop loc) place = if place = loc then none else d.entry? place := by
  have hdrop : entry? (d.drop loc) place = if loc <+: place then none else d.entry? place := by
    unfold entry?
    cases place with
    | nil => simp [entryIn?, hloc]
    | cons name rest =>
      simp only [entryIn?, drop, SortedMap.get?_filter]
      cases d.entries.get? (name :: rest) <;> by_cases hle : loc <+: name :: rest <;>
        simp [Option.filter, hle]
  rw [hdrop]
  by_cases hle : loc <+: place
  · obtain ⟨below, rfl⟩ := hle
    rcases eq_or_ne below [] with rfl | hne
    · simp
    · rw [if_pos (List.prefix_append ..), if_neg (by simpa using hne)]
      cases hbelow : d.entry? (loc ++ below) with
      | none => rfl
      | some entry => simp [entry?_of_append hne hbelow] at h
  · have hne : place ≠ loc := fun heq => hle (heq ▸ List.prefix_refl loc)
    rw [if_neg hle, if_neg hne]

/-- A disk with more directories, which are those of some paths. -/
structure Grown (d₁ d₂ : Disk) (paths : List FilePath) : Prop where
  workingDirectory : d₂.workingDirectory = d₁.workingDirectory
  entry (place : Location) : d₂.entry? place = d₁.entry? place ∨
    d₁.entry? place = none ∧ d₂.entry? place = some .directory ∧ ∃ p ∈ paths, d₁.placeOf p = place

namespace Grown

theorem refl (d : Disk) (paths : List FilePath) : d.Grown d paths := ⟨rfl, fun _ => .inl rfl⟩

theorem trans (h : d₁.Grown d₂ paths) (h' : d₂.Grown d₃ paths) : d₁.Grown d₃ paths where
  workingDirectory := h'.workingDirectory.trans h.workingDirectory
  entry place := by
    rcases h.entry place with hsame | ⟨hnone, hmade, hplace⟩
    · rcases h'.entry place with hsame' | ⟨hnone', hmade', p, hp, hplace'⟩
      · exact .inl (hsame'.trans hsame)
      · exact .inr ⟨hsame ▸ hnone', hmade', p, hp, placeOf_congr h.workingDirectory p ▸ hplace'⟩
    · rcases h'.entry place with hsame' | ⟨hnone', -, -⟩
      · exact .inr ⟨hnone, hsame'.trans hmade, hplace⟩
      · simp [hmade] at hnone'

theorem mono {more : List FilePath} (h : d₁.Grown d₂ paths) (hle : paths ⊆ more) :
    d₁.Grown d₂ more where
  workingDirectory := h.workingDirectory
  entry place := (h.entry place).imp_right fun ⟨hnone, hmade, p, hp, hplace⟩ =>
    ⟨hnone, hmade, p, hle hp, hplace⟩

theorem entry_eq_some (h : d₁.Grown d₂ paths) {entry : Entry}
    (hentry : d₁.entry? place = some entry) : d₂.entry? place = some entry := by
  rcases h.entry place with hsame | ⟨hnone, -, -⟩
  · exact hsame.trans hentry
  · simp [hnone] at hentry

end Grown

theorem grown_makeDirectory (h : d₁.makeDirectory p = .ok d₂) : d₁.Grown d₂ [p] := by
  unfold makeDirectory at h
  cases htarget : d₁.target p with
  | error e => simp [htarget, bind, Except.bind] at h
  | ok target =>
    cases target with
    | directory loc => simp [htarget, bind, Except.bind, throw, throwThe, MonadExceptOf.throw] at h
    | named parent name slashed =>
      simp only [htarget, bind, Except.bind] at h
      split at h
      next hfree =>
        split at h
        next hparent =>
          obtain rfl := Except.ok.inj h
          refine ⟨rfl, fun place => ?_⟩
          rw [entry?_put hparent]
          split
          next hplace =>
            refine .inr ⟨hplace ▸ hfree, rfl, p, List.mem_singleton_self p, ?_⟩
            rw [placeOf_of_target htarget, hplace]
          next => exact .inl rfl
        next => cases h
      next => cases h

theorem grown_ensureDirectory (h : d₁.ensureDirectory p = .ok d₂) : d₁.Grown d₂ [p] := by
  unfold ensureDirectory at h
  split at h
  next =>
    split at h
    next => exact Except.ok.inj h ▸ Grown.refl ..
    next => cases h
  next => exact grown_makeDirectory h

theorem grown_ensureInside (d : Disk) (paths : List FilePath) :
    d.Grown (d.ensureInside paths).2 paths := by
  induction paths with
  | nil => exact Grown.refl ..
  | cons p above ih =>
    have habove := ih.mono (List.subset_cons_self p above)
    have hfirst : [p] ⊆ p :: above := by simp
    rw [ensureInside]
    split
    next h => exact (grown_ensureDirectory h).mono hfirst
    next =>
      split
      next h => rwa [h] at habove
      next h =>
        rw [h] at habove
        split
        next h' => exact habove.trans ((grown_ensureDirectory h').mono hfirst)
        next => exact habove
    next => exact Grown.refl ..

/-- A disk with another entry, or none, where a path leads to no directory. -/
structure Replaced (d₁ d₂ : Disk) (p : FilePath) (new : Option Entry) : Prop where
  target : ∃ parent name, d₁.target p = .ok (.named parent name false)
  free : d₁.entry? (d₁.placeOf p) ≠ some .directory
  workingDirectory : d₂.workingDirectory = d₁.workingDirectory
  entry (place : Location) :
    d₂.entry? place = if place = d₁.placeOf p then new else d₁.entry? place

namespace Replaced

variable {new : Option Entry}

/-- What stands at the path now. -/
theorem sees (h : d₁.Replaced d₂ p new) :
    d₂.sees p = new.elim (.error .notFound) (.ok ·.contents?) := by
  obtain ⟨parent, name, htarget⟩ := h.target
  have hplace := placeOf_of_target htarget
  have hdirectories (place : Location) (hplace : d₁.entry? place = some .directory) :
      d₂.entry? place = some .directory := by
    have hne : place ≠ d₁.placeOf p := fun heq => h.free (heq ▸ hplace)
    rw [h.entry, if_neg hne, hplace]
  rw [sees_eq, target_of_directories h.workingDirectory hdirectories htarget]
  simp only [bind, Except.bind, seenAt, h.entry, if_pos hplace.symm]
  cases new with
  | none => rfl
  | some entry => cases entry <;> rfl

end Replaced

theorem replaced_write {contents : ByteArray} (h : d₁.write p contents = .ok d₂) :
    d₁.Replaced d₂ p (some (.file contents d₁.writes)) := by
  unfold write at h
  cases htarget : d₁.target p with
  | error e => simp [htarget, bind, Except.bind] at h
  | ok target =>
    cases target with
    | directory loc => simp [htarget, bind, Except.bind, throw, throwThe, MonadExceptOf.throw] at h
    | named parent name slashed =>
      have hplace := placeOf_of_target htarget
      simp only [htarget, bind, Except.bind] at h
      split at h
      next => cases h
      next hslashed =>
      obtain rfl : slashed = false := by simpa using hslashed
      split at h
      next => cases h
      next hfree =>
      split at h
      next hparent =>
        obtain rfl := Except.ok.inj h
        refine ⟨⟨parent, name, htarget⟩, hplace ▸ hfree, rfl, fun place => ?_⟩
        rw [hplace]
        exact entry?_put hparent hfree
      next => cases h

theorem replaced_removeFile (h : d₁.removeFile p = .ok d₂) : d₁.Replaced d₂ p none := by
  unfold removeFile at h
  cases htarget : d₁.target p with
  | error e => simp [htarget, bind, Except.bind] at h
  | ok target =>
    cases target with
    | directory loc => simp [htarget, bind, Except.bind, throw, throwThe, MonadExceptOf.throw] at h
    | named parent name slashed =>
      have hplace := placeOf_of_target htarget
      simp only [htarget, bind, Except.bind] at h
      split at h
      next => cases h
      next => cases h
      next contents written hfile =>
      split at h
      next => cases h
      next hslashed =>
      obtain rfl : slashed = false := by simpa using hslashed
      obtain rfl := Except.ok.inj h
      refine ⟨⟨parent, name, htarget⟩, ?_, rfl, fun place => ?_⟩
      · rw [hplace]
        exact fun hdirectory => by simp [child?, hdirectory] at hfile
      · rw [hplace]
        exact entry?_drop_of_file (by simp) hfile

/-- A disk with more directories, and with another entry, or none, at one path. -/
structure Updated (d₁ d₂ : Disk) (directory file : FilePath) : Prop where
  workingDirectory : d₂.workingDirectory = d₁.workingDirectory
  entry (place : Location) : d₂.entry? place = d₁.entry? place ∨ place = d₁.placeOf file ∨
    d₁.entry? place = none ∧ d₂.entry? place = some .directory ∧
      ∃ p ∈ directory.upwards, d₁.placeOf p = place

namespace Updated

variable {directory file : FilePath}

theorem refl (d : Disk) (directory file : FilePath) : d.Updated d directory file :=
  ⟨rfl, fun _ => .inl rfl⟩

theorem of_replaced {new : Option Entry} (h : d₁.Grown d₂ directory.upwards)
    (h' : d₂.Replaced d₃ file new) : d₁.Updated d₃ directory file where
  workingDirectory := h'.workingDirectory.trans h.workingDirectory
  entry place := by
    rw [h'.entry, placeOf_congr h.workingDirectory]
    split
    next hplace => exact .inr (.inl hplace)
    next => exact (h.entry place).imp_right .inr

/-- All other files stay, and there are no new ones. -/
theorem entry_eq_file_iff (h : d₁.Updated d₂ directory file) (hplace : place ≠ d₁.placeOf file)
    {contents : ByteArray} {written : Nat} :
    d₂.entry? place = some (.file contents written) ↔
      d₁.entry? place = some (.file contents written) := by
  rcases h.entry place with hsame | hfile | ⟨hnone, hmade, -⟩
  · rw [hsame]
  · exact absurd hfile hplace
  · simp [hnone, hmade]

end Updated

end Disk

/-- A text is what its bytes are decoded to. -/
theorem fromUTF8?_eq_some {contents : ByteArray} {text : String} :
    String.fromUTF8? contents = some text ↔ contents = text.toUTF8 := by
  unfold String.fromUTF8?
  constructor
  · intro h
    split at h
    next => exact congrArg String.toUTF8 (Option.some.inj h)
    next => cases h
  · rintro rfl
    exact dif_pos text.isValidUTF8

namespace OutputDirectory

open Disk

variable {dir : OutputDirectory} {artifact : Artifact} {d : Disk} {fileName : String}

theorem isUpToDate_iff : dir.isUpToDate artifact d = true ↔
    d.sees (dir.pathFor artifact.fileName) = .ok (some artifact.contents.toUTF8) := by
  have htext : dir.isUpToDate artifact d = true ↔
      d.readText (dir.pathFor artifact.fileName) = .ok artifact.contents := by
    unfold isUpToDate
    cases d.readText (dir.pathFor artifact.fileName) <;> simp [Except.toOption]
  rw [htext]
  unfold readText
  rw [readBytes_eq_sees]
  cases d.sees (dir.pathFor artifact.fileName) with
  | error e => simp [bind, Except.bind]
  | ok seen =>
    cases seen with
    | none => simp [bind, Except.bind]
    | some contents =>
      simp only [bind, Except.bind, Option.elim, Except.ok.injEq, Option.some.injEq,
        ← fromUTF8?_eq_some]
      cases String.fromUTF8? contents <;> simp [pure, Except.pure, throw, throwThe,
        MonadExceptOf.throw]

/-- Publishing a file writes this one only, and does nothing else than to make directories if that
fails. -/
theorem updated_publish (dir : OutputDirectory) (artifact : Artifact) (d : Disk) :
    (∃ e, (dir.publish artifact d).1 = .error e ∧
      d.Grown (dir.publish artifact d).2 dir.path.upwards) ∨
    (dir.publish artifact d).1 = .ok () ∧
      d.Updated (dir.publish artifact d).2 dir.path (dir.pathFor artifact.fileName) ∧
      (dir.publish artifact d).2.sees (dir.pathFor artifact.fileName) =
        .ok (some artifact.contents.toUTF8) := by
  unfold publish
  dsimp only
  split
  next hup => exact .inr ⟨rfl, Updated.refl .., isUpToDate_iff.mp hup⟩
  next =>
    have hgrown : d.Grown (d.makeDirectories dir.path).2 dir.path.upwards :=
      grown_ensureInside d dir.path.upwards
    split
    next h => exact .inl ⟨_, rfl, by rwa [h] at hgrown⟩
    next h =>
      rw [h] at hgrown
      split
      next => exact .inl ⟨_, rfl, hgrown⟩
      next hwrite =>
        have hreplaced := replaced_write hwrite
        exact .inr ⟨rfl, .of_replaced hgrown hreplaced, hreplaced.sees⟩

/-- Publishing a file again does nothing. -/
theorem publish_of_sees
    (h : d.sees (dir.pathFor artifact.fileName) = .ok (some artifact.contents.toUTF8)) :
    dir.publish artifact d = (.ok (), d) := by
  unfold publish
  dsimp only
  rw [if_pos (isUpToDate_iff.mpr h)]

/-- Removing a file removes this one only, and nothing if that fails. -/
theorem updated_retract (dir : OutputDirectory) (fileName : String) (d : Disk) :
    (∃ e, (dir.retract fileName d).1 = .error e ∧ (dir.retract fileName d).2 = d) ∨
    (dir.retract fileName d).1 = .ok () ∧
      d.Updated (dir.retract fileName d).2 dir.path (dir.pathFor fileName) ∧
      (dir.retract fileName d).2.has (dir.pathFor fileName) = false := by
  unfold retract
  dsimp only
  split
  next =>
    split
    next => exact .inl ⟨_, rfl, rfl⟩
    next hremove =>
      have hreplaced := replaced_removeFile hremove
      refine .inr ⟨rfl, .of_replaced (Grown.refl ..) hreplaced, ?_⟩
      rw [has_eq_sees, hreplaced.sees]
      rfl
  next hhas => exact .inr ⟨rfl, Updated.refl .., by simpa using hhas⟩

theorem retract_of_has (h : d.has (dir.pathFor fileName) = false) :
    dir.retract fileName d = (.ok (), d) := by
  unfold retract
  dsimp only
  rw [if_neg (by simp [h])]

end OutputDirectory

end ComponentRegistry
