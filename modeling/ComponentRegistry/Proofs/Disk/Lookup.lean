import ComponentRegistry.Disk.Basic
import Mathlib.Data.List.Induction

/-! What a path leads to. Of its segments only those that count matter on the way (`enter_filter`),
so two spellings of a path find the same file (`fileAt?_join_of_normal_eq`). -/

namespace ComponentRegistry

namespace FilePath

theorem not_counts_empty : counts "" = false := by simp [counts]

theorem filter_counts_untrailed (segments : List String) :
    (untrailed segments).filter counts = segments.filter counts := by
  unfold untrailed
  split
  · next h =>
    obtain ⟨before, rfl⟩ := List.getLast?_eq_some_iff.mp h
    simp [not_counts_empty]
  · rfl

/-- The double dots and names are all that counts of a path. -/
theorem names_eq_filter (p : FilePath) : p.names = p.segments.filter counts := by
  unfold names body lead
  split
  · next h =>
    obtain ⟨-, hdot⟩ := Bool.and_eq_true_iff.mp h
    cases hs : p.segments with
    | nil => rfl
    | cons first rest =>
      have hfirst : first = "." := by simpa [hs] using hdot
      subst hfirst
      simp [counts]
  · rfl

theorem filter_counts_join (base p : FilePath) :
    (base.join p).segments.filter counts =
      if p.absolute then p.names else base.names ++ p.names := by
  unfold join
  split
  · exact (names_eq_filter p).symm
  · rw [List.filter_append, filter_counts_untrailed, ← names_eq_filter, ← names_eq_filter]

theorem absolute_join (base p : FilePath) :
    (base.join p).absolute = (p.absolute || base.absolute) := by
  unfold join
  cases h : p.absolute <;> simp [h]

theorem names_eq_of_normal_eq {p q : FilePath} (h : p.normal = q.normal) : p.names = q.names := by
  have hsegments : p.lead ++ p.names = q.lead ++ q.names := congrArg segments h
  have hfilter := congrArg (List.filter counts) hsegments
  have hlead : ∀ r : FilePath, r.lead.filter counts = [] := by
    intro r
    unfold lead
    split <;> simp [counts]
  have hnames : ∀ r : FilePath, r.names.filter counts = r.names := by
    intro r
    simp [names]
  simpa only [List.filter_append, hlead, hnames, List.nil_append] using hfilter

theorem absolute_eq_of_normal_eq {p q : FilePath} (h : p.normal = q.normal) :
    p.absolute = q.absolute := by
  simpa only [normal] using congrArg FilePath.absolute h

end FilePath

namespace Disk

open FilePath

/-- The contents of a file; none for a directory. -/
def Entry.contents? : Entry → Option ByteArray
  | directory => none
  | file contents _ => some contents

/-- What can be seen of an entry: it is a directory, or a file with its contents. -/
def seen? (entry : Option Entry) : Option (Option ByteArray) := entry.map Entry.contents?

theorem seen?_eq_directory {entry : Option Entry} :
    seen? entry = some none ↔ entry = some .directory := by
  cases entry with
  | none => simp [seen?]
  | some e => cases e <;> simp [seen?, Entry.contents?]

theorem seen?_eq_file {entry : Option Entry} {contents : ByteArray} :
    seen? entry = some (some contents) ↔ ∃ written, entry = some (.file contents written) := by
  cases entry with
  | none => simp [seen?]
  | some e => cases e <;> simp [seen?, Entry.contents?]

theorem enter_filter (d : Disk) (loc : Location) (segments : List String) :
    d.enter loc (segments.filter counts) = d.enter loc segments := by
  induction segments generalizing loc with
  | nil => rfl
  | cons segment rest ih =>
    by_cases hc : counts segment
    · rw [List.filter_cons_of_pos hc]
      simp only [enter, hc, Bool.not_true, Bool.false_eq_true, if_false, ih]
    · rw [List.filter_cons_of_neg hc, ih]
      simp [enter, hc]

theorem enter_nil (d : Disk) (loc : Location) : d.enter loc [] = .ok loc := rfl

theorem enter_cons (d : Disk) (loc : Location) (segment : String) (rest : List String) :
    d.enter loc (segment :: rest) = d.enter loc [segment] >>= fun loc => d.enter loc rest := by
  rw [enter, enter]
  split
  · rfl
  · split
    · rfl
    · split
      · rfl
      · cases d.child? loc segment with
        | none => rfl
        | some entry => cases entry <;> rfl

theorem enter_append (d : Disk) (loc : Location) (segments rest : List String) :
    d.enter loc (segments ++ rest) = d.enter loc segments >>= fun loc => d.enter loc rest := by
  induction segments generalizing loc with
  | nil => rfl
  | cons segment segments ih =>
    rw [List.cons_append, enter_cons, enter_cons d loc segment segments]
    cases d.enter loc [segment] with
    | error e => rfl
    | ok found => exact ih found

/-- Where a path starts. -/
def origin (d : Disk) (p : FilePath) : Location := if p.absolute then [] else d.workingDirectory

/-- A path that may name a file: neither too long nor empty, and with a name at its end. -/
structure FilePathOk (p : FilePath) (name : String) : Prop where
  noEnd : '\x00' ∉ p.text.toList
  nonempty : p.isEmpty = false
  short : p.text.utf8ByteSize ≤ longestPath
  named : p.segments.getLast? = some name
  counts : counts name = true
  noParent : name ≠ ".."
  shortName : name.utf8ByteSize ≤ longestName

/-- The contents of the file that a path leads to. -/
def fileAt? (d : Disk) (p : FilePath) : Option ByteArray :=
  match d.locate p with
  | .ok (_, entry) => entry.contents?
  | .error _ => none

theorem isFile_eq (d : Disk) (p : FilePath) : d.isFile p = (d.fileAt? p).isSome := by
  unfold isFile fileAt?
  cases d.locate p with
  | error e => rfl
  | ok found =>
    obtain ⟨loc, entry⟩ := found
    cases entry <;> rfl

theorem readBytes_eq_ok {d : Disk} {p : FilePath} {contents : ByteArray} :
    d.readBytes p = .ok contents ↔ d.fileAt? p = some contents := by
  unfold readBytes fileAt?
  cases d.locate p with
  | error e => simp [bind, Except.bind]
  | ok found =>
    obtain ⟨loc, entry⟩ := found
    cases entry <;> simp [bind, Except.bind, pure, Except.pure, throw, throwThe,
      MonadExceptOf.throw, Entry.contents?]

theorem readText_eq_ok {d : Disk} {p : FilePath} {text : String} :
    d.readText p = .ok text ↔
      ∃ contents, d.fileAt? p = some contents ∧ String.fromUTF8? contents = some text := by
  simp only [← readBytes_eq_ok]
  unfold readText
  cases d.readBytes p with
  | error e => simp [bind, Except.bind]
  | ok contents =>
    simp only [bind, Except.bind, Except.ok.injEq, exists_eq_left']
    cases String.fromUTF8? contents <;> simp [pure, Except.pure, throw, throwThe,
      MonadExceptOf.throw]

/-- Following a path, case by case. -/
theorem target_eq (d : Disk) (p : FilePath) :
    d.target p =
      if p.text.toList.contains '\x00' then .error .invalidPath
      else if p.isEmpty then .error .notFound
      else if longestPath < p.text.utf8ByteSize then .error .nameTooLong
      else match p.segments.reverse.dropWhile (·.isEmpty) with
        | [] => .ok (.directory (d.origin p))
        | last :: before =>
          if last == "." || last == ".." then .directory <$> d.enter (d.origin p) p.segments
          else d.enter (d.origin p) before.reverse >>= fun parent =>
            if longestName < last.utf8ByteSize then .error .nameTooLong
            else .ok (.named parent last (p.segments.getLast? == some "")) := by
  unfold target
  simp only [origin]
  split
  · rfl
  · split
    · rfl
    · split
      · rfl
      · cases p.segments.reverse.dropWhile (·.isEmpty) with
        | nil => rfl
        | cons last before =>
          dsimp only
          split
          · cases d.enter _ p.segments <;> rfl
          · cases d.enter _ before.reverse <;> rfl

/-- The last segment as following a path finds it. -/
theorem dropWhile_reverse {segments : List String} {name : String}
    (h : segments.getLast? = some name) (hn : name.isEmpty = false) :
    segments.reverse.dropWhile (·.isEmpty) = name :: segments.dropLast.reverse := by
  obtain ⟨before, rfl⟩ := List.getLast?_eq_some_iff.mp h
  simp [hn]

theorem getLast?_of_dropWhile_reverse {segments before : List String} {name : String}
    (h : segments.reverse.dropWhile (·.isEmpty) = name :: before)
    (hlast : segments.getLast? ≠ some "") :
    segments.getLast? = some name ∧ segments.dropLast = before.reverse ∧ name.isEmpty = false := by
  cases hs : segments.getLast? with
  | none => simp [List.getLast?_eq_none_iff.mp hs] at h
  | some last =>
    have hne : last.isEmpty = false := by
      rw [hs] at hlast
      simpa using hlast
    rw [dropWhile_reverse hs hne] at h
    obtain ⟨rfl, rfl⟩ := List.cons.inj h
    simp [hne]

theorem FilePathOk.isEmpty_name {p : FilePath} {name : String} (h : FilePathOk p name) :
    name.isEmpty = false := by
  have hc := h.counts
  simp only [FilePath.counts, Bool.and_eq_true, bne_iff_ne] at hc
  simpa using hc.1

theorem target_of_ok (d : Disk) {p : FilePath} {name : String} (h : FilePathOk p name) :
    d.target p = d.enter (d.origin p) p.segments.dropLast >>= fun parent =>
      .ok (.named parent name false) := by
  have hname := h.isEmpty_name
  obtain ⟨hend, hne, hshort, hnamed, hcounts, hup, hlength⟩ := h
  have hdot : (name == "." || name == "..") = false := by
    simp only [FilePath.counts, Bool.and_eq_true, bne_iff_ne] at hcounts
    simp [hcounts.2, hup]
  have hslash : (some name == some "") = false := by simpa using hname
  rw [target_eq, if_neg (by simp [hend]), if_neg (by simp [hne]), if_neg (by omega),
    dropWhile_reverse hnamed hname]
  simp only [hdot, Bool.false_eq_true, if_false, List.reverse_reverse, hnamed, hslash,
    if_neg (Nat.not_lt.mpr hlength)]

theorem ok_of_target {d : Disk} {p : FilePath} {parent : Location} {name : String}
    (h : d.target p = .ok (.named parent name false)) :
    FilePathOk p name ∧ d.enter (d.origin p) p.segments.dropLast = .ok parent := by
  rw [target_eq] at h
  split at h
  · cases h
  next hend =>
  split at h
  · cases h
  next hne =>
  split at h
  · cases h
  next hshort =>
  split at h
  · cases h
  next last before hsegments =>
  split at h
  · cases henter : d.enter (d.origin p) p.segments <;> simp [henter, Functor.map, Except.map] at h
  next hdot =>
  cases henter : d.enter (d.origin p) before.reverse with
  | error e => simp [henter, bind, Except.bind] at h
  | ok found =>
    simp only [henter, bind, Except.bind] at h
    split at h
    · cases h
    next hlength =>
    simp only [Except.ok.injEq, Target.named.injEq] at h
    obtain ⟨rfl, rfl, hslash⟩ := h
    obtain ⟨hlast, hdropLast, hname⟩ :=
      getLast?_of_dropWhile_reverse hsegments (by simpa using hslash)
    have hdots : last ≠ "." ∧ last ≠ ".." := by simpa using hdot
    refine ⟨⟨by simpa using hend, by simpa using hne, by omega, hlast, ?_, hdots.2, by omega⟩, ?_⟩
    · have : last ≠ "" := by simpa using hname
      simp [FilePath.counts, this, hdots.1]
    · rw [hdropLast, henter]

/-- A path leads to a file if its segments lead to a directory with that file. -/
theorem fileAt?_eq_some {d : Disk} {p : FilePath} {contents : ByteArray} :
    d.fileAt? p = some contents ↔ ∃ name, FilePathOk p name ∧ ∃ parent,
      d.enter (d.origin p) p.segments.dropLast = .ok parent ∧
        seen? (d.child? parent name) = some (some contents) := by
  constructor
  · intro h
    unfold fileAt? locate at h
    cases ht : d.target p with
    | error e => simp [ht, bind, Except.bind] at h
    | ok t =>
      cases t with
      | directory loc => simp [ht, bind, Except.bind, pure, Except.pure, Entry.contents?] at h
      | named parent name slashed =>
        cases hc : d.child? parent name with
        | none => simp [ht, hc, bind, Except.bind, throw, throwThe, MonadExceptOf.throw] at h
        | some entry =>
          cases entry with
          | directory =>
            simp [ht, hc, bind, Except.bind, pure, Except.pure, Entry.contents?] at h
          | file found written =>
            cases slashed with
            | true => simp [ht, hc, bind, Except.bind, throw, throwThe, MonadExceptOf.throw] at h
            | false =>
              obtain ⟨hok, henter⟩ := ok_of_target ht
              refine ⟨name, hok, parent, henter, ?_⟩
              simpa [ht, hc, bind, Except.bind, pure, Except.pure, seen?] using h
  · rintro ⟨name, hok, parent, henter, hfile⟩
    obtain ⟨written, hfile⟩ := seen?_eq_file.mp hfile
    simp [fileAt?, locate, target_of_ok d hok, henter, hfile, bind, Except.bind, pure, Except.pure,
      Entry.contents?]

theorem enter_child {d : Disk} {parent : Location} {name : String} (hcounts : counts name = true)
    (hup : name ≠ "..") (hlength : name.utf8ByteSize ≤ longestName)
    (hc : d.child? parent name = some .directory) :
    d.enter parent [name] = .ok (parent ++ [name]) := by
  simp [enter, hcounts, hup, Nat.not_lt.mpr hlength, hc]

/-- Slashes at the end lead nowhere else. -/
theorem enter_dropWhile (d : Disk) (loc : Location) (segments : List String) :
    d.enter loc (segments.reverse.dropWhile (·.isEmpty)).reverse = d.enter loc segments := by
  induction segments using List.reverseRecOn with
  | nil => rfl
  | append_singleton segments last ih =>
    rw [List.reverse_append, List.reverse_singleton, List.singleton_append]
    by_cases hlast : last.isEmpty
    · rw [List.dropWhile_cons_of_pos hlast, ih, enter_append]
      obtain rfl : last = "" := by simpa using hlast
      cases d.enter loc segments <;> rfl
    · rw [List.dropWhile_cons_of_neg hlast, List.reverse_cons, List.reverse_reverse]

/-- All segments of the path of a directory lead to it. -/
theorem enter_of_locate {d : Disk} {p : FilePath} {loc : Location}
    (h : d.locate p = .ok (loc, .directory)) : d.enter (d.origin p) p.segments = .ok loc := by
  unfold locate at h
  rw [target_eq] at h
  split at h
  · cases h
  split at h
  · cases h
  split at h
  · cases h
  cases hs : p.segments.reverse.dropWhile (·.isEmpty) with
  | nil =>
    rw [← enter_dropWhile, hs]
    simpa [hs, bind, Except.bind, pure, Except.pure, enter_nil] using h
  | cons last before =>
    simp only [hs] at h
    split at h
    next =>
      cases henter : d.enter (d.origin p) p.segments with
      | error e => simp [henter, bind, Except.bind, Functor.map, Except.map] at h
      | ok found =>
        simpa [henter, bind, Except.bind, Functor.map, Except.map, pure, Except.pure] using h
    next hdots =>
      rw [← enter_dropWhile, hs, List.reverse_cons, enter_append]
      cases henter : d.enter (d.origin p) before.reverse with
      | error e => simp [henter, bind, Except.bind] at h
      | ok parent =>
        simp only [henter, bind, Except.bind] at h ⊢
        rcases Nat.lt_or_ge longestName last.utf8ByteSize with hlength | hlength
        · simp [hlength] at h
        simp only [if_neg (Nat.not_lt.mpr hlength)] at h
        cases hc : d.child? parent last with
        | none => simp [hc, throw, throwThe, MonadExceptOf.throw] at h
        | some entry =>
          cases entry with
          | file contents written =>
            simp only [hc] at h
            split at h <;> simp [throw, throwThe, MonadExceptOf.throw, pure, Except.pure] at h
          | directory =>
            have hdots : last ≠ "." ∧ last ≠ ".." := by simpa using hdots
            have hne : last.isEmpty = false := by
              have hhead := List.head_dropWhile_not (fun s : String => s.isEmpty)
                (show p.segments.reverse.dropWhile (·.isEmpty) ≠ [] by simp [hs])
              simpa [hs] using hhead
            have hcounts : counts last = true := by
              have : last ≠ "" := by simpa using hne
              simp [FilePath.counts, this, hdots.1]
            rw [enter_child hcounts hdots.2 hlength hc]
            simpa [hc, pure, Except.pure] using h

/-- Two spellings of a path below a directory find the same file, if both may name one. -/
theorem fileAt?_join_of_normal_eq {d : Disk} {base p q : FilePath} {contents : ByteArray}
    {name : String} (h : p.normal = q.normal) (hq : FilePathOk (base.join q) name)
    (hp : d.fileAt? (base.join p) = some contents) : d.fileAt? (base.join q) = some contents := by
  obtain ⟨last, hok, parent, henter, hfile⟩ := fileAt?_eq_some.mp hp
  have hcounts : (base.join p).segments.filter counts = (base.join q).segments.filter counts := by
    rw [filter_counts_join, filter_counts_join, names_eq_of_normal_eq h,
      absolute_eq_of_normal_eq h]
  have horigin : d.origin (base.join p) = d.origin (base.join q) := by
    simp only [origin, absolute_join, absolute_eq_of_normal_eq h]
  obtain ⟨before, hp'⟩ := List.getLast?_eq_some_iff.mp hok.named
  obtain ⟨before', hq'⟩ := List.getLast?_eq_some_iff.mp hq.named
  rw [hp', hq', List.filter_append, List.filter_append, List.filter_cons_of_pos hok.counts,
    List.filter_cons_of_pos hq.counts] at hcounts
  obtain ⟨hbefore, hlast⟩ := List.append_inj' hcounts rfl
  obtain rfl : last = name := by simpa using hlast
  refine fileAt?_eq_some.mpr ⟨last, hq, parent, ?_, hfile⟩
  rw [hp', List.dropLast_concat, ← enter_filter, hbefore, enter_filter, horigin] at henter
  rw [hq', List.dropLast_concat, henter]

end Disk

end ComponentRegistry
