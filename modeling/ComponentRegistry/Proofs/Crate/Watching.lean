import ComponentRegistry.Crate.Build
import ComponentRegistry.Proofs.Crate.Ending
import ComponentRegistry.Proofs.Disk.SameTree

/-! What a build depends on beside the paths that it names. Where the search for the files of a crate
has looked in vain outside of the directory of the sources, a file may be added later, and nothing
tells that the build has to run again. Apart from that the named paths are all that a build depends
on (`Build.generate_eq_iff_missed`). -/

namespace ComponentRegistry

namespace Disk

open FilePath

variable {d d₁ d₂ : Disk} {root : FilePath}

/-- What can be seen at a path: nothing, a directory, or a file with its contents. -/
def view (d : Disk) (p : FilePath) : Option (Option ByteArray) :=
  match d.locate p with
  | .ok (_, entry) => some entry.contents?
  | .error _ => none

theorem fileAt?_eq_view (d : Disk) (p : FilePath) : d.fileAt? p = (d.view p).join := by
  unfold fileAt? view
  cases d.locate p <;> rfl

/-- The paths below a directory of sources at which the modules of a crate are looked for in vain. -/
def missed (d : Disk) (root : FilePath) : List FilePath :=
  match d.sources.start? root with
  | none => []
  | some search => d.sources.missedIn root manyPaths search

theorem isFile_of_missedIn {s : Sources} {n : Nat} {search : Search} {p : FilePath}
    (h : p ∈ s.missedIn root n search) : s.isFile (root.join p) = false := by
  induction n generalizing search with
  | zero => simp [Sources.missedIn] at h
  | succ n ih =>
    rw [Sources.missedIn] at h
    split at h
    next => cases h
    next m rest hdue =>
      split at h
      next => cases h
      next text hread =>
        rcases List.mem_append.mp h with h | h
        · obtain ⟨decl, -, h⟩ := List.mem_flatMap.mp h
          obtain ⟨child, hchild, rfl⟩ := List.mem_map.mp h
          simpa using List.all_eq_true.mp (List.all_takeWhile ..) child hchild
        · exact ih h

theorem readText_congr {file : FilePath} (h : d₂.fileAt? file = d₁.fileAt? file) {text : String}
    (htext : d₁.readText file = .ok text) : d₂.readText file = d₁.readText file := by
  rw [htext, readText_eq_ok, h]
  exact readText_eq_ok.mp htext

theorem SameTree.isFile_join {p : FilePath} (h : SameTree d₁ d₂ root) (hstay : p.staysInside = true) :
    d₂.isFile (root.join p) = d₁.isFile (root.join p) := by
  rw [isFile_eq, isFile_eq, Bool.eq_iff_iff, Option.isSome_iff_exists, Option.isSome_iff_exists]
  exact ⟨fun ⟨c, hc⟩ => ⟨c, h.symm.fileAt?_join hstay hc⟩, fun ⟨c, hc⟩ => ⟨c, h.fileAt?_join hstay hc⟩⟩

/-- The root of a crate does not lie outside of the directory of its sources. -/
theorem SameTree.start?_eq (h : SameTree d₁ d₂ root) :
    d₂.sources.start? root = d₁.sources.start? root := by
  have hstays : ∀ name ∈ rootNames, (ofName name).staysInside = true := by decide
  have hnames : ∀ name ∈ rootNames, d₂.isFile (root.push name) = d₁.isFile (root.push name) :=
    fun name hname => h.isFile_join (hstays name hname)
  unfold Sources.start?
  congr 1
  refine Sources.find?_eq_of_found (fun name hname => ?_) fun name hname => ?_
  · exact (hnames name (List.mem_of_find?_eq_some hname)).trans
      (List.find?_some (p := fun name => d₁.isFile (root.push name)) hname)
  · exact (hnames name (List.mem_of_find?_eq_some hname)).symm.trans
      (List.find?_some (p := fun name => d₂.isFile (root.push name)) hname)

/-- What a search has found in one disk is found in another one that has the same files. -/
theorem keeps_of_reads {final : Search} (h : d₁.sources.Reads root final)
    (hsame : ∀ file ∈ final.found.files, d₂.fileAt? file = d₁.fileAt? file) :
    d₁.sources.Keeps d₂.sources root final := by
  intro p hp hfile
  obtain ⟨q, hq, hmem⟩ := h.listed _ hp
  obtain ⟨text, htext⟩ := h.read _ hmem
  obtain ⟨contents, hcontents, -⟩ := readText_eq_ok.mp htext
  have hfile : (d₁.fileAt? (root.join p)).isSome := by rw [← isFile_eq]; exact hfile
  obtain ⟨there, hthere⟩ := Option.isSome_iff_exists.mp hfile
  obtain ⟨name, hok, -⟩ := fileAt?_eq_some.mp hthere
  have hfound := fileAt?_join_of_normal_eq (identity_eq_iff.mp hq) hok
    ((hsame _ hmem).trans hcontents)
  show d₂.isFile (root.join p) = true
  rw [isFile_eq, hfound]
  rfl

theorem reads_start {search : Search} (h : d.sources.start? root = some search) :
    d.sources.Reads root search ∧ search.seen = [] ∧ search.found.files = [] := by
  obtain ⟨name, -, rfl⟩ := Option.map_eq_some_iff.mp h
  exact ⟨⟨by simp, by simp, by simp⟩, rfl, rfl⟩

/-- The search that finds the files of a crate. -/
theorem corpus_eq_ok {corpus : Corpus} (h : d.corpus root = .ok corpus) :
    ∃ search final, d.sources.start? root = some search ∧
      d.sources.run root manyPaths search = .ok final ∧ final.found = corpus := by
  unfold Disk.corpus Sources.corpus at h
  cases hstart : d.sources.start? root with
  | none => simp [hstart] at h
  | some search =>
    rw [hstart] at h
    dsimp only at h
    cases hrun : d.sources.run root manyPaths search with
    | error e => simp [hrun, Except.map] at h
    | ok final => exact ⟨search, final, rfl, hrun, by simpa [hrun, Except.map] using h⟩

theorem corpus_of_run {search final : Search} (hstart : d.sources.start? root = some search)
    (hrun : d.sources.run root manyPaths search = .ok final) :
    d.corpus root = .ok final.found := by
  unfold Disk.corpus Sources.corpus
  rw [hstart]
  dsimp only
  rw [hrun]
  rfl

/-- A crate is found again in a disk with the same sources and with the same files that have been
read, if and only if nothing stands where a file has been looked for in vain. -/
theorem SameTree.corpus_eq_iff {corpus : Corpus} (h : SameTree d₁ d₂ root)
    (hcorpus : d₁.corpus root = .ok corpus)
    (hsame : ∀ file ∈ corpus.files, d₂.fileAt? file = d₁.fileAt? file) :
    d₂.corpus root = .ok corpus ↔
      ∀ p ∈ d₁.missed root, p.staysInside = false → d₂.isFile (root.join p) = false := by
  obtain ⟨search, final, hstart, hrun, rfl⟩ := corpus_eq_ok hcorpus
  obtain ⟨hreads, hseen, hfiles⟩ := reads_start hstart
  have hend := pending_eq_nil hseen hfiles hrun
  have hreads₁ := hreads.run hrun
  have hread : ∀ file ∈ final.found.files, d₂.sources.read file = d₁.sources.read file := by
    intro file hfile
    obtain ⟨text, htext⟩ := hreads₁.read file hfile
    exact readText_congr (hsame file hfile) htext
  have hkeeps := keeps_of_reads hreads₁ hsame
  have hmissed : d₁.missed root = d₁.sources.missedIn root manyPaths search := by
    simp only [missed, hstart]
  rw [hmissed]
  constructor
  · intro hcorpus₂ p hp _
    obtain ⟨search₂, final₂, hstart₂, hrun₂, hfound⟩ := corpus_eq_ok hcorpus₂
    obtain rfl : search = search₂ := Option.some.inj (by rw [← hstart, ← hstart₂, h.start?_eq])
    have hreads₂ := (reads_start hstart₂).1.run hrun₂
    have hkeeps₂ : d₂.sources.Keeps d₁.sources root final₂ :=
      keeps_of_reads hreads₂ fun file hfile => (hsame file (hfound ▸ hfile)).symm
    exact Sources.missed_of_run hrun hrun₂ hend (pending_eq_nil hseen hfiles hrun₂) hread hkeeps
      hkeeps₂ p hp
  · intro houtside
    refine corpus_of_run (h.start?_eq.trans hstart)
      (Sources.run_congr hrun hend hread hkeeps fun p hp => ?_)
    cases hstay : p.staysInside with
    | false => exact houtside p hp hstay
    | true => exact (h.isFile_join hstay).trans (isFile_of_missedIn hp)

end Disk

namespace Build

open Disk

variable {b : Build} {config : Config} {d d₁ d₂ : Disk} {output : Output}

/-- What a build comes to after a pass with this output. -/
def resultOf (b : Build) (config : Config) (output : Output) (d : Disk) :
    Except BuildError Output :=
  ((b.writeOutput config output d).1.mapError .publish).map fun _ => output

/-- The steps of a build that succeeds. -/
theorem generate_eq_ok (h : (b.generate config d).result = .ok output) :
    ∃ corpus files, d.corpus b.sourceRoot = .ok corpus ∧
      (b.generate config d).watched = files ++ corpus.files ∧
      ((Session.start config).run corpus.nodes).1 = .ok output := by
  unfold generate at h ⊢
  cases hcorpus : d.corpus b.sourceRoot with
  | error e => simp [hcorpus] at h
  | ok corpus =>
    rcases hwatch : watchTree d b.sourceRoot with ⟨walked, files⟩
    cases walked with
    | error e => simp [hcorpus, hwatch] at h
    | ok =>
      cases hrun : ((Session.start config).run corpus.nodes).1 with
      | error e => simp [hcorpus, hwatch, hrun] at h
      | ok found =>
        rcases hwrite : b.writeOutput config found d with ⟨written, disk⟩
        cases written with
        | error e => simp [hcorpus, hwatch, hrun, hwrite] at h
        | ok =>
          simp only [hcorpus, hwatch, hrun, hwrite, Except.ok.injEq] at h
          exact ⟨corpus, files, rfl, by simp [hrun, hwrite], by rw [hrun, h]⟩

theorem watchTree_of_locate {root : FilePath} {found : Location × Disk.Entry}
    (h : d.locate root = .ok found) : ∃ files, watchTree d root = (.ok (), files) := by
  unfold watchTree filesIn
  rw [h]
  exact ⟨_, rfl⟩

theorem generate_of_corpus {corpus : Corpus} {found : Location × Disk.Entry}
    (hcorpus : d.corpus b.sourceRoot = .ok corpus) (hroot : d.locate b.sourceRoot = .ok found)
    (hrun : ((Session.start config).run corpus.nodes).1 = .ok output) :
    (b.generate config d).result = b.resultOf config output d := by
  obtain ⟨files, hwatch⟩ := watchTree_of_locate hroot
  unfold generate resultOf
  simp only [hcorpus, hwatch, hrun]
  obtain ⟨written, disk⟩ := b.writeOutput config output d
  cases written <;> rfl

/-- Take a build that succeeds, and a disk with the same sources that holds the same at all paths
that the build has named. Its crate is the same and the build has the same output there, as far as it
can be written, if and only if the disk has no file outside of the sources where the build has looked
for one in vain. -/
theorem generate_eq_iff_missed (hok : (b.generate config d₁).result = .ok output)
    (hsources : SameTree d₁ d₂ b.sourceRoot)
    (hwatched : ∀ p ∈ (b.generate config d₁).watched, d₂.view p = d₁.view p) :
    (d₂.corpus b.sourceRoot = d₁.corpus b.sourceRoot ∧
      (b.generate config d₂).result = b.resultOf config output d₂) ↔
    ∀ p ∈ d₁.missed b.sourceRoot, p.staysInside = false →
      d₂.isFile (b.sourceRoot.join p) = false := by
  obtain ⟨corpus, files, hcorpus, hwatch, hrun⟩ := generate_eq_ok hok
  have hsame : ∀ file ∈ corpus.files, d₂.fileAt? file = d₁.fileAt? file := by
    intro file hfile
    rw [fileAt?_eq_view, fileAt?_eq_view, hwatched file (by simp [hwatch, hfile])]
  rw [hcorpus, ← hsources.corpus_eq_iff hcorpus hsame]
  refine ⟨And.left, fun hcorpus₂ => ⟨hcorpus₂, ?_⟩⟩
  obtain ⟨-, loc, -, hroot, -⟩ := hsources
  exact generate_of_corpus hcorpus₂ hroot hrun

/-- A build of the crate in `/krate`. -/
def ofKrate : Build := ⟨.ofText "/krate", .ofText "/out"⟩

/-- A disk with one file more, and with the directories that it stands in. -/
def addFile (d : Disk) (path text : String) : Disk :=
  let path := FilePath.ofText path
  ((d.makeDirectories path.parent).2.write path text.toUTF8).toOption.getD d

/-- A crate with a module for which there is no file. Outside of the sources, its path is named by no
build. -/
def lackingFile : Disk := addFile .empty "/krate/src/lib.rs" "#[path=r\"../a.rs\"]mod a;"

theorem sameTree_addFile {path text : String} {entry : Disk.Entry} (place : Location)
    (hdirectory : (addFile lackingFile path text).locate ofKrate.sourceRoot =
      .ok (["krate", "src"], .directory))
    (hentries : (addFile lackingFile path text).entries = lackingFile.entries.insert place entry)
    (houtside : ¬["krate", "src"] <+: place) :
    SameTree lackingFile (addFile lackingFile path text) ofKrate.sourceRoot :=
  .of_insert rfl hdirectory hentries houtside

/-- The crate with another file beside its sources. -/
def otherFile : Disk := addFile lackingFile "/krate/b.rs" "#[Component]struct A;"

/-- A file that comes where none has been looked for changes nothing. -/
theorem generate_otherFile :
    (ofKrate.generate {} lackingFile).result = .ok .suppressed ∧
    SameTree lackingFile otherFile ofKrate.sourceRoot ∧
    otherFile.corpus ofKrate.sourceRoot = lackingFile.corpus ofKrate.sourceRoot ∧
    (ofKrate.generate {} otherFile).result = ofKrate.resultOf {} .suppressed otherFile := by
  have hok : (ofKrate.generate {} lackingFile).result = .ok .suppressed := by decide +kernel
  have hsources : SameTree lackingFile otherFile ofKrate.sourceRoot :=
    sameTree_addFile ["krate", "b.rs"] rfl rfl (by decide)
  exact ⟨hok, hsources,
    (generate_eq_iff_missed hok hsources (by decide +kernel)).mpr (by decide +kernel)⟩

/-- The crate with a file for its module, which declares a component. -/
def addingFile : Disk := addFile lackingFile "/krate/a.rs" "#[Component]struct A;"

/-- A build does not name a path at which it has looked for a file in vain, so it is not told of the
component that comes to stand there. -/
theorem generate_addingFile :
    (ofKrate.generate {} lackingFile).result = .ok .suppressed ∧
    SameTree lackingFile addingFile ofKrate.sourceRoot ∧
    (∀ p ∈ (ofKrate.generate {} lackingFile).watched, addingFile.view p = lackingFile.view p) ∧
    addingFile.corpus ofKrate.sourceRoot ≠ lackingFile.corpus ofKrate.sourceRoot ∧
    ((ofKrate.generate {} addingFile).result.toOption.bind Output.artifact?).isSome = true :=
  ⟨by decide +kernel, sameTree_addFile ["krate", "a.rs"] rfl rfl (by decide), by decide +kernel,
    by decide +kernel, by decide +kernel⟩

end Build

end ComponentRegistry
