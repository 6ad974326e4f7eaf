import ComponentRegistry.Proofs.Crate.Visits
import ComponentRegistry.Proofs.Crate.Watching
import ComponentRegistry.Proofs.Disk.Writing
import ComponentRegistry.Proofs.Generation.Published

/-! What a build leaves behind. If its output does not come in the way of the sources, a build that
succeeds leaves what any other build of the same sources leaves, and the build after it has nothing
to write; a build that fails before it writes changes nothing (`Build.generate_leaves`). -/

namespace ComponentRegistry

/-- The paths at which a search looks during at most `n` turns, from the names of the root on. -/
def Sources.looked (s : Sources) (directory : FilePath) (n : Nat) : List FilePath :=
  s.tried (rootNames.map directory.push) ++
    match s.start? directory with
    | none => []
    | some search => (s.visits directory n search).flatMap fun m =>
      directory.join m.path :: s.probes directory m

theorem Sources.mem_tried_cons (s : Sources) (p : FilePath) (ps : List FilePath) :
    p ∈ s.tried (p :: ps) := by
  cases h : s.isFile p <;> simp [tried, h]

namespace Disk

open FilePath

variable {d d₁ d₂ : Disk} {root : FilePath}

/-- The places through which the search for the files of a crate goes. -/
def searched (d : Disk) (root : FilePath) : List Location :=
  (d.sources.looked root manyPaths).flatMap d.placesOn

theorem isFile_congr {p : FilePath} (hw : d₂.workingDirectory = d₁.workingDirectory)
    (h : d₁.SameOn d₂ p) : d₂.isFile p = d₁.isFile p := by
  rw [isFile_eq_sees, isFile_eq_sees, sees_congr hw h]

theorem readText_congr_of_sameOn {p : FilePath} (hw : d₂.workingDirectory = d₁.workingDirectory)
    (h : d₁.SameOn d₂ p) : d₂.readText p = d₁.readText p := by
  rw [readText, readText, readBytes_eq_sees, readBytes_eq_sees, sees_congr hw h]

/-- A crate depends on nothing but what stands where the search goes. -/
theorem corpus_congr (hw : d₂.workingDirectory = d₁.workingDirectory)
    (h : ∀ place ∈ d₁.searched root, d₂.seenAt place = d₁.seenAt place) :
    d₂.corpus root = d₁.corpus root := by
  have hlooked (p : FilePath) (hp : p ∈ d₁.sources.looked root manyPaths) : d₁.SameOn d₂ p :=
    fun place hplace => h place (List.mem_flatMap.mpr ⟨p, hp, hplace⟩)
  have hstart : d₂.sources.start? root = d₁.sources.start? root := by
    unfold Sources.start?
    rw [Sources.find?_eq_of_tried fun p hp =>
      isFile_congr hw (hlooked p (List.mem_append_left _ hp))]
  unfold Disk.corpus Sources.corpus
  rw [hstart]
  cases hsearch : d₁.sources.start? root with
  | none => rfl
  | some search =>
    have hvisits (m : ModuleFile) (hm : m ∈ d₁.sources.visits root manyPaths search)
        (p : FilePath) (hp : p ∈ root.join m.path :: d₁.sources.probes root m) : d₁.SameOn d₂ p := by
      refine hlooked p (List.mem_append_right _ ?_)
      rw [hsearch]
      exact List.mem_flatMap.mpr ⟨m, hm, hp⟩
    dsimp only
    rw [Sources.run_congr_of_visits fun m hm =>
      ⟨readText_congr_of_sameOn hw (hvisits m hm _ List.mem_cons_self),
        fun p hp => isFile_congr hw (hvisits m hm p (List.mem_cons_of_mem _ hp))⟩]

theorem view_eq_sees (d : Disk) (p : FilePath) : d.view p = (d.sees p).toOption := by
  unfold view sees
  cases d.locate p <;> rfl

theorem view_eq_file {p : FilePath} {contents : ByteArray} :
    d.view p = some (some contents) ↔ d.sees p = .ok (some contents) := by
  rw [view_eq_sees]
  cases d.sees p <;> simp [Except.toOption]

theorem has_eq_view (d : Disk) (p : FilePath) : d.has p = (d.view p).isSome := by
  rw [has_eq_sees, view_eq_sees]

end Disk

namespace Build

open Disk

variable {b : Build} {config : Config} {d d₁ d₂ left : Disk} {output : Output}

/-- The path of the generated file. -/
def artifactPath (b : Build) (config : Config) : FilePath := b.output.pathFor config.artifactFile

/-- The output does not come in the way of the sources: the search for them goes neither through the
directory nor through the file of the output, nor where a directory for them has to be made. -/
structure Apart (b : Build) (config : Config) (d : Disk) : Prop where
  directory : ∀ place ∈ d.searched b.sourceRoot, ¬d.placeOf b.outputDirectory <+: place
  file : ∀ place ∈ d.searched b.sourceRoot, ¬d.placeOf (b.artifactPath config) <+: place
  made : ∀ p ∈ b.outputDirectory.upwards, d.entry? (d.placeOf p) = none →
    d.placeOf p ∉ d.searched b.sourceRoot

/-- What a build with this output leaves behind on a disk. -/
structure Leaves (b : Build) (config : Config) (d : Disk) (output : Output) (left : Disk) :
    Prop where
  renewed : output ≠ .unchanged
  written (artifact : Artifact) : output = .emitted artifact →
    left.readBytes (b.artifactPath config) = .ok artifact.contents.toUTF8
  removed : output = .suppressed → left.has (b.artifactPath config) = false
  /-- There are no other files than before, and they are those that have been there. -/
  others (place : Location) : place ≠ d.placeOf (b.artifactPath config) →
    ∀ contents written, left.entry? place = some (.file contents written) ↔
      d.entry? place = some (.file contents written)
  /-- The build of the same sources leaves the same, whatever else the disk holds. -/
  sources (other : Disk) : other.workingDirectory = d.workingDirectory →
    (∀ place ∈ d.searched b.sourceRoot, ¬d.placeOf b.outputDirectory <+: place →
      ¬d.placeOf (b.artifactPath config) <+: place → other.seenAt place = d.seenAt place) →
    (∃ e, (b.generate config other).result = .error (.publish e)) ∨
    (b.generate config other).result = .ok output ∧
      (b.generate config other).disk.view (b.artifactPath config) =
        left.view (b.artifactPath config)
  again : (b.generate config left).result = .ok output ∧ (b.generate config left).disk = left

theorem disk_of_corpus {corpus : Corpus} {found : Location × Disk.Entry}
    (hcorpus : d.corpus b.sourceRoot = .ok corpus) (hroot : d.locate b.sourceRoot = .ok found)
    (hrun : ((Session.start config).run corpus.nodes).1 = .ok output) :
    (b.generate config d).disk = (b.writeOutput config output d).2 := by
  obtain ⟨files, hwatch⟩ := watchTree_of_locate hroot
  unfold generate
  simp only [hcorpus, hwatch, hrun]
  obtain ⟨written, disk⟩ := b.writeOutput config output d
  cases written <;> rfl

/-- A build fails before it writes anything, or it comes to an output. -/
theorem generate_cases (b : Build) (config : Config) (d : Disk) :
    ((b.generate config d).disk = d ∧
      ∃ e, (b.generate config d).result = .error e ∧ ∀ e', e ≠ .publish e') ∨
    ∃ corpus found output, d.corpus b.sourceRoot = .ok corpus ∧
      d.locate b.sourceRoot = .ok found ∧
      ((Session.start config).run corpus.nodes).1 = .ok output := by
  cases hcorpus : d.corpus b.sourceRoot with
  | error e => exact .inl (by simp [generate, hcorpus])
  | ok corpus =>
    cases hroot : d.locate b.sourceRoot with
    | error e =>
      have hwatch : watchTree d b.sourceRoot =
          (.error (.walk b.sourceRoot e), [b.sourceRoot]) := by
        simp [watchTree, filesIn, hroot, bind, Except.bind]
      exact .inl (by simp [generate, hcorpus, hwatch])
    | ok found =>
      obtain ⟨files, hwatch⟩ := watchTree_of_locate hroot
      cases hrun : ((Session.start config).run corpus.nodes).1 with
      | error e => exact .inl (by simp [generate, hcorpus, hwatch, hrun])
      | ok output => exact .inr ⟨corpus, found, output, rfl, rfl, hrun⟩

/-- The root of the sources stays where it is when nothing changes where the search goes. -/
theorem locate_sourceRoot {found : Location × Disk.Entry}
    (hw : d₂.workingDirectory = d₁.workingDirectory)
    (h : ∀ place ∈ d₁.searched b.sourceRoot, d₂.seenAt place = d₁.seenAt place)
    (hroot : d₁.locate b.sourceRoot = .ok found) :
    ∃ found₂, d₂.locate b.sourceRoot = .ok found₂ := by
  have hpush : (b.sourceRoot.push "lib.rs").segments = b.sourceRoot.segments ++ ["lib.rs"] := by
    simp [sourceRoot, FilePath.push, FilePath.join, FilePath.ofName, FilePath.untrailed]
  have horigin : d₁.origin (b.sourceRoot.push "lib.rs") = d₁.origin b.sourceRoot := by
    simp [origin, FilePath.push, FilePath.absolute_join, FilePath.ofName]
  have hsame : d₁.SameOn d₂ b.sourceRoot := by
    intro place hplace
    refine h place (List.mem_flatMap.mpr ⟨b.sourceRoot.push "lib.rs", ?_, ?_⟩)
    · exact List.mem_append_left _ (Sources.mem_tried_cons ..)
    · rw [placesOn, hpush, horigin]
      exact mem_along_append hplace
  have hsees := sees_congr hw hsame
  rw [sees, sees, hroot] at hsees
  cases hlocate : d₂.locate b.sourceRoot with
  | error e => simp [hlocate, Except.map] at hsees
  | ok found₂ => exact ⟨found₂, rfl⟩

theorem fileName_of_emit {set : AcceptedSet} {artifact : Artifact}
    (h : Artifact.emit set config = .ok (some artifact)) :
    artifact.fileName = config.artifactFile := by
  unfold Artifact.emit at h
  split at h
  next => cases h
  next =>
    cases hmodel : Model.build set config with
    | error e => simp [hmodel, bind, Except.bind] at h
    | ok model =>
      simp only [hmodel, bind, Except.bind, pure, Except.pure, Except.ok.injEq,
        Option.some.injEq] at h
      rw [← h]

/-- The first pass of a session comes to a registry in the file that is asked for, or to none. -/
theorem run_start_cases {nodes : List Node}
    (h : ((Session.start config).run nodes).1 = .ok output) :
    output = .suppressed ∨ ∃ contents, output = .emitted ⟨config.artifactFile, contents⟩ := by
  have hends := Session.call_ends (.start config) (.run nodes)
  rw [show ((Session.start config).call (.run nodes)).1 = .ok output from h] at hends
  cases hends with
  | unchanged hsame _ => cases hsame
  | suppressed _ _ => exact .inl rfl
  | @emitted artifact hemit _ =>
    have hname : artifact.fileName = config.artifactFile := fileName_of_emit hemit
    exact .inr ⟨artifact.contents, by rw [← hname]⟩

/-- What is seen at the path of the generated file after a build with this output. -/
def expected (output : Output) : Option (Option ByteArray) :=
  output.artifact?.map fun artifact => some artifact.contents.toUTF8

/-- Writing an output changes its file only, and does nothing else than to make directories if that
fails. -/
theorem updated_writeOutput (h : output = .suppressed ∨
      ∃ contents, output = .emitted ⟨config.artifactFile, contents⟩) :
    (∃ e, (b.writeOutput config output d).1 = .error e ∧
      d.Grown (b.writeOutput config output d).2 b.outputDirectory.upwards) ∨
    (b.writeOutput config output d).1 = .ok () ∧
      d.Updated (b.writeOutput config output d).2 b.outputDirectory (b.artifactPath config) ∧
      (b.writeOutput config output d).2.view (b.artifactPath config) = expected output := by
  rcases h with rfl | ⟨contents, rfl⟩
  · rcases OutputDirectory.updated_retract b.output config.artifactFile d with
      ⟨e, hresult, hdisk⟩ | ⟨hresult, hupdated, hhas⟩
    · exact .inl ⟨e, hresult, by rw [writeOutput, hdisk]; exact Grown.refl ..⟩
    · rw [has_eq_view, Option.isSome_eq_false_iff, Option.isNone_iff_eq_none] at hhas
      exact .inr ⟨hresult, hupdated, hhas⟩
  · rcases OutputDirectory.updated_publish b.output ⟨config.artifactFile, contents⟩ d with
      ⟨e, hresult, hgrown⟩ | ⟨hresult, hupdated, hsees⟩
    · exact .inl ⟨e, hresult, hgrown⟩
    · exact .inr ⟨hresult, hupdated, view_eq_file.mpr hsees⟩

/-- An output that is there already is not written again. -/
theorem writeOutput_of_view (h : output = .suppressed ∨
      ∃ contents, output = .emitted ⟨config.artifactFile, contents⟩)
    (hview : d.view (b.artifactPath config) = expected output) :
    b.writeOutput config output d = (.ok (), d) := by
  rcases h with rfl | ⟨contents, rfl⟩
  · refine OutputDirectory.retract_of_has ?_
    rw [has_eq_view]
    exact congrArg Option.isSome hview
  · exact OutputDirectory.publish_of_sees (view_eq_file.mp hview)

/-- Where the search for the sources goes, everything is as before. -/
theorem Apart.seenAt_eq (h : b.Apart config d)
    (hupdated : d.Updated left b.outputDirectory (b.artifactPath config)) :
    ∀ place ∈ d.searched b.sourceRoot, left.seenAt place = d.seenAt place := by
  intro place hplace
  rcases hupdated.entry place with hsame | rfl | ⟨hnone, -, p, hp, rfl⟩
  · rw [Disk.seenAt, Disk.seenAt, hsame]
  · exact absurd (List.prefix_refl _) (h.file _ hplace)
  · exact absurd hplace (h.made p hp hnone)

/-- A build whose output does not come in the way of its sources leaves, if it succeeds, what the
build of these sources leaves on any disk, and nothing to write for the next build. If it fails while
it writes, all files are as before, and if it fails before, nothing has changed. -/
theorem generate_leaves (h : b.Apart config d) :
    (∀ output, (b.generate config d).result = .ok output →
      b.Leaves config d output (b.generate config d).disk) ∧
    ∀ e, (b.generate config d).result = .error e →
      (∀ place contents written, d.entry? place = some (.file contents written) →
        entry? (b.generate config d).disk place = some (.file contents written)) ∧
      ((∀ e', e ≠ .publish e') → (b.generate config d).disk = d) := by
  rcases generate_cases b config d with ⟨hdisk, e, hresult, -⟩ |
    ⟨corpus, found, output, hcorpus, hroot, hrun⟩
  · refine ⟨fun output hok => ?_, fun _ _ => ⟨fun _ _ _ hfile => ?_, fun _ => hdisk⟩⟩
    · rw [hresult] at hok
      cases hok
    · rw [hdisk, hfile]
  have houtput := run_start_cases hrun
  rw [generate_of_corpus hcorpus hroot hrun, disk_of_corpus hcorpus hroot hrun, resultOf]
  rcases updated_writeOutput (b := b) (d := d) houtput with
    ⟨e, hresult, hgrown⟩ | ⟨hresult, hupdated, hview⟩
  · rw [hresult]
    refine ⟨nofun, fun e' he => ⟨fun _ _ _ hfile => hgrown.entry_eq_some hfile, fun hne => ?_⟩⟩
    exact absurd (Except.error.inj he).symm (hne e)
  rw [hresult]
  refine ⟨fun output' hok => ?_, nofun⟩
  obtain rfl : output = output' := Except.ok.inj hok
  -- What a build comes to in another disk that holds the same sources.
  have hother (other : Disk) (hw : other.workingDirectory = d.workingDirectory)
      (hsame : ∀ place ∈ d.searched b.sourceRoot, other.seenAt place = d.seenAt place) :
      (b.generate config other).result = b.resultOf config output other ∧
        (b.generate config other).disk = (b.writeOutput config output other).2 := by
    obtain ⟨found₂, hroot₂⟩ := locate_sourceRoot hw hsame hroot
    have hcorpus₂ := (corpus_congr hw hsame).trans hcorpus
    exact ⟨generate_of_corpus hcorpus₂ hroot₂ hrun, disk_of_corpus hcorpus₂ hroot₂ hrun⟩
  refine ⟨?_, fun artifact hartifact => ?_, fun hsuppressed => ?_,
    fun place hplace contents written => hupdated.entry_eq_file_iff hplace,
    fun other hw hsame => ?_, ?_⟩
  · rintro rfl
    rcases houtput with h | ⟨_, h⟩ <;> cases h
  · rw [readBytes_eq_ok, fileAt?_eq_view, hview, hartifact]
    rfl
  · rw [has_eq_view, hview, hsuppressed]
    rfl
  · obtain ⟨hresult₂, hdisk₂⟩ := hother other hw fun place hplace =>
      hsame place hplace (h.directory place hplace) (h.file place hplace)
    rw [hresult₂, hdisk₂, resultOf]
    rcases updated_writeOutput (b := b) (d := other) houtput with
      ⟨e, hwrite, -⟩ | ⟨hwrite, -, hview₂⟩
    · exact .inl ⟨e, by rw [hwrite]; rfl⟩
    · exact .inr ⟨by rw [hwrite]; rfl, hview₂.trans hview.symm⟩
  · obtain ⟨hresult₂, hdisk₂⟩ :=
      hother _ hupdated.workingDirectory (h.seenAt_eq hupdated)
    rw [hresult₂, hdisk₂, resultOf, writeOutput_of_view houtput hview]
    exact ⟨rfl, rfl⟩

theorem result_eq_emitted {result : Except BuildError Output}
    (h : (result.toOption.bind Output.artifact?).isSome = true) :
    ∃ artifact, result = .ok (.emitted artifact) := by
  cases result with
  | error e => cases h
  | ok output =>
    cases output with
    | emitted artifact => exact ⟨artifact, rfl⟩
    | unchanged => cases h
    | suppressed => cases h

/-- A crate with a component, and with a file of an earlier build. -/
def staleOutput : Disk :=
  addFile (addFile .empty "/krate/src/lib.rs" "#[Component]struct A;")
    "/out/component_registry.rs" "// old"

/-- The file of the earlier build is replaced. -/
theorem generate_staleOutput :
    ofKrate.Apart {} staleOutput ∧
    ∃ artifact, (ofKrate.generate {} staleOutput).result = .ok (.emitted artifact) ∧
      ofKrate.Leaves {} staleOutput (.emitted artifact) (ofKrate.generate {} staleOutput).disk := by
  have hapart : ofKrate.Apart {} staleOutput :=
    ⟨by decide +kernel, by decide +kernel, by decide +kernel⟩
  have hemitted : ((ofKrate.generate {} staleOutput).result.toOption.bind
      Output.artifact?).isSome = true := by decide +kernel
  obtain ⟨artifact, hresult⟩ := result_eq_emitted hemitted
  exact ⟨hapart, artifact, hresult, (generate_leaves hapart).1 _ hresult⟩

/-- A build with its output in the directory of the sources, in a directory that need not be there. -/
def intoSources : Build := ⟨.ofText "/krate", .ofText "/krate/src/made/out"⟩

/-- A crate with a module that is found as soon as there is a directory of this name. -/
def awaitingDirectory : Disk :=
  addFile (addFile .empty "/krate/src/lib.rs" "#[path=\"made/../b.rs\"]mod b;#[Component]struct A;")
    "/krate/src/b.rs" "#[Component]struct B<T>(T);"

/-- The search for the sources goes neither through the directory of the output nor through its file,
but through a directory above them that the build makes. The next build finds more sources. -/
theorem generate_awaitingDirectory :
    (∀ place ∈ awaitingDirectory.searched intoSources.sourceRoot,
      ¬awaitingDirectory.placeOf intoSources.outputDirectory <+: place ∧
      ¬awaitingDirectory.placeOf (intoSources.artifactPath {}) <+: place) ∧
    let first := intoSources.generate {} awaitingDirectory
    (first.result.toOption.bind Output.artifact?).isSome = true ∧
      (intoSources.generate {} first.disk).result = .error (.generate (.genericComponent "B")) :=
  ⟨by decide +kernel, by decide +kernel, by decide +kernel⟩

end Build

end ComponentRegistry
