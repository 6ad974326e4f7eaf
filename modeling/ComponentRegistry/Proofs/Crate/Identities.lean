import ComponentRegistry.Proofs.Crate.Visits
import ComponentRegistry.Proofs.Crate.Watching
import ComponentRegistry.Proofs.Generation.Eviction
import Mathlib.Data.List.Nodup

/-! What tells the declarations of a crate apart. Two files that a search visits have different
paths, but what counts of a path for the search, its start, does not count for the keys of the
declarations. They are all different if and only if no two of the files differ in this alone
(`Disk.nodup_keys_iff`), and only then a session knows all declarations at once. -/

namespace ComponentRegistry

namespace FilePath

variable {p q : FilePath}

/-- The path has no slash in a name, where it would not be told from one between names. -/
def SlashFree (p : FilePath) : Prop := ∀ name ∈ p.names, '/' ∉ name.toList

theorem splitOn_key (hp : p.SlashFree) (hne : p.names ≠ []) :
    List.splitOn '/' p.key.toList = p.names.map String.toList := by
  have hslash : "/".toList = ['/'] := rfl
  rw [key, String.toList_intercalate, hslash]
  refine List.splitOn_intercalate '/' (fun cs hcs => ?_) (by simpa using hne)
  obtain ⟨name, hname, rfl⟩ := List.mem_map.mp hcs
  exact hp name hname

/-- A single empty name does not count, so the text of a path with names is not empty. -/
theorem names_eq_nil_of_key (hp : p.SlashFree) (h : p.key = "") : p.names = [] := by
  by_contra hne
  have hsplit := splitOn_key hp hne
  rw [h] at hsplit
  cases hnames : p.names with
  | nil => exact hne hnames
  | cons name rest =>
    rw [hnames] at hsplit
    obtain ⟨hname, -⟩ : [] = name.toList ∧ rest.map String.toList = [] := by simpa using hsplit
    have hmem : name ∈ p.names := by simp [hnames]
    have hcounts : counts name = true := (List.mem_filter.mp hmem).2
    obtain rfl : name = "" := String.toList_inj.mp hname.symm
    rw [not_counts_empty] at hcounts
    cases hcounts

/-- The names of a path can be told from its text. -/
theorem names_eq_of_key_eq (hp : p.SlashFree) (hq : q.SlashFree) (h : p.key = q.key) :
    p.names = q.names := by
  by_cases hnil : p.names = []
  · rw [hnil, names_eq_nil_of_key hq (by rw [← h, key, hnil]; rfl)]
  by_cases hnil' : q.names = []
  · rw [hnil', names_eq_nil_of_key hp (by rw [h, key, hnil']; rfl)]
  have htoList := (splitOn_key hp hnil).symm.trans (h ▸ splitOn_key hq hnil')
  exact List.map_injective_iff.mpr (fun _ _ => String.toList_inj.mp) htoList

/-- Paths with the same names are the same for a search, but for their start. -/
theorem identity_eq_of_names_eq (hnames : p.names = q.names) (habsolute : p.absolute = q.absolute)
    (hlead : p.lead = q.lead) : p.identity = q.identity := by
  rw [identity_eq_iff, normal, normal, hnames, habsolute, hlead]

end FilePath

namespace Outline

/-- The declarations of a file are numbered. -/
theorem keys_ofText (file : String) (modulePath : List String) (text : String) :
    (ofText file modulePath text).nodes.map Node.key =
      (List.range (ofText file modulePath text).nodes.length).map (NodeKey.mk file) := by
  unfold ofText
  split
  next items _ =>
    generalize hreached : (reached [] items).filterMap Reached.item? = found
    have hnodes : (ofItems file modulePath items).nodes = found.zipIdx.map fun entry =>
        ⟨⟨file, entry.2⟩, modulePath ++ entry.1.1, Tree.text entry.1.2⟩ := by
      rw [ofItems, hreached]
    rw [hnodes, List.map_map, List.length_map, List.length_zipIdx, List.range_eq_range',
      ← List.zipIdx_map_snd, List.map_map]
    rfl
  next => rfl

end Outline

namespace Sources

variable {s : Sources} {directory : FilePath} {m : ModuleFile}

theorem keys_nodesIn (s : Sources) (directory : FilePath) (m : ModuleFile) :
    (s.nodesIn directory m).map Node.key =
      (List.range (s.nodesIn directory m).length).map (NodeKey.mk m.path.key) := by
  unfold nodesIn
  split
  next => exact Outline.keys_ofText ..
  next => rfl

theorem nodup_keys_nodesIn (s : Sources) (directory : FilePath) (m : ModuleFile) :
    ((s.nodesIn directory m).map Node.key).Nodup := by
  rw [keys_nodesIn]
  exact List.nodup_range.map fun _ _ h => (NodeKey.mk.inj h).2

/-- Of two files, the first declarations have the same key if any have. -/
theorem disjoint_keys_iff {m' : ModuleFile} :
    List.Disjoint ((s.nodesIn directory m).map Node.key) ((s.nodesIn directory m').map Node.key) ↔
      ¬(s.nodesIn directory m ≠ [] ∧ s.nodesIn directory m' ≠ [] ∧ m.path.key = m'.path.key) := by
  rw [keys_nodesIn, keys_nodesIn]
  constructor
  · rintro h ⟨hne, hne', hkey⟩
    refine h (a := ⟨m.path.key, 0⟩) (List.mem_map.mpr ⟨0, ?_, rfl⟩)
      (List.mem_map.mpr ⟨0, ?_, by rw [hkey]⟩)
    · exact List.mem_range.mpr (List.length_pos_iff.mpr hne)
    · exact List.mem_range.mpr (List.length_pos_iff.mpr hne')
  · intro h key hkey hkey'
    obtain ⟨i, hi, rfl⟩ := List.mem_map.mp hkey
    obtain ⟨j, hj, heq⟩ := List.mem_map.mp hkey'
    refine h ⟨?_, ?_, (NodeKey.mk.inj heq).1.symm⟩
    · exact List.length_pos_iff.mp (Nat.zero_lt_of_lt (List.mem_range.mp hi))
    · exact List.length_pos_iff.mp (Nat.zero_lt_of_lt (List.mem_range.mp hj))

end Sources

namespace Disk

open FilePath

variable {d : Disk} {root : FilePath} {corpus : Corpus}

/-- No name on the disk has a slash, which stands between the names in a path. -/
def SlashFree (d : Disk) : Prop :=
  ∀ place entry, d.entry? place = some entry → ∀ name ∈ place, '/' ∉ name.toList

theorem slashFree_of_entries
    (h : ∀ e ∈ d.entries.entries, ∀ name ∈ e.1, '/' ∉ name.toList) : d.SlashFree := by
  intro place entry hentry
  cases place with
  | nil => simp
  | cons name rest => exact h _ (SortedMap.mem_of_find? hentry)

theorem slashFree_of_enter {loc found : Location} {segments : List String} (hd : d.SlashFree)
    (h : d.enter loc segments = .ok found) :
    ∀ segment ∈ segments, counts segment = true → '/' ∉ segment.toList := by
  induction segments generalizing loc with
  | nil => simp
  | cons segment segments ih =>
    intro name hname hcounts
    rw [enter] at h
    split at h
    next hskip =>
      rcases List.mem_cons.mp hname with rfl | hname
      · simp [hcounts] at hskip
      · exact ih h name hname hcounts
    next =>
    split at h
    next hup =>
      rcases List.mem_cons.mp hname with rfl | hname
      · obtain rfl : name = ".." := by simpa using hup
        decide
      · exact ih h name hname hcounts
    next =>
    split at h
    · cases h
    · split at h
      · cases h
      · cases h
      next hchild =>
        rcases List.mem_cons.mp hname with rfl | hname
        · exact hd _ _ hchild name (by simp)
        · exact ih h name hname hcounts

/-- A path that leads to a file has names that stand on the disk. -/
theorem slashFree_of_fileAt? {p : FilePath} {contents : ByteArray} (hd : d.SlashFree)
    (h : d.fileAt? p = some contents) : p.SlashFree := by
  obtain ⟨name, hok, parent, henter, hfile⟩ := fileAt?_eq_some.mp h
  obtain ⟨written, hfile⟩ := seen?_eq_file.mp hfile
  obtain ⟨before, hbefore⟩ := List.getLast?_eq_some_iff.mp hok.named
  rw [hbefore, List.dropLast_concat] at henter
  intro segment hsegment
  rw [names_eq_filter, List.mem_filter, hbefore, List.mem_append, List.mem_singleton] at hsegment
  obtain ⟨hsegment | rfl, hcounts⟩ := hsegment
  · exact slashFree_of_enter hd henter segment hsegment hcounts
  · exact hd _ _ hfile segment (by simp)

/-- The files that the search for a crate visits. -/
def visited (d : Disk) (root : FilePath) : List ModuleFile :=
  match d.sources.start? root with
  | none => []
  | some search => d.sources.visits root manyPaths search

theorem nodup_visited (d : Disk) (root : FilePath) : ((d.visited root).map (·.path.identity)).Nodup := by
  unfold visited
  split
  · exact .nil
  · exact Sources.nodup_visits.1

theorem visited_eq {search : Search} (hstart : d.sources.start? root = some search) :
    d.visited root = d.sources.visits root manyPaths search := by
  rw [visited, hstart]

/-- What the root of a crate has and the files found for modules keep, the visited files have. -/
theorem visited_induction {P : ModuleFile → Prop}
    (hroot : ∀ name, (rootNames.find? fun name => d.sources.isFile (root.push name)) = some name →
      P (.root name))
    (hchild : ∀ {m}, m ∈ d.visited root → P m →
      ∀ text, d.sources.read (root.join m.path) = .ok text →
      ∀ decl ∈ (Outline.ofText m.path.key m.modulePath text).modules,
      ∀ child, d.sources.child? root m decl = some child → P child) :
    ∀ m ∈ d.visited root, P m := by
  cases hstart : d.sources.start? root with
  | none => simp [visited, hstart]
  | some search =>
    rw [visited_eq hstart] at hchild ⊢
    obtain ⟨name, hname, rfl⟩ := Option.map_eq_some_iff.mp hstart
    exact Sources.visits_induction (fun m hm => List.mem_singleton.mp hm ▸ hroot name hname) hchild

/-- A crate consists of the files that are visited. -/
theorem found_of_corpus (h : d.corpus root = .ok corpus) :
    corpus.files = (d.visited root).map (root.join ·.path) ∧
    corpus.nodes = (d.visited root).flatMap (d.sources.nodesIn root) := by
  obtain ⟨search, final, hstart, hrun, rfl⟩ := corpus_eq_ok h
  obtain ⟨hfiles, hnodes⟩ := Sources.found_of_run hrun
  have hnone : search.found = ⟨[], []⟩ := by
    obtain ⟨name, -, rfl⟩ := Option.map_eq_some_iff.mp hstart
    rfl
  rw [hnone, List.nil_append] at hfiles hnodes
  rw [visited_eq hstart]
  exact ⟨hfiles, hnodes⟩

theorem read_of_visited (h : d.corpus root = .ok corpus) {m : ModuleFile} (hm : m ∈ d.visited root) :
    ∃ text, d.sources.read (root.join m.path) = .ok text := by
  have hfile : root.join m.path ∈ corpus.files := by
    rw [(found_of_corpus h).1]
    exact List.mem_map_of_mem hm
  obtain ⟨search, final, hstart, hrun, rfl⟩ := corpus_eq_ok h
  obtain ⟨hreads, -, -⟩ := reads_start hstart
  exact (hreads.run hrun).read _ hfile

theorem fileAt?_of_visited (h : d.corpus root = .ok corpus) {m : ModuleFile} (hm : m ∈ d.visited root) :
    ∃ contents, d.fileAt? (root.join m.path) = some contents := by
  obtain ⟨text, htext⟩ := read_of_visited h hm
  obtain ⟨contents, hcontents, -⟩ := readText_eq_ok.mp htext
  exact ⟨contents, hcontents⟩

theorem slashFree_of_visited (hd : d.SlashFree) (h : d.corpus root = .ok corpus) {m : ModuleFile}
    (hm : m ∈ d.visited root) : m.path.SlashFree := by
  obtain ⟨contents, hfile⟩ := fileAt?_of_visited h hm
  have hjoined := slashFree_of_fileAt? hd hfile
  intro name hname
  refine hjoined name ?_
  rw [names_eq_filter, filter_counts_join]
  split
  · exact hname
  · exact List.mem_append_right _ hname

/-- Two files of a crate declare something, and their paths differ only in that one is absolute or
starts with a dot. -/
def HasTwins (d : Disk) (root : FilePath) : Prop :=
  ∃ m ∈ d.visited root, ∃ m' ∈ d.visited root,
    d.sources.nodesIn root m ≠ [] ∧ d.sources.nodesIn root m' ≠ [] ∧
    m.path.names = m'.path.names ∧
    (m.path.absolute ≠ m'.path.absolute ∨ m.path.lead ≠ m'.path.lead)

theorem nodup_keys_iff_not_hasTwins (hd : d.SlashFree) (h : d.corpus root = .ok corpus) :
    (corpus.nodes.map Node.key).Nodup ↔ ¬d.HasTwins root := by
  obtain ⟨-, hnodes⟩ := found_of_corpus h
  have hnodup := nodup_visited d root
  rw [hnodes, List.map_flatMap, List.nodup_flatMap]
  constructor
  · rintro ⟨-, hdisjoint⟩ ⟨m, hm, m', hm', hne, hne', hnames, hstart⟩
    have hdifferent : m ≠ m' := by
      rintro rfl
      exact hstart.elim (· rfl) (· rfl)
    have : Std.Symm (Function.onFun List.Disjoint fun m : ModuleFile =>
      (d.sources.nodesIn root m).map Node.key) := ⟨fun _ _ h => h.symm⟩
    refine Sources.disjoint_keys_iff.mp (hdisjoint.forall hm hm' hdifferent) ⟨hne, hne', ?_⟩
    rw [FilePath.key, FilePath.key, hnames]
  · intro hno
    refine ⟨fun m _ => Sources.nodup_keys_nodesIn .., ?_⟩
    refine (List.Nodup.of_map _ hnodup).pairwise_of_forall_ne fun m hm m' hm' hdifferent => ?_
    refine Sources.disjoint_keys_iff.mpr ?_
    rintro ⟨hne, hne', hkey⟩
    have hnames := names_eq_of_key_eq (slashFree_of_visited hd h hm) (slashFree_of_visited hd h hm')
      hkey
    refine hno ⟨m, hm, m', hm', hne, hne', hnames, ?_⟩
    by_contra hsame
    obtain ⟨habsolute, hlead⟩ := not_or.mp hsame
    exact hdifferent (List.inj_on_of_nodup_map hnodup hm hm'
      (identity_eq_of_names_eq hnames (not_not.mp habsolute) (not_not.mp hlead)))

end Disk

namespace Disk

variable {d : Disk} {root : FilePath} {corpus : Corpus}

/-- The declarations of a crate have different keys, and a session that passes over them knows them
all, if and only if no two files with declarations have paths that differ in their start alone. Then
each declaration is known by its own fingerprint. -/
theorem nodup_keys_iff (hd : d.SlashFree) (h : d.corpus root = .ok corpus) (config : Config) :
    let known := ((Session.start config).run corpus.nodes).2.snapshot
    ((corpus.nodes.map Node.key).Nodup ↔ ¬d.HasTwins root) ∧
    (known.size = corpus.nodes.length ↔ ¬d.HasTwins root) ∧
    (¬d.HasTwins root → ∀ node ∈ corpus.nodes, known.get? node.key = some node.fingerprint) := by
  intro known
  have hiff := nodup_keys_iff_not_hasTwins hd h
  have hknown : known = SortedMap.empty.insertAll
      (corpus.nodes.map fun node => (node.key, node.fingerprint)) :=
    Session.snapshot_run (.start config) corpus.nodes
  have hkeys : (corpus.nodes.map fun node => (node.key, node.fingerprint)).map (·.1) =
      corpus.nodes.map Node.key := by
    rw [List.map_map]
    rfl
  refine ⟨hiff, ?_, fun hno node hnode => ?_⟩
  · have hsize := SortedMap.size_insertAll_eq_iff SortedMap.empty
      (corpus.nodes.map fun node => (node.key, node.fingerprint))
    have hempty : (SortedMap.empty : SortedMap NodeKey Fingerprint).size = 0 := rfl
    rw [← hknown, hkeys, hempty, Nat.zero_add, List.length_map] at hsize
    rw [hsize, ← hiff]
    simp
  · rw [hknown]
    refine SortedMap.get?_insertAll (e := (node.key, node.fingerprint)) ?_
      (List.mem_map_of_mem hnode)
    rw [hkeys]
    exact hiff.mpr hno

/-- A crate with two modules in one file, both in the plain form of its path. -/
def sharedFile : Disk :=
  Build.addFile (Build.addFile .empty "/src/lib.rs" "#[path=\"a.rs\"]mod b;mod a;struct C;")
    "/src/a.rs" "#[Component]struct A;"

/-- The file is read once, for the module that comes first. -/
theorem nodup_keys_sharedFile :
    sharedFile.SlashFree ∧ ∃ corpus, sharedFile.corpus (.ofText "/src") = .ok corpus ∧
      corpus.nodes.map Node.key = [⟨"lib.rs", 0⟩, ⟨"a.rs", 0⟩] ∧
      ¬sharedFile.HasTwins (.ofText "/src") := by
  have hd : sharedFile.SlashFree := slashFree_of_entries (by decide +kernel)
  obtain ⟨corpus, hcorpus, hkeys⟩ : ∃ corpus, sharedFile.corpus (.ofText "/src") = .ok corpus ∧
      corpus.nodes.map Node.key = [⟨"lib.rs", 0⟩, ⟨"a.rs", 0⟩] := by
    have h : (sharedFile.corpus (.ofText "/src")).map (·.nodes.map Node.key) =
        .ok [⟨"lib.rs", 0⟩, ⟨"a.rs", 0⟩] := by decide +kernel
    cases hcorpus : sharedFile.corpus (.ofText "/src") with
    | error e => simp [hcorpus, Except.map] at h
    | ok corpus => exact ⟨corpus, rfl, by simpa [hcorpus, Except.map] using h⟩
  refine ⟨hd, corpus, hcorpus, hkeys, (nodup_keys_iff hd hcorpus {}).1.mp ?_⟩
  rw [hkeys]
  decide

/-- A crate with two modules in one file, whose path starts with a dot for one of them. -/
def dottedFile : Disk :=
  Build.addFile (Build.addFile .empty "/src/lib.rs" "mod a;#[path=\"./a.rs\"]mod b;")
    "/src/a.rs" "#[Component]struct A;"

/-- What is read of this crate. -/
def dottedCorpus : Corpus where
  files := [.ofText "/src/lib.rs", .ofText "/src/a.rs", .ofText "/src/./a.rs"]
  nodes := [⟨⟨"a.rs", 0⟩, ["a"], "# [Component] struct A ;"⟩,
    ⟨⟨"a.rs", 0⟩, ["b"], "# [Component] struct A ;"⟩]

/-- The file is read twice, and its declaration has the same key in both modules, so that a session
knows one of the two only. -/
theorem keys_dottedFile :
    dottedFile.corpus (.ofText "/src") = .ok dottedCorpus ∧
    ¬(dottedCorpus.nodes.map Node.key).Nodup ∧
    ((Session.start {}).run dottedCorpus.nodes).2.snapshot.size = 1 :=
  ⟨by decide +kernel, by decide, by decide +kernel⟩

end Disk

end ComponentRegistry
