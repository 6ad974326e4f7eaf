import ComponentRegistry.Proofs.Crate.Identities
import ComponentRegistry.Proofs.Declaration.Outline

/-! Crates without paths in attributes. The module path of each file tells where it stands, beside its
parent or in a directory of its own (`Disk.modulePath_of_pathless`): whichever way the file itself
stands, it looks for its modules in the directory that its module path spells. -/

namespace ComponentRegistry

open Grammar Lexer Text

namespace FilePath

variable {segments : List String} {name last : String}

theorem counts_of_isName (h : IsName name) : counts name = true ∧ name ≠ "" ∧ name ≠ ".." := by
  obtain ⟨c, cs, hname, hc, -⟩ := h.chars
  have hdot : c ≠ '.' := ne_of_class hc (by decide)
  have hne : name ≠ "" := by
    rintro rfl
    cases hname
  refine ⟨?_, hne, ?_⟩
  · have hsingle : name ≠ "." := by
      rintro rfl
      exact hdot (List.cons.inj hname).1.symm
    simp [counts, hne, hsingle]
  · rintro rfl
    exact hdot (List.cons.inj hname).1.symm

theorem counts_append_rs (name : String) : counts (name ++ ".rs") = true ∧ name ++ ".rs" ≠ ".." := by
  have hlength : (name ++ ".rs").length = name.length + 3 := String.length_append ..
  have hne : ∀ short : String, short.length < 3 → name ++ ".rs" ≠ short := by
    rintro short hshort rfl
    omega
  exact ⟨by simp [counts, hne "" (by decide), hne "." (by decide)], hne ".." (by decide)⟩

theorem stemOf_append_rs (h : name ≠ "") : stemOf (name ++ ".rs") = name := by
  have hreverse : (name ++ ".rs").toList.reverse = 's' :: 'r' :: '.' :: name.toList.reverse := by
    rw [String.toList_append, List.reverse_append]
    rfl
  have hne : name.toList.reverse ≠ [] := by simpa using h
  unfold stemOf
  rw [hreverse]
  cases hname : name.toList.reverse with
  | nil => exact absurd hname hne
  | cons c cs =>
    show String.ofList (c :: cs).reverse = name
    rw [← hname, List.reverse_reverse, String.ofList_toList]

theorem trim_of_counts (h : ∀ s ∈ segments, counts s = true) : trim segments = segments := by
  unfold trim
  cases hreverse : segments.reverse with
  | nil => simpa using hreverse.symm
  | cons last before =>
    have hmem : last ∈ segments.reverse := hreverse ▸ List.mem_cons_self
    have hlast : counts last = true := h last (List.mem_reverse.mp hmem)
    rw [List.dropWhile_cons_of_neg (by simp [hlast]), ← hreverse, List.reverse_reverse]

theorem lead_of_counts (h : ∀ s ∈ segments, counts s = true) :
    (⟨false, segments⟩ : FilePath).lead = [] := by
  cases segments with
  | nil => rfl
  | cons first rest =>
    have hdot : first ≠ "." := by
      rintro rfl
      exact absurd (h "." List.mem_cons_self) (by simp [counts])
    simp [lead, hdot]

theorem counts_append (h : ∀ s ∈ segments, counts s = true) (hlast : counts last = true) :
    ∀ s ∈ segments ++ [last], counts s = true := by
  intro s hs
  rcases List.mem_append.mp hs with hs | hs
  · exact h s hs
  · exact List.mem_singleton.mp hs ▸ hlast

theorem parent_of_counts (h : ∀ s ∈ segments, counts s = true) (hlast : counts last = true) :
    (⟨false, segments ++ [last]⟩ : FilePath).parent = ofSegments false segments := by
  have hall := counts_append h hlast
  have hbody : (⟨false, segments ++ [last]⟩ : FilePath).body = segments ++ [last] := by
    rw [body, lead_of_counts hall]
    rfl
  unfold parent parent?
  rw [hbody, trim_of_counts hall, lead_of_counts hall]
  split
  next hnil => simp at hnil
  next => rw [List.dropLast_concat, trim_of_counts h]; rfl

theorem stem?_of_counts (h : ∀ s ∈ segments, counts s = true) (hname : name ≠ "") :
    (⟨false, segments ++ [name ++ ".rs"]⟩ : FilePath).stem? = some name := by
  obtain ⟨hcounts, hdots⟩ := counts_append_rs name
  have hnames : (⟨false, segments ++ [name ++ ".rs"]⟩ : FilePath).names =
      segments ++ [name ++ ".rs"] := by
    rw [names_eq_filter]
    exact List.filter_eq_self.mpr (counts_append h hcounts)
  simp [stem?, fileName?, hnames, hdots, stemOf_append_rs hname]

theorem join_of_counts (h : ∀ s ∈ segments, counts s = true) (more : List String) :
    (⟨false, segments⟩ : FilePath).join ⟨false, more⟩ = ⟨false, segments ++ more⟩ := by
  have hlast : segments.getLast? ≠ some "" := by
    intro hlast
    have := h "" (List.mem_of_getLast? hlast)
    rw [not_counts_empty] at this
    cases this
  simp [join, untrailed, hlast]

theorem join_ofSegments (h : ∀ s ∈ segments, counts s = true) (more : List String) :
    (ofSegments false segments).join ⟨false, more⟩ = ⟨false, segments ++ more⟩ := by
  cases segments with
  | nil => rfl
  | cons first rest => exact join_of_counts h more

theorem push_of_counts (h : ∀ s ∈ segments, counts s = true) :
    (⟨false, segments⟩ : FilePath).push name = ⟨false, segments ++ [name]⟩ := join_of_counts h [name]

theorem push_ofSegments (h : ∀ s ∈ segments, counts s = true) :
    (ofSegments false segments).push name = ⟨false, segments ++ [name]⟩ := join_ofSegments h [name]

theorem names_join (base p : FilePath) :
    (base.join p).names = (if p.absolute then [] else base.names) ++ p.names := by
  rw [names_eq_filter, filter_counts_join]
  split <;> simp

theorem names_push (base : FilePath) (name : String) :
    (base.push name).names = base.names ++ [name].filter counts := by
  rw [push, names_join, names_eq_filter (ofName name)]
  rfl

theorem fileName?_push (h : counts name = true) (hup : name ≠ "..") (base : FilePath) :
    (base.push name).fileName? = some name := by
  rw [fileName?, names_push, List.filter_cons_of_pos h]
  simp [hup]

/-- The directory of a module inside others. -/
theorem foldl_push_ofSegments {more : List String} (h : ∀ s ∈ segments ++ more, counts s = true) :
    more.foldl push (ofSegments false segments) = ofSegments false (segments ++ more) := by
  induction more generalizing segments with
  | nil => rw [List.append_nil]; rfl
  | cons name more ih =>
    have happend : segments ++ name :: more = (segments ++ [name]) ++ more := by simp
    rw [happend] at h ⊢
    rw [List.foldl_cons, push_ofSegments fun s hs => h s (by simp [hs]), ← ih h]
    congr 1
    simp [ofSegments]

end FilePath

open FilePath

namespace ModuleFile

/-- The file stands where its module path says: it is the root of the crate, a file beside its
directory, or, if there is no such file, the one with the name of modules in its directory. -/
inductive Placed (s : Sources) (directory : FilePath) : ModuleFile → Prop
  | root {name : String} :
    (rootNames.find? fun name => s.isFile (directory.push name)) = some name →
    Placed s directory ⟨⟨false, [name]⟩, [], true⟩
  | beside {before : List String} {name : String} :
    s.isFile (directory.join ⟨false, before ++ [name ++ ".rs"]⟩) = true →
    Placed s directory ⟨⟨false, before ++ [name ++ ".rs"]⟩, before ++ [name], false⟩
  | inside {before : List String} {name : String} :
    s.isFile (directory.join ⟨false, before ++ [name ++ ".rs"]⟩) = false →
    s.isFile (directory.join ⟨false, before ++ [name, "mod.rs"]⟩) = true →
    Placed s directory ⟨⟨false, before ++ [name, "mod.rs"]⟩, before ++ [name], true⟩

variable {s : Sources} {directory : FilePath} {m m' c : ModuleFile} {decl : ModuleDecl}

theorem ofSegments_append (before : List String) (name : String) :
    ofSegments false (before ++ [name]) = ⟨false, before ++ [name]⟩ := by
  simp [ofSegments]

/-- A file looks for its modules in the directory that its module path spells. -/
theorem Placed.directory?_eq (h : Placed s directory m)
    (hnames : ∀ name ∈ m.modulePath, IsName name) :
    m.directory? = some (ofSegments false m.modulePath) := by
  have hcounts : ∀ name ∈ m.modulePath, counts name = true := fun name hname =>
    (counts_of_isName (hnames name hname)).1
  cases h with
  | @root name hroot =>
    have hall : ∀ name ∈ rootNames, counts name = true := by decide
    have hparent : (⟨false, [] ++ [name]⟩ : FilePath).parent = ofSegments false [] :=
      parent_of_counts nofun (hall name (List.mem_of_find?_eq_some hroot))
    exact congrArg some hparent
  | @beside before name =>
    have hbefore : ∀ s ∈ before, counts s = true := fun s hs => hcounts s (List.mem_append_left _ hs)
    have hname : name ≠ "" :=
      (counts_of_isName (hnames name (List.mem_append_right _ List.mem_cons_self))).2.1
    simp only [directory?, Bool.false_eq_true, if_false, stem?_of_counts hbefore hname,
      parent_of_counts hbefore (counts_append_rs name).1, Option.map_some, push_ofSegments hbefore,
      ofSegments_append]
  | @inside before name =>
    have hsplit : before ++ [name, "mod.rs"] = (before ++ [name]) ++ ["mod.rs"] := by simp
    have hlast : counts "mod.rs" = true := by decide
    simp only [directory?, if_true, hsplit, parent_of_counts hcounts hlast]

/-- The files that a module without path may stand in. -/
theorem Placed.candidates_eq (h : Placed s directory m)
    (hnames : ∀ name ∈ m.modulePath, IsName name)
    (hdecl : IsName decl.name ∧ ∀ name ∈ decl.inline, IsName name) (hpath : decl.path = none) :
    m.candidates decl =
      [⟨⟨false, m.modulePath ++ decl.inline ++ [decl.name ++ ".rs"]⟩,
          m.modulePath ++ decl.inline ++ [decl.name], false⟩,
        ⟨⟨false, m.modulePath ++ decl.inline ++ [decl.name, "mod.rs"]⟩,
          m.modulePath ++ decl.inline ++ [decl.name], true⟩] := by
  have hcounts : ∀ name ∈ m.modulePath ++ decl.inline, counts name = true := by
    intro name hname
    rcases List.mem_append.mp hname with hname | hname
    · exact (counts_of_isName (hnames name hname)).1
    · exact (counts_of_isName (hdecl.2 name hname)).1
  have hname := (counts_of_isName hdecl.1).1
  have hbase : decl.inline.foldl push (ofSegments false m.modulePath) =
      ofSegments false (m.modulePath ++ decl.inline) := foldl_push_ofSegments hcounts
  have hlast : m.modulePath ++ decl.inline ++ [decl.name, "mod.rs"] =
      m.modulePath ++ decl.inline ++ [decl.name] ++ ["mod.rs"] := by simp
  rw [candidates, h.directory?_eq hnames, hpath, hlast]
  simp only [hbase, push_ofSegments hcounts, push_of_counts (counts_append hcounts hname)]

theorem Placed.step (h : Placed s directory m) (hnames : ∀ name ∈ m.modulePath, IsName name)
    (hdecl : IsName decl.name ∧ ∀ name ∈ decl.inline, IsName name) (hpath : decl.path = none)
    (hchild : s.child? directory m decl = some c) :
    Placed s directory c ∧ ∀ name ∈ c.modulePath, IsName name := by
  have hall : ∀ name ∈ m.modulePath ++ decl.inline ++ [decl.name], IsName name := by
    intro name hname
    simp only [List.mem_append, List.mem_singleton] at hname
    rcases hname with (hname | hname) | rfl
    · exact hnames name hname
    · exact hdecl.2 name hname
    · exact hdecl.1
  rw [Sources.child?, h.candidates_eq hnames hdecl hpath, List.find?_cons] at hchild
  split at hchild
  next hfile =>
    obtain rfl := Option.some.inj hchild
    exact ⟨.beside hfile, hall⟩
  next hfile =>
    rw [List.find?_cons] at hchild
    split at hchild
    next hfile' =>
      obtain rfl := Option.some.inj hchild
      exact ⟨.inside (by simpa using hfile) hfile', hall⟩
    next => cases hchild

/-- Files with the same module path are the same. -/
theorem Placed.eq_of_modulePath_eq (h : Placed s directory m) (h' : Placed s directory m')
    (hpath : m.modulePath = m'.modulePath) : m = m' := by
  cases h with
  | @root name hroot =>
    cases h' with
    | @root name' hroot' =>
      obtain rfl : name = name' := Option.some.inj (hroot.symm.trans hroot')
      rfl
    | beside => simp at hpath
    | inside => simp at hpath
  | @beside before name hfile =>
    cases h' with
    | root => simp at hpath
    | beside =>
      obtain ⟨rfl, hname⟩ := List.append_inj' hpath rfl
      obtain rfl := List.singleton_inj.mp hname
      rfl
    | inside hfile' =>
      obtain ⟨rfl, hname⟩ := List.append_inj' hpath rfl
      obtain rfl := List.singleton_inj.mp hname
      rw [hfile] at hfile'
      cases hfile'
  | @inside before name hnone hfile =>
    cases h' with
    | root => simp at hpath
    | beside hfile' =>
      obtain ⟨rfl, hname⟩ := List.append_inj' hpath rfl
      obtain rfl := List.singleton_inj.mp hname
      rw [hnone] at hfile'
      cases hfile'
    | inside =>
      obtain ⟨rfl, hname⟩ := List.append_inj' hpath rfl
      obtain rfl := List.singleton_inj.mp hname
      rfl

end ModuleFile

/-- The modules without body that a file declares. -/
def Sources.modulesIn (s : Sources) (directory : FilePath) (m : ModuleFile) : List ModuleDecl :=
  match s.read (directory.join m.path) with
  | .ok text => (Outline.ofText m.path.key m.modulePath text).modules
  | .error _ => []

namespace Disk

variable {d : Disk} {root : FilePath} {corpus : Corpus}

/-- No attribute gives a path for a module that has a file. -/
def Pathless (d : Disk) (root : FilePath) : Prop :=
  ∀ m ∈ d.visited root, ∀ decl ∈ d.sources.modulesIn root m,
    (d.sources.child? root m decl).isSome = true → decl.path = none

instance (d : Disk) (root : FilePath) : Decidable (d.Pathless root) :=
  inferInstanceAs (Decidable (∀ m ∈ d.visited root, ∀ decl ∈ d.sources.modulesIn root m,
    (d.sources.child? root m decl).isSome = true → decl.path = none))

theorem placed_of_pathless (hd : d.Pathless root) : ∀ m ∈ d.visited root,
    m.Placed d.sources root ∧ ∀ name ∈ m.modulePath, IsName name := by
  refine visited_induction (fun name hroot => ⟨.root hroot, List.forall_mem_nil _⟩) ?_
  intro m hm hplaced text hread decl hdecl child hchild
  refine hplaced.1.step hplaced.2 (Outline.isName_of_modules hdecl) ?_ hchild
  exact hd m hm decl (by rwa [Sources.modulesIn, hread]) (by simp [hchild])

/-- In a crate without paths in attributes, each file that is read stands where its module path says,
and no two of them are the same module. The declarations of a file are in its module and the modules
with body around them. -/
theorem modulePath_of_pathless (hd : d.Pathless root) :
    (∀ m ∈ d.visited root, m.Placed d.sources root) ∧
    ((d.visited root).map ModuleFile.modulePath).Nodup ∧
    (∀ corpus, d.corpus root = .ok corpus →
      corpus.files = (d.visited root).map (root.join ·.path) ∧
      corpus.nodes = (d.visited root).flatMap (d.sources.nodesIn root)) ∧
    ∀ m ∈ d.visited root, ∀ text, d.sources.read (root.join m.path) = .ok text →
      match SourceFile.items? text with
      | none => d.sources.nodesIn root m = [⟨⟨m.path.key, 0⟩, m.modulePath, text⟩]
      | some items => ∃ places : List Outline.Place,
        (places.map Outline.Place.position).Pairwise (· < ·) ∧
        (∀ p ∈ places, Outline.HavePlace 0 items p) ∧
        d.sources.nodesIn root m = places.zipIdx.map fun (p, ordinal) =>
          ⟨⟨m.path.key, ordinal⟩, m.modulePath ++ p.around, Tree.text p.item.text⟩ := by
  have hplaced := placed_of_pathless hd
  refine ⟨fun m hm => (hplaced m hm).1, ?_, fun corpus hcorpus => found_of_corpus hcorpus,
    fun m hm text hread => ?_⟩
  · have hnodup : (d.visited root).Nodup := .of_map _ (nodup_visited d root)
    exact hnodup.map_on fun m hm m' hm' h => (hplaced m hm).1.eq_of_modulePath_eq (hplaced m' hm').1 h
  · have hnodes : d.sources.nodesIn root m = (Outline.ofText m.path.key m.modulePath text).nodes := by
      rw [Sources.nodesIn, hread]
    rw [hnodes]
    split
    next hitems => simp [Outline.ofText, hitems]
    next items hitems => exact Outline.ofText_places hitems

/-- A crate with modules in all forms: one with body, one beside its directory, and one inside. -/
def nestedModules : Disk :=
  Build.addFile (Build.addFile (Build.addFile (Build.addFile .empty "/src/lib.rs"
    "mod a{mod b;}mod c;") "/src/a/b.rs" "mod d{struct S;}") "/src/c/mod.rs" "mod main;")
    "/src/c/main.rs" "struct T;"

theorem modulePath_nestedModules : nestedModules.Pathless (.ofText "/src") ∧
    ((nestedModules.visited (.ofText "/src")).map ModuleFile.modulePath).Nodup ∧
    nestedModules.visited (.ofText "/src") =
      [⟨.ofText "lib.rs", [], true⟩, ⟨.ofText "a/b.rs", ["a", "b"], false⟩,
        ⟨.ofText "c/mod.rs", ["c"], true⟩, ⟨.ofText "c/main.rs", ["c", "main"], false⟩] := by
  have hd : nestedModules.Pathless (.ofText "/src") := by decide +kernel
  exact ⟨hd, (modulePath_of_pathless hd).2.1, by decide +kernel⟩

end Disk

end ComponentRegistry
