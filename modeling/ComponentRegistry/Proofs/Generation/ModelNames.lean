import ComponentRegistry.Proofs.Token.Lexed
import ComponentRegistry.Proofs.Grammar.ReadNames
import ComponentRegistry.Proofs.Generation.TightItems
import ComponentRegistry.Generation.Model

/-! The names and paths of a model are those of the components. -/

namespace ComponentRegistry

open Lexer

namespace Grammar

theorem Name.ofText?_eq_some {text : String} {n : Name} (h : Name.ofText? text = some n) :
    Tree.ofText? text = some n.spelling ∧ (n.raw = true ∨ n.text ∉ keywords) := by
  obtain ⟨trees, htrees, hread⟩ := Grammar.ofText?_eq_some h
  obtain ⟨rfl, hname⟩ := Reader.name_word hread
  exact ⟨htrees, hname⟩

theorem Name.isWord_of_ofText? {text : String} {n : Name} (h : Name.ofText? text = some n) :
    IsWord n.raw n.text :=
  Tree.isWord_of_mem (Name.ofText?_eq_some h).1 List.mem_cons_self

/-- A word alone is read as it is written. -/
theorem ofText?_word {raw : Bool} {name : String} (h : IsWord raw name) :
    Tree.ofText? (String.ofList (wordChars raw name)) = some [.leaf (.word raw name)] := by
  have hchars : Tree.charsAll [.leaf (.word raw name)] = wordChars raw name := by
    simp [Tree.charsAll, Tree.chars, Token.chars, wordChars]
  have hread := Tree.ofText?_text (.leaf (.word h) .nil)
  rwa [Tree.text, hchars] at hread

/-- An identifier as a name in code: a keyword is raw. -/
def Name.ofIdentifier (name : String) : Name := ⟨keywords.contains name, name⟩

theorem Name.isIdent_ofIdentifier (name : String) : Reader.IsIdent (Name.ofIdentifier name) := by
  by_cases h : name ∈ keywords
  · exact .inl (by simpa [Name.ofIdentifier] using h)
  · exact .inr h

/-- An identifier alone is read as a word. -/
theorem ofText?_isName {name : String} (h : IsName name) :
    Tree.ofText? name = some [.leaf (.word false name)] := by
  have hword : IsWord false name := ⟨h, fun hraw => by cases hraw⟩
  have htrees := ofText?_word hword
  rw [wordChars] at htrees
  simpa using htrees

theorem Name.ofText?_plain {name : String} (h : IsName name) (hkeyword : name ∉ keywords) :
    Name.ofText? name = some ⟨false, name⟩ :=
  ofText?_of_trees (ofText?_isName h) (by simp [hkeyword])

theorem Name.ofText?_keyword {name : String} (h : IsName name) (hkeyword : name ∈ keywords) :
    Name.ofText? name = none := by
  rw [Option.eq_none_iff_forall_ne_some]
  intro n hn
  obtain ⟨hspelling, hname⟩ := Name.ofText?_eq_some hn
  rw [ofText?_isName h] at hspelling
  obtain ⟨hraw, htext⟩ : n.raw = false ∧ n.text = name := by
    have hword : Tree.leaf (.word false name) = .leaf (.word n.raw n.text) :=
      (List.cons.inj (Option.some.inj hspelling)).1
    obtain ⟨hraw, htext⟩ := Token.word.inj (Tree.leaf.inj hword)
    exact ⟨hraw.symm, htext.symm⟩
  rw [hraw, htext] at hname
  rcases hname with hname | hname
  · cases hname
  · exact hname hkeyword

theorem Name.ofText?_raw {name : String} (h : IsName name) (hrawless : rawless.contains name = false) :
    Name.ofText? ("r#" ++ name) = some ⟨true, name⟩ := by
  have hword : IsWord true name := ⟨h, fun _ => hrawless⟩
  have htrees := ofText?_word hword
  have htext : String.ofList (wordChars true name) = "r#" ++ name := by
    rw [← String.toList_inj]
    simp [wordChars]
  rw [htext] at htrees
  exact ofText?_of_trees htrees (by simp)

theorem Name.ofText?_rawless : ∀ name ∈ rawless, Name.ofText? ("r#" ++ name) = none := by
  decide +kernel

end Grammar

open Grammar

/-- A plain path whose names can be written. -/
structure Grammar.Path.Written (p : Path) : Prop extends p.Plain where
  word : ∀ s ∈ p.segments, IsWord s.name.raw s.name.text

theorem Grammar.Path.Written.push {p : Path} (h : p.Written) {n : Name} (hpath : n.InPath)
    (hword : IsWord n.raw n.text) : (p.push n).Written where
  toPlain := h.toPlain.push hpath
  word s hs := by
    rcases List.mem_append.mp hs with hs | hs
    · exact h.word s hs
    · obtain rfl := List.mem_singleton.mp hs
      exact hword

theorem Grammar.Path.Written.tight {p : Path} (h : p.Written) : Tight p.spelling := by
  have hparts : ∀ parts : List Spelling, (∀ part ∈ parts, Tight part) →
      Tight (interleave "::" parts) := by
    intro parts
    induction parts with
    | nil => exact fun _ => .nil
    | cons part parts ih =>
      intro hall
      have hpart := hall part List.mem_cons_self
      have hrest := ih fun part hpart => hall part (List.mem_cons_of_mem _ hpart)
      cases parts with
      | nil => exact hpart
      | cons next parts =>
        exact (hpart.append (tight_of_isTightAll (by decide_cbv))).append hrest
  have hleading : Tight (if p.leading then Tree.operator [':', ':'] else []) := by
    cases p.leading <;> exact tight_of_isTightAll (by decide)
  refine hleading.append (hparts _ fun part hpart => ?_)
  obtain ⟨s, hs, rfl⟩ := List.mem_map.mp hpart
  rw [(h.bare s hs).2]
  exact .leaf (.word (h.word s hs)) .nil

/-- The path that a text is read as can be written. -/
theorem Grammar.Path.written_of_ofText? {text : String} {p : Path}
    (h : Path.ofText? text = some p) (hp : p.Plain) : p.Written where
  toPlain := hp
  word s hs := by
    obtain ⟨trees, htrees, hread⟩ := Grammar.ofText?_eq_some h
    have hbare : ∀ s ∈ p.segments, s.arguments = [] := fun s hs => by rw [(hp.bare s hs).2]; rfl
    exact Tree.isWord_of_mem htrees (Reader.mem_of_path hread hbare s hs)

theorem Grammar.Path.foldl_push (names : List Name) (p : Path) :
    names.foldl Path.push p = ⟨p.leading, p.segments ++ names.map Path.bareSegment⟩ := by
  induction names generalizing p with
  | nil => simp
  | cons name names ih =>
    rw [List.foldl_cons, ih]
    simp [Path.push, Path.bareSegment]

namespace Model

variable {config : Config} {root : Path} {role : PathRole} {name : String} {n : Name}

/-- The identifier of a name is that name, raw if it is a keyword. -/
theorem identifier_eq (hname : IsName name) (h : identifier role name = .ok n) :
    n = Name.ofIdentifier name ∧ IsWord n.raw n.text := by
  unfold identifier at h
  split at h
  next found hfound =>
    obtain rfl := Except.ok.inj h
    by_cases hkeyword : name ∈ keywords
    · rw [Name.ofText?_keyword hname hkeyword] at hfound
      have hnot : rawless.contains name = false := by
        by_contra hraw
        rw [Name.ofText?_rawless name (by simpa using hraw)] at hfound
        cases hfound
      rw [Name.ofText?_raw hname hnot] at hfound
      obtain rfl := Option.some.inj hfound
      exact ⟨by simp [Name.ofIdentifier, hkeyword], hname, fun _ => hnot⟩
    · rw [Name.ofText?_plain hname hkeyword] at hfound
      obtain rfl := Option.some.inj hfound
      exact ⟨by simp [Name.ofIdentifier, hkeyword], hname, fun hraw => by cases hraw⟩
  next => cases h

theorem exists_of_bind {α β : Type} {x : Except GenerateError α} {f : α → Except GenerateError β}
    {b : β} (h : x >>= f = .ok b) : ∃ a, x = .ok a ∧ f a = .ok b := by
  cases x with
  | error e => cases h
  | ok a => exact ⟨a, rfl, h⟩

theorem exists_of_map {α β : Type} {x : Except GenerateError α} {f : α → β} {b : β}
    (h : x.map f = .ok b) : ∃ a, x = .ok a ∧ f a = b := by
  cases x with
  | error e => cases h
  | ok a => exact ⟨a, rfl, Except.ok.inj h⟩

theorem mapM_identifier {names : List String} {ns : List Name} (hnames : ∀ m ∈ names, IsName m)
    (h : names.mapM (identifier role) = .ok ns) :
    ns = names.map Name.ofIdentifier ∧ ∀ n ∈ ns, IsWord n.raw n.text := by
  induction names generalizing ns with
  | nil =>
    obtain rfl := Except.ok.inj h
    simp
  | cons name names ih =>
    rw [List.mapM_cons] at h
    obtain ⟨n, hn, h⟩ := exists_of_bind h
    obtain ⟨ns', hns, h⟩ := exists_of_bind h
    obtain rfl := Except.ok.inj h
    obtain ⟨rfl, hword⟩ := identifier_eq (hnames name List.mem_cons_self) hn
    obtain ⟨rfl, hwords⟩ := ih (fun m hm => hnames m (List.mem_cons_of_mem _ hm)) hns
    refine ⟨rfl, fun m hm => ?_⟩
    rcases List.mem_cons.mp hm with rfl | hm
    · exact hword
    · exact hwords m hm

/-- The type of a component below the root. -/
def componentPath (root : Path) (d : Descriptor) : Path :=
  (d.modulePath ++ [d.name]).foldl (fun p name => p.push (Name.ofIdentifier name)) root

/-- The name of a component and those of its modules are identifiers. -/
structure Named (d : Descriptor) : Prop where
  name : IsName d.name
  modules : ∀ m ∈ d.modulePath, IsName m

instance (d : Descriptor) : Decidable (Named d) :=
  decidable_of_iff (IsName d.name ∧ ∀ m ∈ d.modulePath, IsName m)
    ⟨fun h => ⟨h.1, h.2⟩, fun h => ⟨h.1, h.2⟩⟩

/-- Whatever the root is, the type of a component is below it. -/
theorem typePath_below {d : Descriptor} (hd : Named d) {p : Path} (h : typePath root d = .ok p) :
    p = componentPath root d ∧ ∀ name ∈ d.modulePath ++ [d.name],
      IsWord (Name.ofIdentifier name).raw (Name.ofIdentifier name).text := by
  unfold typePath at h
  obtain ⟨modules, hmodules, h⟩ := exists_of_bind h
  obtain ⟨n, hn, h⟩ := exists_of_bind h
  obtain rfl := Except.ok.inj h
  obtain ⟨rfl, hword⟩ := identifier_eq hd.name hn
  obtain ⟨rfl, hwords⟩ := mapM_identifier hd.modules hmodules
  refine ⟨by simp [componentPath, List.foldl_map], fun name hname => ?_⟩
  rcases List.mem_append.mp hname with hname | hname
  · exact hwords _ (List.mem_map.mpr ⟨name, hname, rfl⟩)
  · obtain rfl := List.mem_singleton.mp hname
    exact hword

theorem typePath_eq {d : Descriptor} (hd : Named d) (hroot : root.Written) {p : Path}
    (h : typePath root d = .ok p) : p = componentPath root d ∧ p.Written := by
  obtain ⟨rfl, hwords⟩ := typePath_below hd h
  refine ⟨rfl, ?_⟩
  have hpush : ∀ (names : List String) (p : Path), p.Written →
      (∀ name ∈ names, IsWord (Name.ofIdentifier name).raw (Name.ofIdentifier name).text) →
      (names.foldl (fun p name => p.push (Name.ofIdentifier name)) p).Written := by
    intro names
    induction names with
    | nil => exact fun p hp _ => hp
    | cons name names ih =>
      intro p hp hnames
      obtain ⟨hword, hnames⟩ := List.forall_mem_cons.mp hnames
      exact ih _ (hp.push (Name.isIdent_ofIdentifier name).inPath hword) hnames
  exact hpush _ _ hroot hwords

/-- An entry is that of a component below the root, and its names can be written. -/
structure EntryOf (root : Path) (d : Descriptor) (e : Entry) : Prop where
  name : e.name = d.name
  variant : e.variant = Name.ofIdentifier d.name
  type : e.type = componentPath root d
  word : IsWord e.variant.raw e.variant.text
  written : e.type.Written
  accessor : ∀ accessor, e.accessor = some accessor →
    Reader.IsIdent accessor ∧ IsWord accessor.raw accessor.text

@[simp] theorem Lowered.shadow_accessorText (l : Lowered) (accessor : String) :
    (l.shadow accessor).accessorText = l.accessorText := by
  unfold shadow
  split <;> rfl

@[simp] theorem Lowered.shadow_name (l : Lowered) (accessor : String) :
    (l.shadow accessor).entry.name = l.entry.name := by
  unfold shadow
  split <;> rfl

/-- A getter is kept if it has another text than one that is taken away. -/
theorem Lowered.shadow_accessor {l : Lowered} {accessor : String} {n : Name} :
    (l.shadow accessor).entry.accessor = some n ↔
      l.accessorText ≠ accessor ∧ l.entry.accessor = some n := by
  unfold shadow
  split
  next h => simp [h]
  next h => simp [h]

theorem EntryOf.shadow {d : Descriptor} {l : Lowered} (h : EntryOf root d l.entry)
    (accessor : String) : EntryOf root d (l.shadow accessor).entry := by
  unfold Lowered.shadow
  split
  · exact { h with accessor := fun _ hnone => nomatch hnone }
  · exact h

/-- What a component is added as: its getter is readable, has no built-in name, and is taken from
all components before that had it. -/
theorem addDescriptor_cases {before after : List Lowered} {d : Descriptor}
    (h : addDescriptor config root before d = .ok after) :
    let accessor := accessorName config.accessorPrefix d.name
    accessor ∉ reservedMethods ∧ ∃ getter variant type, Name.ofText? accessor = some getter ∧
      identifier .component d.name = .ok variant ∧ typePath root d = .ok type ∧
      after = before.map (·.shadow accessor) ++ [⟨accessor, ⟨d.name, variant, type, some getter⟩⟩] := by
  unfold addDescriptor at h
  dsimp only at h
  split at h
  · cases h
  split at h
  · cases h
  next hreserved =>
  split at h
  next getter hgetter =>
    have hrest : (do
        let variant ← identifier .component d.name
        let type ← typePath root d
        return before.map (·.shadow (accessorName config.accessorPrefix d.name)) ++
          [⟨accessorName config.accessorPrefix d.name, ⟨d.name, variant, type, some getter⟩⟩]) =
        Except.ok after := by
      split at h
      · split at h
        · cases h
        · exact h
      · exact h
    obtain ⟨variant, hvariant, h⟩ := exists_of_bind hrest
    obtain ⟨type, htype, h⟩ := exists_of_bind h
    exact ⟨by simpa using hreserved, getter, variant, type, hgetter, hvariant, htype,
      (Except.ok.inj h).symm⟩
  next => cases h

theorem addDescriptor_entries {ds : List Descriptor} {before after : List Lowered} {d : Descriptor}
    (hd : Named d) (hroot : root.Written)
    (hbefore : List.Forall₂ (fun d l => EntryOf root d (Lowered.entry l)) ds before)
    (h : addDescriptor config root before d = .ok after) :
    List.Forall₂ (fun d l => EntryOf root d (Lowered.entry l)) (ds ++ [d]) after := by
  obtain ⟨-, getter, variant, type, hgetter, hvariant, htype, rfl⟩ := addDescriptor_cases h
  obtain ⟨rfl, hword⟩ := identifier_eq hd.name hvariant
  obtain ⟨rfl, hwritten⟩ := typePath_eq hd hroot htype
  refine List.rel_append ?_ (.cons ⟨rfl, rfl, rfl, hword, hwritten, ?_⟩ .nil)
  · rw [List.forall₂_map_right_iff]
    exact hbefore.imp fun _ _ he => he.shadow _
  · intro accessor haccessor
    obtain rfl := Option.some.inj haccessor
    exact ⟨(Name.ofText?_eq_some hgetter).2, Name.isWord_of_ofText? hgetter⟩

theorem ofText?_of_path {text : String} {p : Path} (h : path role text = .ok p) :
    Path.ofText? text = some p := by
  unfold path at h
  split at h
  next found hfound => rwa [← Except.ok.inj h]
  next => cases h

/-- What each component keeps that is added holds of all components of a model. -/
theorem build_induction {motive : Path → List Descriptor → List Lowered → Prop}
    (hnil : ∀ root, motive root [] [])
    (hadd : ∀ {root ds before d after}, motive root ds before →
      addDescriptor config root before d = .ok after → motive root (ds ++ [d]) after)
    {set : AcceptedSet} {model : Model} (h : build set config = .ok model) :
    path .runtime config.runtimePath = .ok model.runtime ∧ ∃ root ls,
      path .typeRoot config.typeRoot = .ok root ∧ motive root set.members ls ∧
      model.entries = ls.map (·.entry) := by
  obtain ⟨runtime, hruntime, h⟩ := exists_of_bind h
  obtain ⟨root, hroot, h⟩ := exists_of_bind h
  obtain ⟨ls, hls, h⟩ := exists_of_bind h
  obtain rfl := Except.ok.inj h
  refine ⟨hruntime, root, ls, hroot, ?_, rfl⟩
  suffices hfold : ∀ {done ds : List Descriptor} {before : List Lowered}, motive root done before →
      ds.foldlM (addDescriptor config root) before = .ok ls → motive root (done ++ ds) ls from
    hfold (hnil root) hls
  intro done ds
  induction ds generalizing done with
  | nil =>
    intro before hbefore h
    obtain rfl := Except.ok.inj h
    rwa [List.append_nil]
  | cons d ds ih =>
    intro before hbefore h
    rw [List.foldlM_cons] at h
    obtain ⟨next, hnext, h⟩ := exists_of_bind h
    have hall := ih (hadd hbefore hnext) h
    rwa [List.append_assoc] at hall

/-- The entries of a model are those of the components. -/
theorem build_eq {set : AcceptedSet} {model : Model} (hset : ∀ d ∈ set.members, Named d)
    (h : build set config = .ok model) : Path.ofText? config.runtimePath = some model.runtime ∧
      ∃ root, Path.ofText? config.typeRoot = some root ∧
        (root.Plain → List.Forall₂ (EntryOf root) set.members model.entries) := by
  obtain ⟨hruntime, root, ls, hroot, hentries, hmodel⟩ := build_induction
    (motive := fun root ds ls => root.Written → (∀ d ∈ ds, Named d) →
      List.Forall₂ (fun d l => EntryOf root d (Lowered.entry l)) ds ls)
    (fun _ _ _ => .nil)
    (fun hbefore hadd hroot hds => by
      obtain ⟨hds, hd⟩ := List.forall_mem_append.mp hds
      exact addDescriptor_entries (hd _ (List.mem_singleton_self _)) hroot (hbefore hroot hds) hadd) h
  refine ⟨ofText?_of_path hruntime, root, ofText?_of_path hroot, fun hplain => ?_⟩
  rw [hmodel, List.forall₂_map_right_iff]
  exact hentries (Path.written_of_ofText? (ofText?_of_path hroot) hplain) hset

end Model

end ComponentRegistry
