import ComponentRegistry.Proofs.Generation.Published
import ComponentRegistry.Proofs.Generation.WellFormed

/-! The text of a registry tells which set it was made of (`Artifact.contents_eq_iff`). The names are
read off its second line. The modules are read off its enumeration, where every component stands with
its path: a path ends with a bracket, and its names are kept apart by double colons. -/

namespace ComponentRegistry

open Lexer Grammar Grammar.Path

/-- Two texts are cut at the first characters that are not of a kind. -/
theorem cut_unique {p : Char → Prop} {front front' rest rest' : List Char} {c c' : Char}
    (h : front ++ c :: rest = front' ++ c' :: rest') (hfront : ∀ k ∈ front, p k)
    (hfront' : ∀ k ∈ front', p k) (hc : ¬p c) (hc' : ¬p c') :
    front = front' ∧ c = c' ∧ rest = rest' := by
  induction front generalizing front' with
  | nil =>
    cases front' with
    | nil =>
      obtain ⟨rfl, rfl⟩ := List.cons.inj h
      exact ⟨rfl, rfl, rfl⟩
    | cons k front' =>
      obtain ⟨rfl, -⟩ := List.cons.inj h
      exact absurd (hfront' c List.mem_cons_self) hc
  | cons k front ih =>
    cases front' with
    | nil =>
      obtain ⟨rfl, -⟩ := List.cons.inj h
      exact absurd (hfront k List.mem_cons_self) hc'
    | cons k' front' =>
      obtain ⟨rfl, htail⟩ := List.cons.inj h
      obtain ⟨rfl, hrest⟩ := ih htail (fun k hk => hfront k (List.mem_cons_of_mem _ hk))
        fun k hk => hfront' k (List.mem_cons_of_mem _ hk)
      exact ⟨rfl, hrest⟩

/-- A list is told by its text, in which its parts are kept apart by a mark and the last one is
followed by another one. -/
theorem parts_unique {p : Char → Prop} {m : List Char} {c last : Char} (hc : ¬p c)
    (hlast : ¬p last) (hne : c ≠ last) {parts parts' : List (List Char)} {part part' rest rest' : List Char}
    (hparts : ∀ part ∈ parts, ∀ k ∈ part, p k) (hparts' : ∀ part ∈ parts', ∀ k ∈ part, p k)
    (hpart : ∀ k ∈ part, p k) (hpart' : ∀ k ∈ part', p k)
    (h : parts.flatMap (· ++ c :: m) ++ (part ++ last :: rest) =
      parts'.flatMap (· ++ c :: m) ++ (part' ++ last :: rest')) :
    parts = parts' ∧ part = part' ∧ rest = rest' := by
  induction parts generalizing parts' with
  | nil =>
    cases parts' with
    | nil =>
      obtain ⟨rfl, -, rfl⟩ := cut_unique h hpart hpart' hlast hlast
      exact ⟨rfl, rfl, rfl⟩
    | cons first' parts' =>
      rw [List.flatMap_nil, List.nil_append, List.flatMap_cons, List.append_assoc,
        List.append_assoc, List.cons_append] at h
      obtain ⟨-, hmark, -⟩ := cut_unique h hpart (hparts' first' List.mem_cons_self) hlast hc
      exact absurd hmark.symm hne
  | cons first parts ih =>
    obtain ⟨hfirst, hparts⟩ := List.forall_mem_cons.mp hparts
    rw [List.flatMap_cons, List.append_assoc, List.append_assoc, List.cons_append] at h
    cases parts' with
    | nil =>
      obtain ⟨-, hmark, -⟩ := cut_unique h hfirst hpart' hc hlast
      exact absurd hmark hne
    | cons first' parts' =>
      obtain ⟨hfirst', hmore'⟩ := List.forall_mem_cons.mp hparts'
      rw [List.flatMap_cons, List.append_assoc, List.append_assoc, List.cons_append] at h
      obtain ⟨rfl, -, htail⟩ := cut_unique h hfirst hfirst' hc hc
      obtain ⟨rfl, heq⟩ := ih hparts hmore' (List.append_cancel_left htail)
      exact ⟨rfl, heq⟩

theorem intercalate_append_singleton (mark : List Char) (parts : List (List Char))
    (last : List Char) :
    mark.intercalate (parts ++ [last]) = parts.flatMap (· ++ mark) ++ last := by
  induction parts with
  | nil => simp
  | cons part parts ih =>
    rw [List.cons_append, List.intercalate_cons_of_ne_nil (by simp), ih, List.flatMap_cons]
    simp

/-- Names that are listed in a line are told by it. -/
theorem names_of_line_eq {names names' : List String} {rest rest' : List Char}
    (hnames : ∀ n ∈ names, IsName n) (hnames' : ∀ n ∈ names', IsName n) (hne : names ≠ [])
    (hne' : names' ≠ []) (h : (", ".intercalate names).toList ++ '\n' :: rest =
      (", ".intercalate names').toList ++ '\n' :: rest') : names = names' ∧ rest = rest' := by
  have hsplit : ∀ names : List String, names ≠ [] → ∃ parts last,
      names.map String.toList = parts ++ [last] := fun names hne =>
    ⟨_, _, (List.dropLast_concat_getLast (by simpa using hne)).symm⟩
  obtain ⟨parts, last, hparts⟩ := hsplit names hne
  obtain ⟨parts', last', hparts'⟩ := hsplit names' hne'
  have hchars : ∀ {names : List String} {parts last}, (∀ n ∈ names, IsName n) →
      names.map String.toList = parts ++ [last] →
      ∀ part ∈ parts ++ [last], ∀ k ∈ part, k ≠ ',' ∧ k ≠ '\n' := by
    intro names parts last hnames hparts part hpart k hk
    rw [← hparts] at hpart
    obtain ⟨n, hn, rfl⟩ := List.mem_map.mp hpart
    refine ⟨?_, ?_⟩
    · rintro rfl
      exact (hnames n hn).not_mem (by decide_cbv) hk
    · rintro rfl
      exact (hnames n hn).not_mem (by decide_cbv) hk
  rw [String.toList_intercalate, String.toList_intercalate, hparts, hparts',
    intercalate_append_singleton, intercalate_append_singleton, List.append_assoc,
    List.append_assoc] at h
  have hall := hchars hnames hparts
  have hall' := hchars hnames' hparts'
  obtain ⟨hp, hl, hrest⟩ := parts_unique (p := fun k => k ≠ ',' ∧ k ≠ '\n') (c := ',')
    (by simp) (by simp) (by decide) (fun part hpart => hall part (List.mem_append_left _ hpart))
    (fun part hpart => hall' part (List.mem_append_left _ hpart)) (hall last (by simp))
    (hall' last' (by simp)) h
  refine ⟨?_, hrest⟩
  apply List.map_injective_iff.mpr fun _ _ => String.toList_injective
  rw [hparts, hparts', hp, hl]

/-! The text of code that other code follows. -/

namespace Tree

/-- The text of trees that others follow. -/
def charsBefore : List Tree → List Char
  | [] => []
  | tree :: rest => tree.chars ++ (if tree.isJoint then [] else [' ']) ++ charsBefore rest

theorem charsAll_append {rest : List Tree} (hrest : rest ≠ []) (trees : List Tree) :
    charsAll (trees ++ rest) = charsBefore trees ++ charsAll rest := by
  induction trees with
  | nil => rfl
  | cons tree trees ih =>
    have hne : (trees ++ rest).isEmpty = false := by simp [hrest]
    rw [List.cons_append, charsAll, hne, ih, charsBefore]
    simp

theorem charsBefore_append (trees rest : List Tree) :
    charsBefore (trees ++ rest) = charsBefore trees ++ charsBefore rest := by
  induction trees with
  | nil => rfl
  | cons tree trees ih => simp [charsBefore, ih]

end Tree

/-- An identifier as it stands in code. -/
def identChars (name : String) : List Char := wordChars (keywords.contains name) name

theorem identChars_injective {name name' : String} (hname : IsName name) (hname' : IsName name')
    (h : identChars name = identChars name') : name = name' := by
  have hsharp : '#' ∉ name.toList := hname.not_mem (by decide_cbv)
  have hsharp' : '#' ∉ name'.toList := hname'.not_mem (by decide_cbv)
  unfold identChars wordChars at h
  rw [← String.toList_inj]
  generalize keywords.contains name = raw, keywords.contains name' = raw' at h
  cases raw <;> cases raw'
  · exact h
  · refine absurd ?_ hsharp
    rw [show name.toList = ['r', '#'] ++ name'.toList from h]
    simp
  · refine absurd ?_ hsharp'
    rw [← show ['r', '#'] ++ name.toList = name'.toList from h]
    simp
  · exact List.append_cancel_left h

theorem not_mem_identChars {name : String} (hname : IsName name) {c : Char}
    (hc : Text.isIdentContinue c = false) (hsharp : c ≠ '#') : c ∉ identChars name := by
  have hr : c ≠ 'r' := by
    rintro rfl
    revert hc
    decide
  unfold identChars wordChars
  cases keywords.contains name <;> simp [hname.not_mem hc, hsharp, hr]

theorem map_identChars_injective {names names' : List String} (hnames : ∀ n ∈ names, IsName n)
    (hnames' : ∀ n ∈ names', IsName n) (h : names.map identChars = names'.map identChars) :
    names = names' := by
  induction names generalizing names' with
  | nil => exact (List.map_eq_nil_iff.mp h.symm).symm
  | cons n names ih =>
    obtain ⟨n', names', rfl, hfirst, hrest⟩ := List.map_eq_cons_iff.mp h.symm
    obtain ⟨hn, hnames⟩ := List.forall_mem_cons.mp hnames
    obtain ⟨hn', hnames'⟩ := List.forall_mem_cons.mp hnames'
    rw [identChars_injective hn' hn hfirst, ih hnames hnames' hrest.symm]

/-- A path tells its names, up to the bracket after it. -/
theorem names_of_path_eq {names names' : List String} {last last' : String}
    {rest rest' : List Char} (hnames : ∀ n ∈ names, IsName n) (hnames' : ∀ n ∈ names', IsName n)
    (hlast : IsName last) (hlast' : IsName last')
    (h : (names.map identChars).flatMap (· ++ " :: ".toList) ++ (identChars last ++ ')' :: rest) =
      (names'.map identChars).flatMap (· ++ " :: ".toList) ++ (identChars last' ++ ')' :: rest')) :
    names = names' ∧ rest = rest' := by
  have hident : ∀ {n : String}, IsName n → ∀ k ∈ identChars n, k ≠ ' ' ∧ k ≠ ')' := by
    intro n hn k hk
    refine ⟨?_, ?_⟩
    · rintro rfl
      exact not_mem_identChars hn (by decide_cbv) (by simp) hk
    · rintro rfl
      exact not_mem_identChars hn (by decide_cbv) (by simp) hk
  have hidents : ∀ {names : List String}, (∀ n ∈ names, IsName n) →
      ∀ part ∈ names.map identChars, ∀ k ∈ part, k ≠ ' ' ∧ k ≠ ')' := by
    intro names hnames part hpart
    obtain ⟨n, hn, rfl⟩ := List.mem_map.mp hpart
    exact hident (hnames n hn)
  obtain ⟨hparts, -, hrest⟩ := parts_unique (p := fun k => k ≠ ' ' ∧ k ≠ ')') (c := ' ')
    (m := ":: ".toList) (by simp) (by simp) (by decide) (hidents hnames) (hidents hnames')
    (hident hlast) (hident hlast') h
  exact ⟨map_identChars_injective hnames hnames' hparts, hrest⟩

namespace Model

variable {config : Config} {root : Path}

/-- The code that every path below a root starts with. -/
def below (root : Path) : Spelling :=
  (if root.leading then double else []) ++
    (root.segments.map segmentSpelling).flatMap (· ++ double)

theorem spelling_componentPath (root : Path) (d : Descriptor) :
    (componentPath root d).spelling =
      below root ++ (d.modulePath.flatMap fun m => (Name.ofIdentifier m).spelling ++ double) ++
        (Name.ofIdentifier d.name).spelling := by
  have hpush : componentPath root d = ⟨root.leading, root.segments ++
      (d.modulePath ++ [d.name]).map fun name => bareSegment (Name.ofIdentifier name)⟩ := by
    rw [componentPath, ← List.foldl_map, Path.foldl_push, List.map_map]
    rfl
  have hsegments : (root.segments ++ (d.modulePath ++ [d.name]).map fun name =>
      bareSegment (Name.ofIdentifier name)).map segmentSpelling =
        (root.segments.map segmentSpelling ++
          d.modulePath.map fun m => (Name.ofIdentifier m).spelling) ++
          [(Name.ofIdentifier d.name).spelling] := by
    simp [segmentSpelling, bareSegment, Function.comp_def]
  rw [hpush, Path.spelling, hsegments, interleave_append_singleton,
    List.flatMap_append, below]
  simp only [List.flatMap_map, List.append_assoc]
  rfl

theorem charsAll_componentPath (root : Path) (d : Descriptor) :
    Tree.charsAll (componentPath root d).spelling = Tree.charsBefore (below root) ++
      ((d.modulePath.map identChars).flatMap (· ++ " :: ".toList) ++ identChars d.name) := by
  have hmodules : ∀ names : List String,
      Tree.charsBefore (names.flatMap fun m => (Name.ofIdentifier m).spelling ++ double) =
        (names.map identChars).flatMap (· ++ " :: ".toList) := by
    intro names
    induction names with
    | nil => rfl
    | cons name names ih =>
      rw [List.flatMap_cons, List.map_cons, List.flatMap_cons, Tree.charsBefore_append, ih]
      simp [Tree.charsBefore, Name.spelling, double, Tree.operator, Tree.chars, Token.chars,
        Tree.isJoint, Tree.mark, identChars, wordChars, Name.ofIdentifier]
  have hname : Tree.charsAll (Name.ofIdentifier d.name).spelling = identChars d.name := by
    simp [Name.spelling, Tree.charsAll, Tree.chars, Token.chars, identChars, wordChars,
      Name.ofIdentifier]
  rw [spelling_componentPath, Tree.charsAll_append (by simp [Name.spelling]),
    Tree.charsBefore_append, hmodules, hname, List.append_assoc]

theorem not_generic_of_addDescriptor {before after : List Lowered} {d : Descriptor}
    (h : addDescriptor config root before d = .ok after) : d.generic = false := by
  cases hgeneric : d.generic with
  | false => rfl
  | true =>
    rw [addDescriptor, hgeneric] at h
    cases h

/-- What the enumeration shows of an entry. -/
def shownOf (e : Entry) : String × Name × Path := (e.name, e.variant, e.type)

/-- What the enumeration shows of a component. -/
def shownAs (root : Path) (d : Descriptor) : String × Name × Path :=
  (d.name, Name.ofIdentifier d.name, componentPath root d)

theorem shownOf_addDescriptor {before after : List Lowered} {d : Descriptor} (hd : Named d)
    (h : addDescriptor config root before d = .ok after) :
    after.map (fun l => shownOf l.entry) =
      before.map (fun l => shownOf l.entry) ++ [shownAs root d] := by
  obtain ⟨-, getter, variant, type, -, hvariant, htype, rfl⟩ := addDescriptor_cases h
  obtain ⟨rfl, -⟩ := identifier_eq hd.name hvariant
  obtain ⟨rfl, -⟩ := typePath_below hd htype
  have hshadow : ∀ (l : Lowered) accessor, shownOf (l.shadow accessor).entry = shownOf l.entry := by
    intro l accessor
    unfold Lowered.shadow
    split <;> rfl
  rw [List.map_append, List.map_map]
  simp only [Function.comp_def, hshadow]
  rfl

/-- A model shows its components, none of which is generic, below the root of the settings. -/
theorem shownOf_build {set : AcceptedSet} {model : Model} (hset : ∀ d ∈ set.members, Named d)
    (h : build set config = .ok model) : ∃ root, path .typeRoot config.typeRoot = .ok root ∧
      model.entries.map shownOf = set.members.map (shownAs root) ∧
      ∀ d ∈ set.members, d.generic = false := by
  obtain ⟨-, root, ls, hroot, hshown, hentries⟩ := build_induction
    (motive := fun root ds ls => (∀ d ∈ ds, Named d) →
      ls.map (fun l => shownOf l.entry) = ds.map (shownAs root) ∧ ∀ d ∈ ds, d.generic = false)
    (fun _ _ => ⟨rfl, nofun⟩)
    (fun hbefore hadd hds => by
      obtain ⟨hds, hd⟩ := List.forall_mem_append.mp hds
      obtain ⟨hshown, hgeneric⟩ := hbefore hds
      refine ⟨?_, List.forall_mem_append.mpr
        ⟨hgeneric, by simpa using not_generic_of_addDescriptor hadd⟩⟩
      rw [shownOf_addDescriptor (hd _ (List.mem_singleton_self _)) hadd, hshown, List.map_append]
      rfl) h
  obtain ⟨hshown, hgeneric⟩ := hshown hset
  refine ⟨root, hroot, ?_, hgeneric⟩
  rw [hentries, List.map_map]
  exact hshown

end Model

namespace Artifact

open Model

variable {config : Config} {root : Path} {set set' : AcceptedSet}

/-- The variant of a component. -/
def variantTrees (root : Path) (d : Descriptor) : Spelling :=
  (Name.ofIdentifier d.name).spelling ++ parens (componentPath root d).spelling ++ code ","

theorem flatMap_variantTrees {entries : List Entry} {ds : List Descriptor}
    (h : entries.map shownOf = ds.map (shownAs root)) :
    entries.flatMap variant = ds.flatMap (variantTrees root) := by
  let trees : String × Name × Path → Spelling := fun shown =>
    shown.2.1.spelling ++ parens shown.2.2.spelling ++ code ","
  have hentries : entries.flatMap variant = (entries.map shownOf).flatMap trees := by
    rw [List.flatMap_map]
    rfl
  rw [hentries, h, List.flatMap_map]
  rfl

theorem charsAll_variantTrees (root : Path) (d : Descriptor) (rest : List Tree) :
    Tree.charsAll (variantTrees root d ++ rest) =
      identChars d.name ++ ' ' :: '(' :: (Tree.charsAll (componentPath root d).spelling ++
        ')' :: ' ' :: ',' :: ((if rest.isEmpty then [] else [' ']) ++ Tree.charsAll rest)) := by
  have hcomma : code "," = [.leaf (.mark ',' false)] := by
    simp [code, piece, List.splitOn, List.splitOnP, List.splitOnPPrepend]
  simp [variantTrees, hcomma, parens, Name.spelling, Tree.charsAll, Tree.chars, Token.chars,
    Tree.isJoint, Delimiter.opening, Delimiter.closing, identChars, wordChars, Name.ofIdentifier]

/-- The variants of components with the same names tell their modules. -/
theorem members_of_variants_eq {ds ds' : List Descriptor} {rest rest' : List Char}
    (hds : ∀ d ∈ ds, Named d ∧ d.generic = false) (hds' : ∀ d ∈ ds', Named d ∧ d.generic = false)
    (hnames : ds.map Descriptor.name = ds'.map Descriptor.name)
    (h : Tree.charsAll (ds.flatMap (variantTrees root)) ++ rest =
      Tree.charsAll (ds'.flatMap (variantTrees root)) ++ rest') : ds = ds' := by
  induction ds generalizing ds' with
  | nil => exact (List.map_eq_nil_iff.mp hnames.symm).symm
  | cons d ds ih =>
    obtain ⟨d', ds', rfl, hname, hnames⟩ := List.map_eq_cons_iff.mp hnames.symm
    obtain ⟨⟨hd, hgeneric⟩, hds⟩ := List.forall_mem_cons.mp hds
    obtain ⟨⟨hd', hgeneric'⟩, hds'⟩ := List.forall_mem_cons.mp hds'
    have hend : (ds'.flatMap (variantTrees root)).isEmpty =
        (ds.flatMap (variantTrees root)).isEmpty := by
      have hlength := congrArg List.length hnames
      cases ds <;> cases ds' <;> simp [variantTrees, Name.spelling] at hlength ⊢
    rw [List.flatMap_cons, List.flatMap_cons, charsAll_variantTrees, charsAll_variantTrees, hname,
      hend, charsAll_componentPath, charsAll_componentPath] at h
    simp only [List.append_assoc, List.cons_append, List.append_cancel_left_eq, List.cons.injEq,
      true_and] at h
    obtain ⟨hmodules, hrest⟩ := names_of_path_eq hd.modules hd'.modules hd.name hd'.name h
    simp only [List.append_cancel_left_eq, List.cons.injEq, true_and] at hrest
    have hmember : d = d' := by
      cases d
      cases d'
      simp only [Descriptor.mk.injEq]
      exact ⟨hname.symm, hmodules, hgeneric.trans hgeneric'.symm⟩
    rw [hmember, ih hds hds' hnames.symm hrest]

/-- A registry starts with the variants of its components. -/
theorem charsAll_spelling {model : Model} (hne : model.entries ≠ []) : ∃ rest,
    Tree.charsAll (spelling model) =
      Tree.charsBefore (doc " Closed set of component types discovered at build time." ++
        code "pub enum AnyComponent") ++ '\x7b' :: ' ' ::
          (Tree.charsAll (model.entries.flatMap variant) ++ rest) := by
  have hinner : (model.entries.flatMap variant).isEmpty = false := by
    obtain ⟨e, entries, he⟩ := List.exists_cons_of_ne_nil hne
    simp [he, variant, Name.spelling]
  obtain ⟨after, hafter⟩ : ∃ after, spelling model =
      (doc " Closed set of component types discovered at build time." ++
        code "pub enum AnyComponent") ++
        .group .brace (model.entries.flatMap variant) :: after := by
    rw [spelling, enumeration, braces]
    simp only [List.append_assoc, List.cons_append, List.nil_append]
    exact ⟨_, rfl⟩
  rw [hafter, Tree.charsAll_append (by simp), Tree.charsAll, Tree.chars, hinner]
  simp only [Delimiter.opening, List.append_assoc, List.cons_append, List.nil_append]
  exact ⟨_, rfl⟩

/-- What is emitted is the text of a model. -/
theorem emit_eq_some {artifact : Artifact} (h : emit set config = .ok (some artifact)) :
    set.members ≠ [] ∧ ∃ model, Model.build set config = .ok model ∧
      artifact.contents = moduleText model := by
  unfold emit at h
  split at h
  · cases h
  next hne =>
    obtain ⟨model, hmodel, h⟩ := Model.exists_of_bind h
    obtain rfl := Option.some.inj (Except.ok.inj h)
    refine ⟨fun hnil => hne ?_, model, hmodel, rfl⟩
    rw [AcceptedSet.isEmpty, hnil]
    rfl

theorem names_of_shown {model : Model} (h : model.entries.map shownOf = set.members.map (shownAs root)) :
    model.entries.map (·.name) = set.members.map Descriptor.name := by
  have hfirst := congrArg (List.map Prod.fst) h
  rwa [List.map_map, List.map_map] at hfirst

theorem set_of_contents_eq (hset : ∀ d ∈ set.members, Named d) (hset' : ∀ d ∈ set'.members, Named d)
    {artifact artifact' : Artifact} (h : emit set config = .ok (some artifact))
    (h' : emit set' config = .ok (some artifact')) (heq : artifact.contents = artifact'.contents) :
    set = set' := by
  obtain ⟨hne, model, hmodel, htext⟩ := emit_eq_some h
  obtain ⟨hne', model', hmodel', htext'⟩ := emit_eq_some h'
  obtain ⟨root, hroot, hshown, hgeneric⟩ := shownOf_build hset hmodel
  obtain ⟨root', hroot', hshown', hgeneric'⟩ := shownOf_build hset' hmodel'
  obtain rfl : root = root' := Except.ok.inj (hroot.symm.trans hroot')
  have hnames := names_of_shown hshown
  have hnames' := names_of_shown hshown'
  have hentries : model.entries ≠ [] := by
    intro hnil
    rw [hnil] at hnames
    exact hne (List.map_eq_nil_iff.mp hnames.symm)
  have hentries' : model'.entries ≠ [] := by
    intro hnil
    rw [hnil] at hnames'
    exact hne' (List.map_eq_nil_iff.mp hnames'.symm)
  have hchars := congrArg String.toList (htext.symm.trans (heq.trans htext'))
  rw [moduleText_chars, moduleText_chars] at hchars
  simp only [List.cons.injEq, true_and, String.toList_append, List.append_assoc,
    List.append_cancel_left_eq, hnames, hnames'] at hchars
  have hidentifiers : ∀ {set : AcceptedSet}, (∀ d ∈ set.members, Named d) →
      ∀ n ∈ set.members.map Descriptor.name, IsName n := by
    intro set hset n hn
    obtain ⟨d, hd, rfl⟩ := List.mem_map.mp hn
    exact (hset d hd).name
  obtain ⟨hnamesEq, hcode⟩ := names_of_line_eq (hidentifiers hset) (hidentifiers hset')
    (by simpa using hne) (by simpa using hne') hchars
  obtain ⟨rest, hspelling⟩ := charsAll_spelling hentries
  obtain ⟨rest', hspelling'⟩ := charsAll_spelling hentries'
  rw [hspelling, hspelling', flatMap_variantTrees hshown, flatMap_variantTrees hshown'] at hcode
  simp only [List.append_assoc, List.cons_append, List.append_cancel_left_eq, List.cons.injEq,
    true_and] at hcode
  have hmembers := members_of_variants_eq (fun d hd => ⟨hset d hd, hgeneric d hd⟩)
    (fun d hd => ⟨hset' d hd, hgeneric' d hd⟩) hnamesEq hcode
  obtain ⟨members, hdistinct⟩ := set
  obtain ⟨members', hdistinct'⟩ := set'
  obtain rfl : members = members' := hmembers
  rfl

end Artifact

/-- A pass whose set can be emitted comes to the artifact, unless the set has been committed. -/
theorem Session.result_of_emit {s : Session} {c : Call} {artifact : Artifact}
    (hemit : Artifact.emit (s.call c).2.accepted s.config = .ok (some artifact)) :
    (s.call c).1 =
      if s.committed = some (s.call c).2.accepted then .ok .unchanged
      else .ok (.emitted artifact) := by
  have hends := s.call_ends c
  rw [← committed_collecting s c]
  rw [call_eq] at hends hemit ⊢
  by_cases hsame : (s.collecting c).committed = some (.collect (s.collecting c).evict.descriptors)
  · rw [finish_of_eq hsame, if_pos]
    exact hsame
  · have haccepted : (s.collecting c).finish.2.accepted =
        .collect (s.collecting c).evict.descriptors := by
      rw [finish_of_ne hsame]
      cases Artifact.emit (.collect (s.collecting c).evict.descriptors) (s.collecting c).config with
      | error e => rfl
      | ok result => cases result <;> rfl
    rw [haccepted, ← config_collecting s c] at hemit
    rw [haccepted, if_neg hsame, finish_of_ne hsame, hemit]

namespace Artifact

/-- With any settings, two sets of components with identifiers as names give the same text only if
they are the same. So a pass that finds the second set after the first one was committed finds it
unchanged if the text is, and otherwise gives out the other text. -/
theorem contents_eq_iff (config : Config) {set set' : AcceptedSet}
    (hset : ∀ d ∈ set.members, Model.Named d) (hset' : ∀ d ∈ set'.members, Model.Named d)
    {artifact artifact' : Artifact} (h : emit set config = .ok (some artifact))
    (h' : emit set' config = .ok (some artifact')) :
    (artifact.contents = artifact'.contents ↔ set = set') ∧
    ∀ (s : Session) (c : Call), s.config = config → s.committed = some set →
      (s.call c).2.accepted = set' →
      ((s.call c).1 = .ok .unchanged ↔ artifact.contents = artifact'.contents) ∧
      ((s.call c).1 = .ok (.emitted artifact') ↔ artifact.contents ≠ artifact'.contents) := by
  have hiff : artifact.contents = artifact'.contents ↔ set = set' := by
    refine ⟨set_of_contents_eq hset hset' h h', ?_⟩
    rintro rfl
    rw [Option.some.inj (Except.ok.inj (h.symm.trans h'))]
  refine ⟨hiff, fun s c hconfig hcommitted haccepted => ?_⟩
  have hresult : (s.call c).1 = if set = set' then .ok .unchanged else .ok (.emitted artifact') := by
    have hemit : emit (s.call c).2.accepted s.config = .ok (some artifact') := by
      rw [haccepted, hconfig, h']
    rw [Session.result_of_emit hemit, hcommitted, haccepted]
    simp only [Option.some.injEq]
  rw [hresult, hiff, ne_eq, hiff]
  by_cases hsame : set = set' <;> simp [hsame]

/-- A component in a module, and the same one in a module below. -/
def movedDown (deeper : Bool) : Node :=
  ⟨⟨"lib.rs", 0⟩, if deeper then ["fn", "a"] else ["fn"], "#[Component]struct A;"⟩

/-- The text tells the two, and what is moved down is given out again. -/
theorem contents_movedDown :
    let set deeper := AcceptedSet.collect [⟨"A", (movedDown deeper).modulePath, false⟩]
    let s := (Session.start {}).after [.run [movedDown false]]
    ∃ artifact artifact', emit (set false) {} = .ok (some artifact) ∧
      emit (set true) {} = .ok (some artifact') ∧ artifact.contents ≠ artifact'.contents ∧
      (s.call (.run [movedDown true])).1 = .ok (.emitted artifact') := by
  intro set s
  have hnamed : ∀ deeper, ∀ d ∈ (set deeper).members, Model.Named d := by decide +kernel
  have hemitted : ∀ deeper, ∃ artifact, emit (set deeper) {} = .ok (some artifact) := by
    have hsome : ∀ deeper, (emit (set deeper) {}).toOption.join.isSome = true := by decide +kernel
    intro deeper
    have hdeeper := hsome deeper
    cases hemit : emit (set deeper) {} with
    | error e => rw [hemit] at hdeeper; cases hdeeper
    | ok result =>
      cases result with
      | none => rw [hemit] at hdeeper; cases hdeeper
      | some artifact => exact ⟨artifact, rfl⟩
  obtain ⟨artifact, h⟩ := hemitted false
  obtain ⟨artifact', h'⟩ := hemitted true
  obtain ⟨hiff, hpass⟩ := contents_eq_iff {} (hnamed false) (hnamed true) h h'
  have hne : artifact.contents ≠ artifact'.contents := fun heq => absurd (hiff.mp heq) (by decide)
  have hcommitted : s.committed = some (set false) := by decide +kernel
  have haccepted : (s.call (.run [movedDown true])).2.accepted = set true := by decide +kernel
  obtain ⟨-, hchanged⟩ :=
    hpass s (.run [movedDown true]) (Session.config_after _ _) hcommitted haccepted
  exact ⟨artifact, artifact', h, h', hne, hchanged.mpr hne⟩

end Artifact

end ComponentRegistry
