import ComponentRegistry.Proofs.Grammar.PlainPath

/-! Types with one argument in angle brackets, and references. -/

namespace ComponentRegistry.Grammar

open Path

/-- The start of a type, as far as it tells that it is no constant or lifetime. -/
structure StartsType (trees : List Tree) : Prop where
  noLifetime : Look.lifetime trees = false
  noLiteral : Look.literal trees = false
  noBrace : Look.group .brace trees = false
  noMut : Look.word "mut" trees = false
  noDots : Look.op "..." trees = false
  noEnd : Look.op ">" trees = false

theorem StartsPath.startsType {trees : List Tree} (h : StartsPath trees) : StartsType trees where
  noLifetime := h.lifetime
  noLiteral := h.literal
  noBrace := h.group .brace
  noMut := h.word (by decide)
  noDots := h.op (by decide)
  noEnd := h.op (by decide)

theorem startsType_reference (joint : Bool) (trees : List Tree) :
    StartsType (.leaf (.mark '&' joint) :: trees) where
  noLifetime := rfl
  noLiteral := Look.literal_mark (by decide)
  noBrace := rfl
  noMut := rfl
  noDots := by cases joint <;> simp [marks?]
  noEnd := by simp [marks?]

namespace Reader

variable {r : Rules} {trees rest : List Tree} {names : List Name} {name : Name} {leading joint : Bool}
  {text : Spelling} {form : TypeForm}

@[simp] theorem spelling_singleton (isLifetime : Bool) (text : Spelling) :
    AnglePart.spelling [⟨isLifetime, text, false⟩] = text := by
  cases isLifetime <;> simp [AnglePart.spelling, AnglePart.listed]

theorem angled_one {part : Reader (Bool × Spelling)} {isLifetime : Bool}
    (hstart : Look.op ">" trees = false)
    (hpart : part trees = .ok ((isLifetime, text), .leaf (.mark '>' joint) :: rest)) :
    angled part (.leaf (.mark '<' false) :: trees) = .ok ([⟨isLifetime, text, false⟩], rest) := by
  simp [↓angled, hstart, hpart, marks?]

/-- A type is read as an argument. -/
theorem pathArgument_type (hstart : StartsType trees)
    (htype : r.type true trees = .ok (⟨text, form⟩, .leaf (.mark '>' joint) :: rest)) :
    pathArgument r trees = .ok ((false, text), .leaf (.mark '>' joint) :: rest) := by
  rcases form with lone | bare | _
  · cases lone <;>
      simp [↓pathArgument, hstart.noLifetime, hstart.noLiteral, hstart.noBrace, htype, marks?]
  · simp [↓pathArgument, hstart.noLifetime, hstart.noLiteral, hstart.noBrace, htype]
  · simp [↓pathArgument, hstart.noLifetime, hstart.noLiteral, hstart.noBrace, htype]

theorem pathArgument_lifetime (name : String) :
    pathArgument r (.leaf (.lifetime name) :: .leaf (.mark '>' joint) :: rest) =
      .ok ((true, [.leaf (.lifetime name)]), .leaf (.mark '>' joint) :: rest) := by
  simp [↓pathArgument, marks?]

/-- A name with one argument is read as a segment. -/
theorem segment_argued (hname : name.raw = true ∨ name.text ∉ keywords) {isLifetime : Bool}
    (hstart : Look.op ">" trees = false)
    (hpart : pathArgument r trees = .ok ((isLifetime, text), .leaf (.mark '>' joint) :: rest)) :
    segment r false (name.spelling ++ .leaf (.mark '<' false) :: trees) =
      .ok (⟨name, inAngles text, false⟩, rest) := by
  have hangled := angled_one hstart hpart
  obtain ⟨raw, text⟩ := name
  cases raw with
  | true =>
    simp [↓segment, Name.spelling, optOp, Reader.optional, marks?, hangled]
  | false =>
    have hne : text ∉ keywords := by simpa using hname
    have hother := hne
    simp [keywords] at hother
    simp [↓segment, Name.spelling, optOp, Reader.optional, marks?, hangled, hne, hother]

/-- A path is read whose last name has one argument. -/
theorem path_argued (hnames : ∀ n ∈ names, n.InPath) (hname : name.raw = true ∨ name.text ∉ keywords)
    {isLifetime : Bool} (hstart : Look.op ">" trees = false)
    (hpart : pathArgument r trees = .ok ((isLifetime, text), .leaf (.mark '>' joint) :: rest))
    (hrest : EndsPath rest) :
    path r false (front leading names ++ name.spelling ++ .leaf (.mark '<' false) :: trees) =
      .ok (⟨leading, names.map bareSegment ++ [⟨name, inAngles text, false⟩]⟩, rest) := by
  rw [List.append_assoc]
  exact path_front hnames ⟨_, _, _, rfl⟩ (segment_argued hname hstart hpart)
    (goesOn_of_endsPath hrest)

/-- A type is read from these trees up to where a path may end. -/
structure TypeReads (r : Rules) (trees : List Tree) (text : Spelling) (form : TypeForm) : Prop where
  starts : ∀ rest, StartsType (trees ++ rest)
  read : ∀ plus {rest}, EndsPath rest → type r plus (trees ++ rest) = .ok (⟨text, form⟩, rest)

theorem typeReads_plain {p : Path} (hp : p.Plain) :
    TypeReads r p.spelling p.spelling (.path p.isLone) where
  starts rest := (hp.startsPath rest).startsType
  read _ _ hrest := type_plain hp hrest

theorem plain_name {name : String} (hname : (⟨false, name⟩ : Name).InPath) :
    (⟨false, [bareSegment ⟨false, name⟩]⟩ : Path).Plain where
  nonempty := by simp
  bare s hs := by
    obtain rfl := List.mem_singleton.mp hs
    exact ⟨hname, rfl⟩

theorem spelling_name (name : String) :
    (⟨false, [bareSegment ⟨false, name⟩]⟩ : Path).spelling = [.leaf (.word false name)] := rfl

/-- A name alone is a type. -/
theorem typeReads_name {name : String} (hname : (⟨false, name⟩ : Name).InPath) :
    TypeReads r [.leaf (.word false name)] [.leaf (.word false name)] (.path true) := by
  have hread := @typeReads_plain r _ (plain_name hname)
  rwa [spelling_name] at hread

theorem startsPath_front (hnames : ∀ n ∈ names, n.InPath) (hname : name.InPath) (rest : List Tree) :
    StartsPath (front leading names ++ name.spelling ++ rest) := by
  cases leading with
  | true => exact .inr ⟨_, rfl⟩
  | false =>
    cases names with
    | nil => exact .inl ⟨name, hname, _, rfl⟩
    | cons first names => exact .inl ⟨first, hnames first List.mem_cons_self, _, rfl⟩

/-- A name that may have arguments. -/
def IsIdent (name : Name) : Prop := name.raw = true ∨ name.text ∉ keywords

instance (name : Name) : Decidable (IsIdent name) := by
  unfold IsIdent
  infer_instance

theorem IsIdent.inPath (h : IsIdent name) : name.InPath := by
  rcases h with h | h
  · exact .inl h
  · exact .inr (.inl (by simpa using h))

/-- The trees of a path whose last name has one argument. -/
def arguedTrees (leading : Bool) (names : List Name) (name : Name) (argument : List Tree)
    (joint : Bool) : List Tree :=
  front leading names ++ name.spelling ++
    .leaf (.mark '<' false) :: (argument ++ [.leaf (.mark '>' joint)])

/-- The path that is read from them. -/
def arguedPath (leading : Bool) (names : List Name) (name : Name) (argument : Spelling) : Path :=
  ⟨leading, names.map bareSegment ++ [⟨name, inAngles argument, false⟩]⟩

theorem startsPath_arguedTrees (hnames : ∀ n ∈ names, n.InPath) (hname : IsIdent name)
    (rest : List Tree) : StartsPath (arguedTrees leading names name trees joint ++ rest) := by
  simpa [arguedTrees] using startsPath_front hnames hname.inPath
    (.leaf (.mark '<' false) :: (trees ++ .leaf (.mark '>' joint) :: rest))

theorem spelling_arguedPath (leading : Bool) (names : List Name) (name : Name) (argument : Spelling) :
    (arguedPath leading names name argument).spelling =
      arguedTrees leading names name argument false := by
  rw [arguedPath, spelling_front, arguedTrees, List.append_assoc]
  simp [segmentSpelling, inAngles]

/-- What is read as the only argument of a name. -/
structure ArgumentReads (r : Rules) (trees : List Tree) (text : Spelling) : Prop where
  noEnd : ∀ rest, Look.op ">" (trees ++ rest) = false
  read : ∀ joint rest, ∃ isLifetime, pathArgument r (trees ++ .leaf (.mark '>' joint) :: rest) =
    .ok ((isLifetime, text), .leaf (.mark '>' joint) :: rest)

theorem argumentReads_type {n : Nat} (h : TypeReads (Rules.upTo n) trees text form) :
    ArgumentReads (Rules.upTo (n + 1)) trees text where
  noEnd rest := (h.starts rest).noEnd
  read _ _ := ⟨false, pathArgument_type (h.starts _) (h.read true (endsPath_mark (by decide) ..))⟩

theorem argumentReads_lifetime (name : String) :
    ArgumentReads r [.leaf (.lifetime name)] [.leaf (.lifetime name)] where
  noEnd _ := rfl
  read _ _ := ⟨true, pathArgument_lifetime name⟩

theorem path_arguedTrees (hnames : ∀ n ∈ names, n.InPath) (hname : IsIdent name)
    (h : ArgumentReads r trees text) (hrest : EndsPath rest) :
    path r false (arguedTrees leading names name trees joint ++ rest) =
      .ok (arguedPath leading names name text, rest) := by
  obtain ⟨isLifetime, hread⟩ := h.read joint rest
  have hpath := @path_argued _ _ rest names name leading joint text hnames hname _ (h.noEnd _)
    hread hrest
  simpa [arguedTrees, arguedPath] using hpath

/-- A name with one argument is a type. -/
theorem typeReads_argued (hnames : ∀ n ∈ names, n.InPath) (hname : IsIdent name)
    (h : ArgumentReads r trees text) :
    TypeReads r (arguedTrees leading names name trees joint)
      (arguedTrees leading names name text false)
      (.path (arguedPath leading names name text).isLone) := by
  have hstarts : ∀ rest, StartsPath (arguedTrees leading names name trees joint ++ rest) :=
    startsPath_arguedTrees hnames hname
  rw [← spelling_arguedPath]
  exact ⟨fun rest => (hstarts rest).startsType,
    fun _ _ hrest => type_path (hstarts _) (path_arguedTrees hnames hname h hrest) hrest⟩

/-- The trees of a name with one argument below a path. -/
def memberTrees (p : Path) (name : String) (argument : List Tree) (joint : Bool) : List Tree :=
  p.spelling ++ double ++ .leaf (.word false name) :: .leaf (.mark '<' false) ::
    (argument ++ [.leaf (.mark '>' joint)])

theorem exists_memberTrees {p : Path} (hp : p.Plain) : ∃ names : List Name,
    (∀ n ∈ names, n.InPath) ∧ ∀ name argument joint,
      arguedTrees p.leading names ⟨false, name⟩ argument joint = memberTrees p name argument joint := by
  obtain ⟨names, hnames, hfront⟩ := hp.exists_front
  refine ⟨names, hnames, fun name argument joint => ?_⟩
  rw [arguedTrees, hfront, memberTrees]
  simp [Name.spelling]

theorem startsPath_memberTrees {p : Path} (hp : p.Plain) (name : String) (argument : List Tree)
    (joint : Bool) (rest : List Tree) : StartsPath (memberTrees p name argument joint ++ rest) := by
  have hstarts := hp.startsPath (double ++ .leaf (.word false name) :: .leaf (.mark '<' false) ::
    (argument ++ .leaf (.mark '>' joint) :: rest))
  simpa [memberTrees] using hstarts

/-- A name with one argument below a path is a type. -/
theorem typeReads_member {p : Path} (hp : p.Plain) {name : String} (hname : name ∉ keywords)
    (h : ArgumentReads r trees text) (joint : Bool) : ∃ lone,
      TypeReads r (memberTrees p name trees joint) (memberTrees p name text false) (.path lone) := by
  obtain ⟨names, hnames, hmember⟩ := exists_memberTrees hp
  rw [← hmember, ← hmember]
  exact ⟨_, typeReads_argued hnames (.inr hname) h⟩

/-- The trees of a reference. -/
def referenceTrees (lifetime : Option String) (mutable : Bool) (trees : List Tree) : List Tree :=
  .leaf (.mark '&' false) :: ((lifetime.map fun name => Tree.leaf (.lifetime name)).toList ++
    ((if mutable then [.leaf (.word false "mut")] else []) ++ trees))

theorem typeReads_reference {n : Nat} (h : TypeReads (Rules.upTo n) trees text form)
    (lifetime : Option String) (mutable : Bool) :
    TypeReads (Rules.upTo (n + 1)) (referenceTrees lifetime mutable trees)
      (referenceTrees lifetime mutable text) .other where
  starts _ := startsType_reference false _
  read plus rest hrest := by
    have hread : (Rules.upTo (n + 1)).type false (trees ++ rest) = .ok (⟨text, form⟩, rest) :=
      h.read false hrest
    have hlifetime := (h.starts rest).noLifetime
    have hmut := (h.starts rest).noMut
    cases lifetime <;> cases mutable <;>
      simp [referenceTrees, ↓type, ↓referenceType, ↓Rules.boundlessType, ↓Reader.optional, ↓optWord,
        marks?, hread, hlifetime, hmut, other]

/-- A trait with one argument is read as a bound. -/
theorem bound_argued (hnames : ∀ n ∈ names, n.InPath) (hname : IsIdent name)
    (h : ArgumentReads r trees text) (capture conditional : Bool) (hrest : EndsPath rest) :
    bound r capture conditional (arguedTrees leading names name trees joint ++ rest) =
      .ok (⟨arguedTrees leading names name text false, arguedTrees leading names name text false,
        .trait⟩, rest) := by
  rw [← spelling_arguedPath]
  have hpath := @path_arguedTrees _ _ rest _ _ leading joint _ hnames hname h hrest
  have hstarts : StartsPath (arguedTrees leading names name trees joint ++ rest) :=
    startsPath_arguedTrees hnames hname rest
  have hbare : (arguedPath leading names name text).endsBare = false := by
    simp [arguedPath, Path.endsBare]
  generalize arguedTrees leading names name trees joint ++ rest = start at hpath hstarts
  simp [↓bound, ↓traitBound, ↓optBinder, ↓Reader.optional, ↓constMark, ↓optOp, ↓traitPath,
    hstarts.lifetime, hstarts.group, hstarts.word (show startsNoPath "use" = true by decide),
    hstarts.word (show startsNoPath "for" = true by decide),
    hstarts.word (show startsNoPath "const" = true by decide),
    hstarts.op (show "?".toList.head?.any (· != ':') = true by decide), hpath, hbare]

/-- A type of which only a bound is known. -/
theorem typeReads_impl {n : Nat} (hnames : ∀ n ∈ names, n.InPath) (hname : IsIdent name)
    (h : ArgumentReads (Rules.upTo n) trees text) :
    TypeReads (Rules.upTo (n + 1))
      (.leaf (.word false "impl") :: arguedTrees leading names name trees joint)
      (.leaf (.word false "impl") :: arguedTrees leading names name text false) .other where
  starts _ := by constructor <;> simp
  read plus rest hrest := by
    have hbound : (Rules.upTo (n + 1)).bound true true
        (arguedTrees leading names name trees joint ++ rest) = _ :=
      bound_argued hnames hname h true true hrest
    simp [↓type, ↓implType, ↓boundList, keywords, hbound, hrest.noPlus, other]

/-- A type parameter with one bound. -/
theorem typeParam_bounded {bare : Spelling} {bound : BoundForm} (hstarts : StartsPath trees)
    (hbound : r.bound false true trees = .ok (⟨text, bare, bound⟩, .leaf (.mark '>' joint) :: rest))
    {parameter : String} (hparameter : parameter ∉ keywords) (hne : text ≠ []) :
    typeParam r (.leaf (.word false parameter) :: .leaf (.mark ':' false) :: trees) =
      .ok (.leaf (.word false parameter) :: .leaf (.mark ':' false) :: text,
        .leaf (.mark '>' joint) :: rest) := by
  have hcomma := hstarts.op (show ",".toList.head?.any (· != ':') = true by decide)
  have hend := hstarts.op (show ">".toList.head?.any (· != ':') = true by decide)
  have hequals := hstarts.op (show "=".toList.head?.any (· != ':') = true by decide)
  have hempty := hstarts.ne_nil
  simp [↓typeParam, ↓ident, ↓afterColon, ↓openBounds, ↓joined, ↓Reader.optional, Name.spelling,
    marks?, hparameter, hbound, hcomma, hend, hequals, hempty, hne]

theorem arguedTrees_ne_nil : arguedTrees leading names name trees joint ≠ [] := by
  simp [arguedTrees]

theorem genericParam_type {parameter : String} (hparameter : parameter ∉ keywords)
    {underscore : Bool}
    (h : typeParam r (.leaf (.word false parameter) :: trees) = .ok (text, rest)) :
    genericParam r underscore (.leaf (.word false parameter) :: trees) =
      .ok ((false, text), rest) := by
  simp [↓genericParam, hparameter, h]

/-- One type parameter with one bound. -/
theorem generics_bounded {n : Nat} (hnames : ∀ n ∈ names, n.InPath) (hname : IsIdent name)
    (h : ArgumentReads (Rules.upTo n) trees text) {parameter : String}
    (hparameter : parameter ∉ keywords) {closing : Bool} :
    generics (Rules.upTo (n + 1)) (.leaf (.mark '<' false) :: .leaf (.word false parameter) ::
      .leaf (.mark ':' false) :: (arguedTrees leading names name trees joint ++
        .leaf (.mark '>' closing) :: rest)) =
      .ok (⟨inAngles (.leaf (.word false parameter) :: .leaf (.mark ':' false) ::
        arguedTrees leading names name text false), true, true⟩, rest) := by
  have hstarts : StartsPath (arguedTrees leading names name trees joint ++
      .leaf (.mark '>' closing) :: rest) := startsPath_arguedTrees hnames hname _
  have hbound : (Rules.upTo (n + 1)).bound false true
      (arguedTrees leading names name trees joint ++ .leaf (.mark '>' closing) :: rest) = _ :=
    bound_argued hnames hname h false true (endsPath_mark (by decide) ..)
  have hread := typeParam_bounded hstarts hbound hparameter arguedTrees_ne_nil
  have hangled := angled_one (by simp) (@genericParam_type _ _ _ _ _ hparameter true hread)
  simp [↓generics, marks?, hangled]

end Reader

end ComponentRegistry.Grammar
