import ComponentRegistry.Proofs.Grammar.Running

/-! Paths of names without arguments are read as they are spelled (`Reader.path_plain`), and so is
their start before a last name with arguments (`Reader.path_front`). -/

namespace ComponentRegistry.Grammar

/-- A name that may stand in a path: an identifier, or a keyword for a place in the tree of
modules. -/
def Name.InPath (n : Name) : Prop :=
  n.raw = true ∨ keywords.contains n.text = false ∨ n.text ∈ Reader.pathKeywords

instance (n : Name) : Decidable n.InPath := by
  unfold Name.InPath
  infer_instance

/-- A word that starts no path. -/
def startsNoPath (name : String) : Bool :=
  keywords.contains name && !Reader.pathKeywords.contains name

theorem Name.InPath.word_ne {n : Name} (h : n.InPath) (hraw : n.raw = false) {name : String}
    (hname : startsNoPath name = true) : n.text ≠ name := by
  rintro rfl
  simp only [startsNoPath, Bool.and_eq_true, Bool.not_eq_true', List.contains_eq_mem,
    decide_eq_true_eq, decide_eq_false_iff_not] at hname
  rcases h with h | h | h
  · rw [hraw] at h
    cases h
  · simp [hname.1] at h
  · exact hname.2 h

namespace Path

def double : Spelling := Tree.operator [':', ':']

def bareSegment (name : Name) : Segment := ⟨name, [], true⟩

/-- The path has no arguments. -/
structure Plain (p : Path) : Prop where
  nonempty : p.segments ≠ []
  bare : ∀ s ∈ p.segments, s.name.InPath ∧ s = bareSegment s.name

theorem eq_bareSegment_iff (s : Segment) :
    s = bareSegment s.name ↔ s.arguments.isEmpty = true ∧ s.bare = true := by
  obtain ⟨name, arguments, bare⟩ := s
  simp [bareSegment]

instance (p : Path) : Decidable p.Plain :=
  decidable_of_iff (p.segments.isEmpty = false ∧ ∀ s ∈ p.segments,
      s.name.InPath ∧ s.arguments.isEmpty = true ∧ s.bare = true) (by
    simp only [← eq_bareSegment_iff]
    exact ⟨fun h => ⟨by simpa using h.1, h.2⟩, fun h => ⟨by simpa using h.1, h.2⟩⟩)

/-- The start of a path that goes on after some names. -/
def front (leading : Bool) (names : List Name) : Spelling :=
  (if leading then double else []) ++ names.flatMap fun name => name.spelling ++ double

theorem interleave_append_singleton (parts : List Spelling) (last : Spelling) :
    interleave "::" (parts ++ [last]) = parts.flatMap (· ++ double) ++ last := by
  induction parts with
  | nil => rfl
  | cons part parts ih =>
    have hne : parts ++ [last] ≠ [] := by simp
    rw [List.cons_append, List.flatMap_cons, List.append_assoc, ← ih]
    cases hparts : parts ++ [last] with
    | nil => exact absurd hparts hne
    | cons next more => rw [interleave]; rfl; simp

/-- How a path is spelled of which only the last name may have arguments. -/
theorem spelling_front (leading : Bool) (names : List Name) (last : Segment) :
    (⟨leading, names.map bareSegment ++ [last]⟩ : Path).spelling =
      front leading names ++ segmentSpelling last := by
  have hnames : (names.map bareSegment ++ [last]).map segmentSpelling =
      names.map Name.spelling ++ [segmentSpelling last] := by
    simp [segmentSpelling, bareSegment, Function.comp_def]
  rw [spelling, hnames, interleave_append_singleton, front, List.flatMap_map, List.append_assoc]
  rfl

/-- A plain path has a last name, and all are as they are spelled. -/
theorem Plain.exists_names {p : Path} (h : p.Plain) : ∃ (names : List Name) (last : Name),
    (∀ n ∈ names, n.InPath) ∧ last.InPath ∧
      p = ⟨p.leading, names.map bareSegment ++ [bareSegment last]⟩ := by
  obtain ⟨leading, segments⟩ := p
  obtain ⟨hne, hbare⟩ := h
  refine ⟨segments.dropLast.map Segment.name, (segments.getLast hne).name, ?_,
    (hbare _ (List.getLast_mem hne)).1, ?_⟩
  · intro n hn
    obtain ⟨s, hs, rfl⟩ := List.mem_map.mp hn
    exact (hbare s (List.dropLast_subset _ hs)).1
  · have hmap : (segments.dropLast.map Segment.name).map bareSegment = segments.dropLast := by
      rw [List.map_map]
      refine (List.map_congr_left fun s hs => ?_).trans (List.map_id _)
      exact (hbare s (List.dropLast_subset _ hs)).2.symm
    rw [hmap, ← (hbare _ (List.getLast_mem hne)).2, List.dropLast_concat_getLast hne]

/-- A plain path is the start of longer ones. -/
theorem Plain.exists_front {p : Path} (h : p.Plain) : ∃ names : List Name,
    (∀ n ∈ names, n.InPath) ∧ front p.leading names = p.spelling ++ double := by
  obtain ⟨names, last, hnames, hlast, hp⟩ := h.exists_names
  refine ⟨names ++ [last], ?_, ?_⟩
  · intro n hn
    rcases List.mem_append.mp hn with hn | hn
    · exact hnames n hn
    · obtain rfl := List.mem_singleton.mp hn
      exact hlast
  · rw [hp, spelling_front]
    simp [front, segmentSpelling, bareSegment]

theorem Plain.push {p : Path} (h : p.Plain) {name : Name} (hname : name.InPath) :
    (p.push name).Plain where
  nonempty := by simp [Path.push]
  bare s hs := by
    rcases List.mem_append.mp hs with hs | hs
    · exact h.bare s hs
    · obtain rfl := List.mem_singleton.mp hs
      exact ⟨hname, rfl⟩

theorem spelling_push {p : Path} (h : p.Plain) (name : Name) :
    (p.push name).spelling = p.spelling ++ double ++ name.spelling := by
  obtain ⟨names, last, -, -, hp⟩ := h.exists_names
  have hpush : p.push name =
      ⟨p.leading, (names ++ [last]).map bareSegment ++ [bareSegment name]⟩ := by
    rw [hp]
    simp [Path.push, bareSegment]
  rw [hpush, hp, spelling_front, spelling_front]
  simp [front, segmentSpelling, bareSegment, List.append_assoc]

end Path

open Path

/-- A path starts here: with an identifier or path keyword, or with a double colon. -/
def StartsPath (trees : List Tree) : Prop :=
  (∃ n : Name, n.InPath ∧ ∃ rest, trees = .leaf (.word n.raw n.text) :: rest) ∨
    ∃ rest, trees = .leaf (.mark ':' true) :: .leaf (.mark ':' false) :: rest

namespace StartsPath

variable {trees : List Tree} (h : StartsPath trees)

include h

theorem word {name : String} (hname : startsNoPath name = true) : Look.word name trees = false := by
  obtain ⟨⟨raw, text⟩, hn, rest, rfl⟩ | ⟨rest, rfl⟩ := h
  · cases raw with
    | true => simp
    | false => simpa using hn.word_ne rfl hname
  · simp

theorem op {marks : String} (hmarks : marks.toList.head?.any (· != ':') = true) :
    Look.op marks trees = false := by
  have hne : marks ≠ "" := by
    rintro rfl
    cases hmarks
  obtain ⟨n, -, rest, rfl⟩ | ⟨rest, rfl⟩ := h
  · simp [hne]
  · cases hchars : marks.toList with
    | nil => simp [hchars] at hmarks
    | cons c cs =>
      have hc : c ≠ ':' := by simpa [hchars] using hmarks
      cases cs <;> simp [hchars, marks?, hc]

theorem lifetime : Look.lifetime trees = false := by
  obtain ⟨n, -, rest, rfl⟩ | ⟨rest, rfl⟩ := h <;> rfl

theorem group (delimiter : Delimiter) : Look.group delimiter trees = false := by
  obtain ⟨n, -, rest, rfl⟩ | ⟨rest, rfl⟩ := h <;> rfl

theorem literal : Look.literal trees = false := by
  have htrue := h.word (show startsNoPath "true" = true by decide)
  have hfalse := h.word (show startsNoPath "false" = true by decide)
  obtain ⟨⟨raw, text⟩, -, rest, rfl⟩ | ⟨rest, rfl⟩ := h
  · cases raw <;> simp_all
  · rfl

theorem ne_nil : trees ≠ [] := by
  obtain ⟨n, -, rest, rfl⟩ | ⟨rest, rfl⟩ := h <;> simp

end StartsPath

theorem Path.Plain.startsPath {p : Path} (h : p.Plain) (rest : List Tree) :
    StartsPath (p.spelling ++ rest) := by
  obtain ⟨names, last, hnames, hlast, hp⟩ := h.exists_names
  rw [hp, spelling_front, front]
  cases p.leading with
  | true => exact .inr ⟨_, rfl⟩
  | false =>
    cases names with
    | nil => exact .inl ⟨last, hlast, _, rfl⟩
    | cons name names => exact .inl ⟨name, hnames name List.mem_cons_self, _, rfl⟩

/-- What may stand after a path, so that it ends there. -/
structure EndsPath (trees : List Tree) : Prop where
  noColons : Look.op "::" trees = false
  noAngle : Look.op "<" trees = false
  noBang : Look.op "!" trees = false
  noPlus : Look.op "+" trees = false

@[simp] theorem endsPath_nil : EndsPath [] := by
  constructor <;> simp

@[simp] theorem endsPath_group (delimiter : Delimiter) (inner rest : List Tree) :
    EndsPath (.group delimiter inner :: rest) := by
  constructor <;> simp

@[simp] theorem endsPath_word (raw : Bool) (text : String) (rest : List Tree) :
    EndsPath (.leaf (.word raw text) :: rest) := by
  constructor <;> simp

@[simp] theorem endsPath_mark {c : Char} (h : [':', '<', '!', '+'].contains c = false)
    (joint : Bool) (rest : List Tree) : EndsPath (.leaf (.mark c joint) :: rest) := by
  simp at h
  constructor <;> cases joint <;> simp [marks?, Ne.symm h.1, Ne.symm h.2.1, Ne.symm h.2.2.1,
    Ne.symm h.2.2.2]

/-- No arguments of the name before them start here. -/
def EndsName (inExpr : Bool) (trees : List Tree) : Prop :=
  (inExpr = true ∨ Look.op "<" trees = false) ∧
    (Look.op "::" trees = false ∨ Look.third (Look.op "<") trees = false)

theorem EndsPath.endsName {inExpr : Bool} {trees : List Tree} (h : EndsPath trees) : EndsName inExpr trees :=
  ⟨.inr h.noAngle, .inl h.noColons⟩

namespace Reader

variable {r : Rules} {inExpr : Bool} {trees rest : List Tree} {names : List Name} {last : Segment}
  {leading : Bool} {p : Path}

/-- A name without arguments is read as a segment. -/
theorem segment_bare {name : Name} (hname : name.InPath) (hrest : EndsName inExpr rest) :
    segment r inExpr (name.spelling ++ rest) = .ok (bareSegment name, rest) := by
  obtain ⟨raw, text⟩ := name
  obtain ⟨hdirect, hturbo⟩ := hrest
  rcases hname with hname | hname | hname
  · obtain rfl : raw = true := hname
    rcases hdirect with rfl | hdirect <;> rcases hturbo with hturbo | hturbo <;>
      simp_all [↓segment, Name.spelling, bareSegment]
  · have hne : text ∉ keywords := by simpa using hname
    simp [keywords] at hne
    rcases hdirect with rfl | hdirect <;> rcases hturbo with hturbo | hturbo <;>
      simp_all [↓segment, Name.spelling, bareSegment]
  · simp only [pathKeywords, List.mem_cons, List.not_mem_nil, or_false] at hname
    rcases hname with rfl | rfl | rfl | rfl <;> cases raw <;>
    rcases hdirect with rfl | hdirect <;> rcases hturbo with hturbo | hturbo <;>
      simp_all [↓segment, Name.spelling, bareSegment]

/-- The path goes on after a segment: no arguments in parentheses follow the double colon. -/
def goesOn : Look := Look.but (Look.op "::") (Look.third (Look.group .paren))

def pathStep (r : Rules) (inExpr : Bool) (before : List Segment) :
    Reader (List Segment ⊕ List Segment) := do
  let segments := before ++ [← segment r inExpr]
  if ← peek goesOn then
    let _ ← op "::"
    return .inl segments
  return .inr segments

theorem path_eq (r : Rules) (inExpr : Bool) : path r inExpr = (do
    let leading ← peek (Look.op "::")
    let _ ← optOp "::"
    let segments ← loop (pathStep r inExpr) []
    return ⟨leading, segments⟩) := rfl

def StartsName (trees : List Tree) : Prop :=
  ∃ raw text rest, trees = .leaf (.word raw text) :: rest

theorem pathStep_next {name : Name} (hname : name.InPath) (htrees : StartsName trees)
    (before : List Segment) : pathStep r inExpr before (name.spelling ++ double ++ trees) =
      .ok (.inl (before ++ [bareSegment name]), trees) := by
  obtain ⟨raw, text, rest, rfl⟩ := htrees
  have hends : EndsName inExpr (double ++ .leaf (.word raw text) :: rest) := by
    refine ⟨.inr ?_, .inr ?_⟩ <;> simp [double, marks?]
  rw [List.append_assoc, pathStep, bind_apply, segment_bare hname hends]
  simp [goesOn, double, marks?]

/-- A path ends with the first segment after which it does not go on. -/
theorem path_loop (hnames : ∀ n ∈ names, n.InPath) (htrees : StartsName trees)
    (hlast : segment r inExpr trees = .ok (last, rest)) (hrest : goesOn rest = false)
    (before : List Segment) :
    loop (pathStep r inExpr) before (names.flatMap (fun n => n.spelling ++ double) ++ trees) =
      .ok (before ++ names.map bareSegment ++ [last], rest) := by
  induction names generalizing before with
  | nil =>
    refine loop_last ?_
    simp [pathStep, hlast, hrest]
  | cons name names ih =>
    have hmore : StartsName (names.flatMap (fun n => n.spelling ++ double) ++ trees) := by
      cases names with
      | nil => exact htrees
      | cons => exact ⟨_, _, _, rfl⟩
    rw [List.flatMap_cons, List.append_assoc]
    refine loop_next (pathStep_next (hnames name List.mem_cons_self) hmore before) ?_ ?_
    · simp only [Name.spelling, List.length_append, List.length_singleton]
      omega
    · rw [ih fun n hn => hnames n (List.mem_cons_of_mem _ hn)]
      simp

/-- A path is read of which only the last name may have arguments. -/
theorem path_front (hnames : ∀ n ∈ names, n.InPath) (htrees : StartsName trees)
    (hlast : segment r inExpr trees = .ok (last, rest)) (hrest : goesOn rest = false) :
    path r inExpr (front leading names ++ trees) =
      .ok (⟨leading, names.map bareSegment ++ [last]⟩, rest) := by
  have hloop := path_loop hnames htrees hlast hrest []
  rw [List.nil_append] at hloop
  have hstart : StartsName (names.flatMap (fun n => n.spelling ++ double) ++ trees) := by
    cases names with
    | nil => exact htrees
    | cons => exact ⟨_, _, _, rfl⟩
  rw [path_eq, front, List.append_assoc]
  generalize names.flatMap (fun n => n.spelling ++ double) = start at hloop hstart ⊢
  cases leading with
  | true =>
    have hcolons : optOp "::" (double ++ (start ++ trees)) = .ok (double, start ++ trees) := by
      simp [double, optOp, Reader.optional, marks?]
    have hlook : Look.op "::" (double ++ (start ++ trees)) = true := by simp [double, marks?]
    simp only [if_true, bind_apply, peek_apply, hcolons, hlook, hloop, pure_apply]
  | false =>
    obtain ⟨raw, text, more, hmore⟩ := hstart
    have hcolons : optOp "::" (start ++ trees) = .ok ([], start ++ trees) := by
      simp [hmore, optOp, Reader.optional]
    have hlook : Look.op "::" (start ++ trees) = false := by simp [hmore]
    simp only [Bool.false_eq_true, if_false, List.nil_append, bind_apply, peek_apply, hcolons, hlook,
      hloop, pure_apply]

theorem goesOn_of_endsPath (h : EndsPath rest) : goesOn rest = false := by
  simp [goesOn, h.noColons]

/-- A path without arguments is read as it is spelled. -/
theorem path_plain (hp : p.Plain) (hrest : EndsPath rest) :
    path r inExpr (p.spelling ++ rest) = .ok (p, rest) := by
  obtain ⟨names, last, hnames, hlast, hp⟩ := hp.exists_names
  have hsegment := @segment_bare r inExpr _ _ hlast hrest.endsName
  rw [hp, spelling_front, List.append_assoc]
  exact path_front hnames ⟨_, _, _, rfl⟩ hsegment (goesOn_of_endsPath hrest)

/-- A type is a path where one starts, unless more bounds or a macro call follow. -/
theorem type_path {plus : Bool} (hstart : StartsPath trees)
    (hpath : path r false trees = .ok (p, rest)) (hrest : EndsPath rest) :
    type r plus trees = .ok (⟨p.spelling, .path p.isLone⟩, rest) := by
  have hpointer : Look.words ["fn", "unsafe", "extern"] trees = false := by
    simp [hstart.word (show startsNoPath "fn" = true by decide),
      hstart.word (show startsNoPath "unsafe" = true by decide),
      hstart.word (show startsNoPath "extern" = true by decide)]
  have hstarts : Look.any [Look.name, Look.words ["super", "self", "Self", "crate"], Look.op "::",
      Look.op "<"] trees = true := by
    obtain ⟨⟨raw, text⟩, hname, rest, rfl⟩ | ⟨rest, rfl⟩ := hstart
    · rcases hname with hname | hname | hname
      · simp_all
      · simp_all
      · simp only [pathKeywords, List.mem_cons, List.not_mem_nil, or_false] at hname
        cases raw <;> rcases hname with rfl | rfl | rfl | rfl <;> simp
    · simp [marks?]
  have hread : pathType r plus [] trees = .ok (⟨p.spelling, .path p.isLone⟩, rest) := by
    simp [↓pathType, ↓anyPath, hstart.op (show ("<".toList.head?.any (· != ':')) = true by decide),
      hpath, hrest.noBang, hrest.noPlus]
  simp only [type, bind_apply, peek_apply, ite_apply, hpointer, hstarts, hread,
    hstart.word (show startsNoPath "for" = true by decide), hstart.group, Bool.false_eq_true,
    if_false, if_true]

/-- A plain path is a type. -/
theorem type_plain {plus : Bool} (hp : p.Plain) (hrest : EndsPath rest) :
    type r plus (p.spelling ++ rest) = .ok (⟨p.spelling, .path p.isLone⟩, rest) :=
  type_path (hp.startsPath rest) (path_plain hp hrest) hrest

end Reader

end ComponentRegistry.Grammar
