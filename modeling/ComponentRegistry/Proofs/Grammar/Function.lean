import ComponentRegistry.Proofs.Grammar.Calls

/-! Functions in implementations. -/

namespace ComponentRegistry.Grammar

open Path

namespace Reader

variable {r : Rules} {trees rest : List Tree} {text : Spelling} {form : TypeForm}

/-- One parameter of a function after the text of those before it. -/
def parameterStep (r : Rules) : Spelling × Bool → Reader ((Spelling × Bool) ⊕ Spelling) :=
  fun (text, first) => do
    if ← atEnd then return .inr text
    let text := text ++ (← outer r)
    let last (head : Spelling) : Reader ((Spelling × Bool) ⊕ Spelling) :=
      return .inr (text ++ head ++ (← op "...") ++ (← optional (Look.not Look.nothing) (op ",")))
    let next (parameter : Spelling) : Reader ((Spelling × Bool) ⊕ Spelling) := do
      if ← atEnd then return .inr (text ++ parameter)
      return .inl (text ++ parameter ++ (← op ","), false)
    if ← peek (Look.op "...") then last []
    else if ← peek Look.receiver then
      let receiver ← receiver r
      if !first then refuse "unexpected method receiver"
      next receiver
    else if ← peek (Look.both Look.name (Look.second (Look.op "<"))) then
      next (Tree.word "_" :: Tree.operator [':'] ++ (← r.typeText))
    else
      let head := (← r.pattern).text ++ (← op ":")
      if ← peek (Look.op "...") then last head else next (head ++ (← r.typeText))

theorem functionParameters_eq (r : Rules) :
    functionParameters r = loop (parameterStep r) ([], true) := rfl

/-- A value itself as a parameter, by reference. -/
def receiverTrees (mutable : Bool) : Spelling :=
  .leaf (.mark '&' false) :: ((if mutable then [.leaf (.word false "mut")] else []) ++
    [.leaf (.word false "self")])

/-- What follows a parameter. -/
def parameterEnd (text : Spelling) : Reader ((Spelling × Bool) ⊕ Spelling) := do
  if ← atEnd then return .inr text
  return .inl (text ++ (← op ","), false)

@[simp] theorem parameterEnd_nil (text : Spelling) :
    parameterEnd text [] = .ok (.inr text, []) := rfl

@[simp] theorem parameterEnd_comma (text : Spelling) (joint : Bool) (rest : List Tree) :
    parameterEnd text (.leaf (.mark ',' joint) :: rest) =
      .ok (.inl (text ++ [.leaf (.mark ',' false)], false), rest) := by
  simp [↓parameterEnd, marks?]

theorem parameterStep_receiver (mutable : Bool) (rest : List Tree) :
    parameterStep r ([], true) (receiverTrees mutable ++ rest) =
      parameterEnd (receiverTrees mutable) rest := by
  cases mutable <;>
    simp [↓parameterStep, receiverTrees, Look.receiver, Look.dropWord, ↓receiver, ↓Reader.optional, ↓optWord, marks?, ↓parameterEnd]

theorem typeText_upTo {n : Nat} (h : TypeReads (Rules.upTo n) trees text form)
    (hrest : EndsPath rest) : (Rules.upTo (n + 1)).typeText (trees ++ rest) = .ok (text, rest) := by
  have hread : (Rules.upTo (n + 1)).type true (trees ++ rest) = _ := h.read true hrest
  simp [↓Rules.typeText, hread]

/-- A name with its type as a parameter. -/
theorem parameterStep_typed {n : Nat} {name : String} (hname : name ∉ keywords)
    (h : TypeReads (Rules.upTo n) trees text form) (hrest : EndsPath rest) (before : Spelling)
    (first : Bool) :
    parameterStep (Rules.upTo (n + 1)) (before, first)
        (.leaf (.word false name) :: .leaf (.mark ':' false) :: (trees ++ rest)) =
      parameterEnd (before ++ .leaf (.word false name) :: .leaf (.mark ':' false) :: text) rest := by
  have hpattern : (Rules.upTo (n + 1)).pattern
      (.leaf (.word false name) :: .leaf (.mark ':' false) :: (trees ++ rest)) =
        .ok (⟨[.leaf (.word false name)], .plain⟩, .leaf (.mark ':' false) :: (trees ++ rest)) := by
    have hother := hname
    simp [keywords] at hother
    show pattern (Rules.upTo n) _ = _
    simp [↓pattern, ↓identPattern, ↓ident, ↓Reader.optional, ↓optWord, Name.spelling, marks?,
      hname, hother]
  have htype := typeText_upTo h hrest
  have hother := hname
  simp [keywords] at hother
  simp [↓parameterStep, Look.receiver, marks?,
    hname, hother, hpattern, htype, (h.starts rest).noDots, ↓parameterEnd]

theorem functionParameters_nil : functionParameters r [] = .ok ([], []) := by
  rw [functionParameters_eq]
  exact loop_last (by simp [↓parameterStep])

theorem functionParameters_typed {n : Nat} {name : String} (hname : name ∉ keywords)
    (h : TypeReads (Rules.upTo n) trees text form) :
    functionParameters (Rules.upTo (n + 1))
        (.leaf (.word false name) :: .leaf (.mark ':' false) :: trees) =
      .ok (.leaf (.word false name) :: .leaf (.mark ':' false) :: text, []) := by
  have hstep := parameterStep_typed hname h endsPath_nil [] true
  rw [List.append_nil, List.nil_append, parameterEnd_nil] at hstep
  exact loop_last hstep

theorem functionParameters_receiver (mutable : Bool) :
    functionParameters r (receiverTrees mutable) = .ok (receiverTrees mutable, []) := by
  have hstep := @parameterStep_receiver r mutable []
  rw [List.append_nil, parameterEnd_nil] at hstep
  exact loop_last hstep

/-- The rest of the parameters after a comma. -/
theorem parameters_next {state : Spelling × Bool} {before : Spelling} {found : Spelling × List Tree}
    (hstep : parameterStep r state (trees ++ .leaf (.mark ',' false) :: rest) =
      parameterEnd before (.leaf (.mark ',' false) :: rest))
    (hmore : loop (parameterStep r) (before ++ [.leaf (.mark ',' false)], false) rest = .ok found) :
    loop (parameterStep r) state (trees ++ .leaf (.mark ',' false) :: rest) = .ok found := by
  rw [parameterEnd_comma] at hstep
  refine loop_next hstep ?_ hmore
  simp only [List.length_append, List.length_cons]
  omega

/-- An attribute that documents something with a literal text. -/
def docAttribute (literal : String) : Attribute :=
  ⟨false, ⟨false, [⟨false, "doc"⟩]⟩, .value [.leaf (.literal literal)]⟩

theorem attributeInside_doc (literal : String) :
    attributeInside r false [.leaf (.word false "doc"), .leaf (.mark '=' false),
      .leaf (.literal literal)] = .ok (docAttribute literal, []) := by
  simp [↓attributeInside, ↓attributePath, ↓namePath, Look.pathName, ↓optOp, ↓Reader.optional, marks?,
    keywords, ↓attributeValue, ↓Reader.literal, docAttribute]

theorem outerSpelling_doc (literal : String) : outerSpelling [docAttribute literal] =
    [.leaf (.mark '#' false), .group .bracket [.leaf (.word false "doc"), .leaf (.mark '=' false),
      .leaf (.literal literal)]] := rfl

theorem outerAttributes_doc (docs : Option String) (hrest : Look.op "#" rest = false) :
    outerAttributes r (outerSpelling (docs.map docAttribute).toList ++ rest) =
      .ok ((docs.map docAttribute).toList, rest) := by
  cases docs with
  | none => simp [↓outerAttributes, ↓collect, outerSpelling, hrest]
  | some literal =>
    simp [outerSpelling_doc, ↓outerAttributes, ↓collect, ↓outerAttribute, marks?,
      attributeInside_doc, hrest]

theorem outer_doc (docs : Option String) (hrest : Look.op "#" rest = false) :
    outer r (outerSpelling (docs.map docAttribute).toList ++ rest) =
      .ok (outerSpelling (docs.map docAttribute).toList, rest) := by
  simp only [outer, bind_apply, outerAttributes_doc docs hrest, pure_apply]

def arrow : Spelling := Tree.operator ['-', '>']

theorem generics_none (delimiter : Delimiter) (inner rest : List Tree) :
    generics r (.group delimiter inner :: rest) =
      .ok (⟨[], false, false⟩, .group delimiter inner :: rest) := by
  simp [↓generics]

/-- The head of a function with a result is read up to the body. -/
theorem signature_function {name : Name} (hname : IsIdent name) {generic params result body : List Tree}
    {parameters : Spelling} {g : Generics} (hgenerics : ∀ rest,
      generics r (generic ++ .group .paren params :: rest) = .ok (g, .group .paren params :: rest))
    (hparams : functionParameters r params = .ok (parameters, []))
    (hresult : r.typeText (result ++ .group .brace body :: rest) =
      .ok (text, .group .brace body :: rest)) :
    signature r false (.leaf (.word false "fn") :: (name.spelling ++ (generic ++
        .group .paren params :: (arrow ++ (result ++ .group .brace body :: rest))))) =
      .ok ((.leaf (.word false "fn") :: (name.spelling ++ (g.text ++
        .group .paren parameters :: (arrow ++ text))), false), .group .brace body :: rest) := by
  have hident : name.raw = true ∨ name.text ∉ keywords := hname
  simp [↓signature, ↓optWord, ↓Reader.optional, ↓optAbi, ↓ident, Name.spelling, hident, hgenerics,
    ↓enclosed, hparams, ↓returnType, arrow, marks?, hresult, ↓whereText, ↓whereClause]

/-- A function with a body. -/
def functionTrees (name : Name) (generic params result body : List Tree) : List Tree :=
  .leaf (.word false "fn") :: (name.spelling ++ (generic ++ .group .paren params ::
    (arrow ++ (result ++ [.group .brace body]))))

/-- A function, maybe a documented and a public one. -/
def methodTrees (docs : Option String) (visible : Bool) (function : List Tree) : List Tree :=
  outerSpelling (docs.map docAttribute).toList ++
    ((if visible then [.leaf (.word false "pub")] else []) ++ function)

/-- An inner attribute starts here. -/
def startsInner (trees : List Tree) : Bool := Look.op "#" trees && Look.second (Look.op "!") trees

theorem startsInner_of_op (h : Look.op "#" trees = false) : startsInner trees = false := by
  simp [startsInner, h]

theorem startsInner_method {docs : Option String} {visible : Bool} {name : Name}
    {generic params result inner : List Tree} (rest : List Tree) :
    startsInner (methodTrees docs visible (functionTrees name generic params result inner) ++ rest) =
      false := by
  cases docs <;> cases visible <;>
    simp [startsInner, methodTrees, functionTrees, outerSpelling, docAttribute, Attribute.spelling]

theorem startsInner_function {docs : Option String} {visible : Bool} {name : Name}
    {generic params result inner : List Tree} :
    startsInner (methodTrees docs visible (functionTrees name generic params result inner)) =
      false := by
  simpa using startsInner_method []

/-- There are no inner attributes where none starts. -/
theorem innerAttributes_plain (h : startsInner trees = false) :
    innerAttributes r trees = .ok ([], trees) := by
  have hlook : Look.both (Look.op "#") (Look.second (Look.op "!")) trees = false := h
  simp only [Look.both_apply] at hlook
  simp [↓innerAttributes, ↓collect, hlook]

/-- A body without attributes. -/
theorem body_plain {part : Reader Spelling} {inner : List Tree} {block : Spelling}
    (hinner : startsInner inner = false) (hpart : part inner = .ok (block, [])) (rest : List Tree) :
    body r part (.group .brace inner :: rest) = .ok ([.group .brace block], rest) := by
  simp [↓body, ↓enclosed, innerAttributes_plain hinner, hpart, innerSpelling]

/-- A function is a member of an implementation. -/
theorem implMember_function {n : Nat} {name : Name} (hname : IsIdent name)
    {generic params result inner : List Tree} {parameters block : Spelling} {g : Generics}
    (hgenerics : ∀ rest, generics (Rules.upTo (n + 1)) (generic ++ .group .paren params :: rest) =
      .ok (g, .group .paren params :: rest))
    (hparams : functionParameters (Rules.upTo (n + 1)) params = .ok (parameters, []))
    (hresult : TypeReads (Rules.upTo n) result text form) (hinner : startsInner inner = false)
    (hblock : (Rules.upTo (n + 1)).statements inner = .ok (block, []))
    (docs : Option String) (visible : Bool) (rest : List Tree) :
    implMember (Rules.upTo (n + 1))
        (methodTrees docs visible (functionTrees name generic params result inner) ++ rest) =
      .ok (methodTrees docs visible (functionTrees name g.text parameters text block), rest) := by
  have hhead := signature_function hname hgenerics hparams
    (typeText_upTo hresult (endsPath_group .brace inner rest))
  have hdocs := fun middle => @outer_doc (Rules.upTo (n + 1)) middle docs
  have hbody := @body_plain (Rules.upTo (n + 1)) _ inner block hinner hblock rest
  cases visible <;>
    simp [↓implMember, methodTrees, functionTrees, ↓visibility, ↓Reader.optional, Look.signature,
      Look.dropWord, hhead, hdocs, hbody]

/-- A function without type parameters is a member of an implementation. -/
theorem takes_function {n : Nat} {name : Name} (hname : IsIdent name)
    {params result inner : List Tree} {parameters block : Spelling}
    (hparams : functionParameters (Rules.upTo (n + 1)) params = .ok (parameters, []))
    (hresult : TypeReads (Rules.upTo n) result text form) (hinner : startsInner inner = false)
    (hblock : (Rules.upTo (n + 1)).statements inner = .ok (block, []))
    (docs : Option String) (visible : Bool) : Takes (implMember (Rules.upTo (n + 1)))
      (methodTrees docs visible (functionTrees name [] params result inner))
      (methodTrees docs visible (functionTrees name [] parameters text block)) where
  nonempty := by simp [methodTrees, functionTrees]
  read := by
    have hgenerics : ∀ rest, generics (Rules.upTo (n + 1)) ([] ++ .group .paren params :: rest) =
        .ok (⟨[], false, false⟩, .group .paren params :: rest) := generics_none .paren params
    exact implMember_function hname hgenerics hparams hresult hinner hblock docs visible

end Reader

end ComponentRegistry.Grammar
