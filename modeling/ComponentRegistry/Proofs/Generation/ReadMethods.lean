import ComponentRegistry.Proofs.Generation.ReadItems

/-! The structure of a registry and its methods are read as such. -/

namespace ComponentRegistry.Artifact

open Grammar Reader Path

attribute [local simp] code piece List.splitOn List.splitOnP List.splitOnPPrepend parens braces
  brackets

variable {n : Nat} {e : Entry} {entries : List Entry} {runtime : Path} {rest : List Tree}
  {text : Spelling} {r : Rules}

/-- A block of one expression on the value itself. -/
theorem statements_onSelf (h : trailers (Rules.upTo n) (plain [.leaf (.word false "self")])
    (.leaf (.mark '.' false) :: rest) = .ok (plain text, [])) :
    (Rules.upTo (n + 2)).statements
        (.leaf (.word false "self") :: .leaf (.mark '.' false) :: rest) = .ok (text, []) := by
  have hself : (⟨false, "self"⟩ : Name).InPath := by decide
  have hatom : atom (Rules.upTo n) true
      (.leaf (.word false "self") :: .leaf (.mark '.' false) :: rest) = _ :=
    atom_plain (plain_name hself) (by simp [marks?]) (endsPath_mark (by decide) false rest)
      (by simp)
  have hbang : Look.afterNamePath (Look.op "!")
      (.leaf (.word false "self") :: .leaf (.mark '.' false) :: rest) = false := by
    rw [afterNamePath_self (.inl rfl) (by simp [marks?])]
    simp [marks?]
  exact statements_self (.inl rfl) hbang (operand_atom (.inl ⟨_, hself, _, rfl⟩) hatom h)

/-- The field of the value itself. -/
theorem trailers_inner {found : Phrase × List Tree}
    (h : trailers r (plain (code "self . inner")) (.leaf (.mark '.' false) :: rest) = .ok found) :
    trailers r (plain [.leaf (.word false "self")]) (.leaf (.mark '.' false) ::
      .leaf (.word false "inner") :: .leaf (.mark '.' false) :: rest) = .ok found := by
  refine trailers_field (by decide) (by simp [marks?]) (by simp) ?_
  simpa using h

/-- A block that calls a method of the field of the value itself. -/
theorem statements_inner {name : String} (hname : name ∉ keywords) {inner : List Tree}
    {arguments : Spelling} (hinner : expressions (Rules.upTo n) inner = .ok (arguments, [])) :
    (Rules.upTo (n + 2)).statements (code "self . inner ." ++
        .leaf (.word false name) :: [.group .paren inner]) =
      .ok (code "self . inner ." ++ .leaf (.word false name) :: [.group .paren arguments], []) := by
  have hcall : trailers (Rules.upTo n) (plain (code "self . inner")) (.leaf (.mark '.' false) ::
      .leaf (.word false name) :: [.group .paren inner]) = _ :=
    trailers_method hname hinner (trailers_end endsExpr_nil _)
  simpa using statements_onSelf (trailers_inner hcall)

theorem plainMethod_trees {name : String} (hcode : code name = [.leaf (.word false name)])
    (docs : Option String) (result : Spelling) :
    outerSpelling (docs.map docAttribute).toList ++ plainMethod name result =
      methodTrees docs true (functionTrees ⟨false, name⟩ [] (receiverTrees false) result
        (code "self . inner ." ++ .leaf (.word false name) :: [.group .paren []])) := by
  rw [plainMethod, hcode]
  simp [methodTrees, functionTrees, receiverTrees, Name.spelling, arrow]

theorem takes_plainMethod {name : String} (hcode : code name = [.leaf (.word false name)])
    (hname : name ∉ keywords) {result : List Tree} {form : TypeForm}
    (hresult : TypeReads (Rules.upTo (n + 1)) result text form) (docs : Option String) :
    Takes (implMember (Rules.upTo (n + 2)))
      (outerSpelling (docs.map docAttribute).toList ++ plainMethod name result)
      (outerSpelling (docs.map docAttribute).toList ++ plainMethod name text) := by
  rw [plainMethod_trees hcode, plainMethod_trees hcode]
  exact takes_function (.inr hname) (functionParameters_receiver false) hresult
    (startsInner_of_op (by simp)) (statements_inner hname expressions_nil) docs true

/-- The result of a listing. -/
def listingTrees (runtime : Path) (joint : Bool) : List Tree :=
  arguedTrees true [⟨false, "std"⟩, ⟨false, "vec"⟩] ⟨false, "Vec"⟩
    (memberTrees runtime "Listing" [.leaf (.lifetime "_")] joint) false

theorem listingTrees_code (runtime : Path) (joint : Bool) : listingTrees runtime joint =
    code ":: std :: vec :: Vec <" ++ runtime.spelling ++ code ":: Listing < '_" ++
      [.leaf (.mark '>' joint), .leaf (.mark '>' false)] := by
  simp [listingTrees, arguedTrees, memberTrees, front, double, Name.spelling]

theorem listing_trees (runtime : Path) : listing runtime.spelling = listingTrees runtime true := by
  rw [listingTrees_code]
  simp [listing]

theorem typeReads_listing (hruntime : runtime.Plain) (joint : Bool) : ∃ form,
    TypeReads (Rules.upTo (n + 1)) (listingTrees runtime joint) (listingTrees runtime false) form := by
  obtain ⟨lone, hmember⟩ := typeReads_member (r := Rules.upTo n) hruntime
    (show "Listing" ∉ keywords by decide) (argumentReads_lifetime "_") joint
  have hnames : ∀ n ∈ [(⟨false, "std"⟩ : Name), ⟨false, "vec"⟩], n.InPath := by decide
  exact ⟨_, typeReads_argued hnames (by decide) (argumentReads_type hmember)⟩

/-- The path of the function that makes an empty registry of the runtime library. -/
def newPath (runtime : Path) : Path := (runtime.push ⟨false, "Registry"⟩).push ⟨false, "new"⟩

theorem plain_newPath (hruntime : runtime.Plain) : (newPath runtime).Plain :=
  (hruntime.push (by decide)).push (by decide)

theorem newMethod_trees (hruntime : runtime.Plain) : newMethod runtime.spelling =
    methodTrees (some (docLiteral " Creates an empty registry.")) true
      (functionTrees ⟨false, "new"⟩ [] [] [.leaf (.word false "Self")]
        [.leaf (.word false "Self"), .group .brace (.leaf (.word false "inner") ::
          .leaf (.mark ':' false) :: ((newPath runtime).spelling ++
            .group .paren [] :: [.leaf (.mark ',' false)]))]) := by
  rw [newPath, spelling_push (hruntime.push (by decide)), spelling_push hruntime]
  simp [newMethod, doc_trees, methodTrees, functionTrees, double, Name.spelling, arrow]

theorem takes_newMethod (hruntime : runtime.Plain) :
    Takes (implMember (Rules.upTo (n + 4))) (newMethod runtime.spelling)
      (newMethod runtime.spelling) := by
  have hvalue : (Rules.upTo (n + 2)).exprText ((newPath runtime).spelling ++
      .group .paren [] :: [.leaf (.mark ',' false)]) = _ :=
    exprText_operand (operand_call (plain_newPath hruntime) expressions_nil (endsExpr_comma ..))
      (endsExpr_comma ..)
  have hself : (⟨false, "Self"⟩ : Name).InPath := by decide
  have hread := pathExpr_structure (plain_name hself)
    (fieldValue_named (show "inner" ∉ keywords by decide) hvalue)
  rw [spelling_name] at hread
  simp only [List.cons_append, List.nil_append, List.append_assoc] at hread
  have hatom : atom (Rules.upTo (n + 2)) true (.leaf (.word false "Self") :: [.group .brace
      (.leaf (.word false "inner") :: .leaf (.mark ':' false) :: ((newPath runtime).spelling ++
        .group .paren [] :: [.leaf (.mark ',' false)]))]) = _ :=
    (atom_pathExpr (.inl ⟨_, hself, _, rfl⟩) (by simp)).trans hread
  have hblock := statements_self (.inr rfl)
    (by rw [afterNamePath_self (.inr rfl) (by simp)]; simp)
    (operand_atom (.inl ⟨_, hself, _, rfl⟩) hatom (trailers_end endsExpr_nil _))
  rw [newMethod_trees hruntime]
  exact takes_function (by decide) functionParameters_nil readSelf (startsInner_of_op (by simp))
    hblock _ true

theorem option_trees (inner : Spelling) : option inner =
    arguedTrees true [⟨false, "core"⟩, ⟨false, "option"⟩] ⟨false, "Option"⟩ inner false := by
  simp [option, Artifact.inAngles, arguedTrees, front, double, Name.spelling]

theorem typeReads_option {trees : List Tree} {form : TypeForm}
    (h : TypeReads (Rules.upTo n) trees text form) :
    ∃ form, TypeReads (Rules.upTo (n + 1)) (option trees) (option text) form := by
  have hnames : ∀ n ∈ [(⟨false, "core"⟩ : Name), ⟨false, "option"⟩], n.InPath := by decide
  rw [option_trees, option_trees]
  exact ⟨_, typeReads_argued hnames (by decide) (argumentReads_type h)⟩

/-- Something that becomes a value of a type. -/
def intoTrees (type : List Tree) : List Tree :=
  .leaf (.word false "impl") ::
    arguedTrees true [⟨false, "core"⟩, ⟨false, "convert"⟩] ⟨false, "Into"⟩ type false

theorem typeReads_into {type : List Tree} {form : TypeForm}
    (h : TypeReads (Rules.upTo n) type text form) :
    TypeReads (Rules.upTo (n + 2)) (intoTrees type) (intoTrees text) .other := by
  have hnames : ∀ n ∈ [(⟨false, "core"⟩ : Name), ⟨false, "convert"⟩], n.InPath := by decide
  exact typeReads_impl hnames (by decide) (argumentReads_type h)

/-- The parameters of the method that stores a component. -/
def registerParams : List Tree :=
  receiverTrees true ++ .leaf (.mark ',' false) :: (
    .leaf (.word false "name") :: .leaf (.mark ':' false) ::
      intoTrees (absolutePath ["std", "string", "String"]).spelling ++ .leaf (.mark ',' false) :: (
    .leaf (.word false "component") :: .leaf (.mark ':' false) ::
      intoTrees [.leaf (.word false "AnyComponent")] ++ [.leaf (.mark ',' false)]))

theorem functionParameters_register :
    functionParameters (Rules.upTo (n + 3)) registerParams = .ok (registerParams, []) := by
  have htext : (absolutePath ["std", "string", "String"]).Plain :=
    plain_absolutePath (by simp) (by decide)
  have hname := fun rest hrest before => @parameterStep_typed _ rest _ _ (n + 2) "name" (by decide)
    (typeReads_into (n := n) (typeReads_plain htext)) hrest before false
  have hcomponent := fun rest hrest before => @parameterStep_typed _ rest _ _ (n + 2) "component"
    (by decide) (typeReads_into (n := n) readComponent) hrest before false
  refine parameters_next (parameterStep_receiver true _) ?_
  refine parameters_next (hname _ (endsPath_mark (by decide) false _) _) ?_
  refine parameters_next (hcomponent _ (endsPath_mark (by decide) false _) _) ?_
  refine loop_last ?_
  simp [↓parameterStep, registerParams]

theorem registerMethod_trees : registerMethod = methodTrees
    (some (docLiteral " Stores `component` under `name`; the last registration for a name wins."))
    true (functionTrees ⟨false, "register"⟩ [] registerParams
      (option [.leaf (.word false "AnyComponent")])
      (code "self . inner ." ++ .leaf (.word false "register") :: [.group .paren (
        .leaf (.word false "name") :: .leaf (.mark ',' false) :: [.leaf (.word false "component"),
          .leaf (.mark '.' false), .leaf (.word false "into"), .group .paren []])])) := by
  simp [registerMethod, doc_trees, methodTrees, functionTrees, registerParams, receiverTrees,
    intoTrees, arguedTrees, absolutePath, Path.spelling, segmentSpelling, bareSegment, interleave,
    front, double, Name.spelling, arrow]

theorem takes_registerMethod :
    Takes (implMember (Rules.upTo (n + 3))) registerMethod registerMethod := by
  obtain ⟨form, hresult⟩ := typeReads_option (n := n + 1) readComponent
  have hcomponent : (⟨false, "component"⟩ : Name).InPath := by decide
  have hatom : atom (Rules.upTo n) true (.leaf (.word false "component") ::
      .leaf (.mark '.' false) :: .leaf (.word false "into") :: [.group .paren []]) = _ :=
    atom_plain (plain_name hcomponent) (by simp [marks?]) (endsPath_mark (by decide) ..) (by simp)
  have hinto : (Rules.upTo (n + 1)).exprText (.leaf (.word false "component") ::
      .leaf (.mark '.' false) :: .leaf (.word false "into") :: [.group .paren []]) = _ :=
    exprText_operand (operand_atom (.inl ⟨_, hcomponent, _, rfl⟩) hatom
      (trailers_method (by decide) expressions_nil (trailers_end endsExpr_nil _))) endsExpr_nil
  have hname : (Rules.upTo (n + 1)).exprText (.leaf (.word false "name") ::
      .leaf (.mark ',' false) :: .leaf (.word false "component") ::
        .leaf (.mark '.' false) :: .leaf (.word false "into") :: [.group .paren []]) = _ :=
    exprText_name (by decide) (by simp [marks?]) (by simp) (endsExpr_comma ..)
  have harguments : expressions (Rules.upTo (n + 1)) ([.leaf (.word false "name")] ++
      .leaf (.mark ',' false) :: _) = _ := expressions_two (by simp) hname (by simp) hinto
  rw [registerMethod_trees]
  exact takes_function (by decide) functionParameters_register hresult
    (startsInner_of_op (by simp)) (statements_inner (by decide) harguments) _ true

/-- The parameters of a method that gets a component. -/
def lookupParams (mutable : Bool) : List Tree :=
  receiverTrees mutable ++ .leaf (.mark ',' false) :: .leaf (.word false "name") ::
    .leaf (.mark ':' false) :: referenceTrees none false [.leaf (.word false "str")]

theorem functionParameters_lookup (mutable : Bool) :
    functionParameters (Rules.upTo (n + 2)) (lookupParams mutable) =
      .ok (lookupParams mutable, []) := by
  have hstr : TypeReads (Rules.upTo n) [.leaf (.word false "str")] _ _ :=
    typeReads_name (by decide)
  have hname := parameterStep_typed (show "name" ∉ keywords by decide)
    (typeReads_reference hstr none false) endsPath_nil
    (receiverTrees mutable ++ [.leaf (.mark ',' false)]) false
  rw [List.append_nil, parameterEnd_nil] at hname
  refine parameters_next (parameterStep_receiver mutable _) ((loop_last hname).trans ?_)
  simp [lookupParams]

/-- The type parameter of a method that gets a component. -/
def memberGenerics (runtime : Path) (joint : Bool) : List Tree :=
  .leaf (.mark '<' false) :: .leaf (.word false "T") :: .leaf (.mark ':' false) ::
    (memberTrees runtime "Member" [.leaf (.word false "AnyComponent")] joint ++
      [.leaf (.mark '>' false)])

theorem generics_member (hruntime : runtime.Plain) (joint : Bool) (rest : List Tree) :
    generics (Rules.upTo (n + 2)) (memberGenerics runtime joint ++ rest) =
      .ok (⟨memberGenerics runtime false, true, true⟩, rest) := by
  obtain ⟨names, hnames, hmember⟩ := exists_memberTrees hruntime
  have hargument : ArgumentReads (Rules.upTo (n + 1)) [.leaf (.word false "AnyComponent")] _ :=
    argumentReads_type readComponent
  have hread := @generics_bounded _ rest _ ⟨false, "Member"⟩ runtime.leading joint _ _ hnames
    (by decide) hargument "T" (by decide) false
  rw [hmember, hmember] at hread
  simpa [memberGenerics, Reader.inAngles] using hread

/-- A method that gets a component by its type parameter, with the text that it is read as. -/
def lookupTrees (runtime : Path) (mutable : Bool) (summary : String) (joint : Bool) : List Tree :=
  methodTrees (some (docLiteral summary)) true
    (functionTrees ⟨false, if mutable then "get_mut" else "get"⟩ (memberGenerics runtime joint)
      (lookupParams mutable) (option (referenceTrees none mutable [.leaf (.word false "T")]))
      (code "self . inner ." ++ .leaf (.word false (if mutable then "get_mut" else "get")) ::
        (double ++ Artifact.inAngles [.leaf (.word false "T")] ++
          [.group .paren [.leaf (.word false "name")]])))

theorem lookupTrees_code (runtime : Path) (mutable : Bool) (summary : String) (joint : Bool) :
    lookupTrees runtime mutable summary joint =
    doc summary ++ code "pub fn" ++ code (if mutable then "get_mut" else "get") ++ code "< T :" ++
      runtime.spelling ++ code ":: Member < AnyComponent" ++
      [.leaf (.mark '>' joint), .leaf (.mark '>' false)] ++
      parens (code (if mutable then "& mut" else "&") ++ code "self , name : & str") ++
      code "->" ++ option (code (if mutable then "& mut" else "&") ++ code "T") ++ braces (
        code "self . inner ." ++ code (if mutable then "get_mut" else "get") ++ code ":: < T >" ++
          parens (code "name")) := by
  cases mutable <;>
    simp [lookupTrees, doc_trees, methodTrees, functionTrees, memberGenerics, memberTrees,
      lookupParams, receiverTrees, referenceTrees, Artifact.inAngles, double, Name.spelling, arrow]

theorem getMethod_trees (runtime : Path) (mutable : Bool) (summary : String) :
    getMethod runtime.spelling (if mutable then "get_mut" else "get") summary
      (if mutable then "& mut" else "&") = lookupTrees runtime mutable summary true := by
  rw [lookupTrees_code]
  cases mutable <;> simp [getMethod]

theorem readT : TypeReads r [.leaf (.word false "T")] [.leaf (.word false "T")] (.path true) :=
  typeReads_name (by decide)

theorem takes_getMethod (hruntime : runtime.Plain) (mutable : Bool) (summary : String)
    (joint : Bool) :
    Takes (implMember (Rules.upTo (n + 4))) (lookupTrees runtime mutable summary joint)
      (lookupTrees runtime mutable summary false) where
  nonempty := by simp [lookupTrees, methodTrees, functionTrees]
  read rest := by
    obtain ⟨form, hresult⟩ :=
      typeReads_option (typeReads_reference (n := n + 1) readT none mutable)
    have hargument : ArgumentReads (Rules.upTo (n + 2)) [.leaf (.word false "T")] _ :=
      argumentReads_type readT
    have hname : (if mutable then "get_mut" else "get") ∉ keywords := by
      cases mutable <;> decide
    have hcall : trailers (Rules.upTo (n + 2)) (plain (code "self . inner")) (_ :: _ ::
        (double ++ _ :: ([.leaf (.word false "T")] ++ _ :: _ :: []))) = _ :=
      trailers_turbofish hname hargument
        (expressions_name (n := n + 1) (show (⟨false, "name"⟩ : Name).InPath by decide))
        (trailers_end endsExpr_nil _)
    have hblock := statements_onSelf (trailers_inner hcall)
    have hident : IsIdent ⟨false, if mutable then "get_mut" else "get"⟩ := .inr hname
    have hread := implMember_function hident
      (fun rest => generics_member hruntime joint (.group .paren (lookupParams mutable) :: rest))
      (functionParameters_lookup mutable) hresult (startsInner_of_op (by simp)) hblock
      (some (docLiteral summary)) true rest
    simpa [lookupTrees, Reader.inAngles, Artifact.inAngles] using hread

/-- The documentation of a typed getter. -/
def getterDoc (e : Entry) : String :=
  String.ofList (Text.literal (" Returns the `" ++ e.name ++ "` registered under `name`.").toList)

theorem getter_trees {accessor : Name} (haccessor : e.accessor = some accessor) : getter e =
    methodTrees (some (getterDoc e)) true (functionTrees accessor [] (lookupParams false)
      (option (referenceTrees none false e.type.spelling))
      (.leaf (.word false "self") :: .leaf (.mark '.' false) :: .leaf (.word false "get") ::
        (double ++ .leaf (.mark '<' false) :: (e.type.spelling ++ .leaf (.mark '>' false) ::
          [.group .paren [.leaf (.word false "name")]])))) := by
  rw [getter, haccessor]
  simp [attributed, quoted, getterDoc, selfAndName, methodTrees, functionTrees, outerSpelling_doc,
    lookupParams, receiverTrees, referenceTrees, Artifact.inAngles, double, Name.spelling, arrow]

theorem takes_getter (h : EntryOk e) {accessor : Name} (haccessor : e.accessor = some accessor) :
    Takes (implMember (Rules.upTo (n + 3))) (getter e) (getter e) := by
  have htype : ∀ r, TypeReads r e.type.spelling e.type.spelling _ := fun r => typeReads_plain h.type
  obtain ⟨form, hresult⟩ := typeReads_option
    (typeReads_reference (htype (Rules.upTo n)) none false)
  have hcall : trailers (Rules.upTo (n + 1)) (plain [.leaf (.word false "self")]) (_ :: _ ::
      (double ++ _ :: (e.type.spelling ++ _ :: _ :: []))) = _ :=
    trailers_turbofish (show "get" ∉ keywords by decide)
      (argumentReads_type (htype (Rules.upTo n)))
      (expressions_name (n := n) (show (⟨false, "name"⟩ : Name).InPath by decide))
      (trailers_end endsExpr_nil _)
  have hblock := statements_onSelf hcall
  rw [getter_trees haccessor]
  have hread := takes_function (h.accessor accessor haccessor) (functionParameters_lookup false) hresult
    (startsInner_of_op (by simp)) hblock (some (getterDoc e)) true
  simpa [Reader.inAngles] using hread

/-- The methods of a registry. Where two angle brackets end together, the first of them is joint to
the second in the generated code, but not in what it is read as. -/
def methodPieces (runtime : Path) (entries : List Entry) (joint : Bool) : List (List Tree) :=
  [newMethod runtime.spelling, registerMethod,
    lookupTrees runtime false " Returns the component registered under `name` if it is a `T`." joint,
    lookupTrees runtime true " Mutable counterpart of `get`." joint,
    plainMethod "len" (code "usize"), plainMethod "is_empty" (code "bool"),
    doc " Lists every registration in insertion order with its component type." ++
      plainMethod "list_all" (listingTrees runtime joint)] ++
    (entries.filter (·.accessor.isSome)).map getter

/-- The implementation with the methods of a registry. -/
def methodsTrees (runtime : Path) (entries : List Entry) (joint : Bool) : List Tree :=
  .leaf (.word false "impl") :: ([.leaf (.word false "ComponentRegistry")] ++
    [.group .brace (methodPieces runtime entries joint).flatten])

theorem flatMap_getter (entries : List Entry) :
    entries.flatMap getter = ((entries.filter (·.accessor.isSome)).map getter).flatten := by
  induction entries with
  | nil => rfl
  | cons e entries ih =>
    cases h : e.accessor with
    | none => simp [getter, h, ih]
    | some accessor => simp [h, ih]

theorem registryMethods_trees (runtime : Path) (entries : List Entry) :
    registryMethods runtime.spelling entries = methodsTrees runtime entries true := by
  have hget := getMethod_trees runtime false
    " Returns the component registered under `name` if it is a `T`."
  have hmut := getMethod_trees runtime true " Mutable counterpart of `get`."
  simp only [Bool.false_eq_true, if_true, if_false] at hget hmut
  simp [registryMethods, methodsTrees, methodPieces, hget, hmut, flatMap_getter, listing_trees]

theorem takes_getters (hentries : ∀ e ∈ entries, EntryOk e) :
    List.Forall₂ (Takes (implMember (Rules.upTo (n + 3))))
      ((entries.filter (·.accessor.isSome)).map getter)
      ((entries.filter (·.accessor.isSome)).map getter) := by
  rw [List.forall₂_map_left_iff, List.forall₂_map_right_iff, List.forall₂_same]
  intro e he
  obtain ⟨he, hsome⟩ := List.mem_filter.mp he
  obtain ⟨accessor, haccessor⟩ := Option.isSome_iff_exists.mp hsome
  exact takes_getter (hentries e he) haccessor

theorem takes_methodPieces (hruntime : runtime.Plain) (hentries : ∀ e ∈ entries, EntryOk e)
    (joint : Bool) : List.Forall₂ (Takes (implMember (Rules.upTo (n + 4))))
      (methodPieces runtime entries joint) (methodPieces runtime entries false) := by
  have husize : TypeReads (Rules.upTo (n + 3)) (code "usize") (code "usize") (.path true) := by
    have hname : (⟨false, "usize"⟩ : Name).InPath := by decide
    simpa using typeReads_name hname
  have hbool : TypeReads (Rules.upTo (n + 3)) (code "bool") (code "bool") (.path true) := by
    have hname : (⟨false, "bool"⟩ : Name).InPath := by decide
    simpa using typeReads_name hname
  obtain ⟨_, hlisting⟩ := typeReads_listing (n := n + 2) hruntime joint
  refine .cons (takes_newMethod hruntime) (.cons takes_registerMethod
    (.cons (takes_getMethod hruntime false _ joint) (.cons (takes_getMethod hruntime true _ joint)
      (.cons (takes_plainMethod (by simp) (by decide) husize none)
        (.cons (takes_plainMethod (by simp) (by decide) hbool none)
          (.cons ?_ (takes_getters (n := n + 1) hentries)))))))
  rw [doc_trees]
  exact takes_plainMethod (by simp) (by decide) hlisting _

theorem takes_methodsTrees (hruntime : runtime.Plain) (hentries : ∀ e ∈ entries, EntryOk e)
    (joint : Bool) : Takes (item (Rules.upTo (n + 4))) (methodsTrees runtime entries joint)
      (.other (methodsTrees runtime entries false)) := by
  have hname : (⟨false, "ComponentRegistry"⟩ : Name).InPath := by decide
  have htarget : TypeReads (Rules.upTo (n + 3)) [.leaf (.word false "ComponentRegistry")] _ _ :=
    typeReads_name hname
  have hinner : startsInner (methodPieces runtime entries joint).flatten = false := by
    simp only [methodPieces, List.cons_append, List.flatten_cons]
    rw [newMethod_trees hruntime]
    exact startsInner_method _
  exact takes_inherentImpl htarget (fun rest => .inl ⟨_, hname, rest, rfl⟩) hinner
    (many_takes (takes_methodPieces hruntime hentries joint))

theorem registryStruct_trees (runtime : Path) : registryStruct runtime.spelling =
    declarationTrees (some (docLiteral " Name-keyed registry over the discovered component types."))
      "struct" "ComponentRegistry" (.leaf (.word false "inner") :: .leaf (.mark ':' false) ::
        memberTrees runtime "Registry" [.leaf (.word false "AnyComponent")] false ++
          [.leaf (.mark ',' false)]) := by
  simp [registryStruct, doc_trees, declarationTrees, memberTrees, double]

theorem takes_registryStruct (hruntime : runtime.Plain) :
    Takes (item (Rules.upTo (n + 2))) (registryStruct runtime.spelling)
      (.declaration
        [docAttribute (docLiteral " Name-keyed registry over the discovered component types.")]
        .struct ⟨false, "ComponentRegistry"⟩ false (registryStruct runtime.spelling)) := by
  have hargument : ArgumentReads (Rules.upTo (n + 1)) [.leaf (.word false "AnyComponent")] _ :=
    argumentReads_type readComponent
  obtain ⟨lone, hregistry⟩ := typeReads_member hruntime (show "Registry" ∉ keywords by decide)
    hargument false
  have hfield : ∀ rest, namedField (Rules.upTo (n + 2)) (.leaf (.word false "inner") ::
      .leaf (.mark ':' false) :: (memberTrees runtime "Registry"
        [.leaf (.word false "AnyComponent")] false ++ .leaf (.mark ',' false) :: rest)) = _ :=
    fun rest => namedField_typed (by decide) hregistry (endsPath_mark (by decide) false rest)
  have hfields : commaList (namedField (Rules.upTo (n + 2))) ([()].flatMap fun _ =>
      (.leaf (.word false "inner") :: .leaf (.mark ':' false) :: memberTrees runtime "Registry"
        [.leaf (.word false "AnyComponent")] false) ++ [.leaf (.mark ',' false)]) = _ :=
    commaList_takes fun _ _ => ⟨by simp, hfield⟩
  rw [List.flatMap_singleton] at hfields
  rw [registryStruct_trees]
  exact takes_structure (by decide) hfields (some _)

end ComponentRegistry.Artifact
