import ComponentRegistry.Proofs.Grammar.Items
import ComponentRegistry.Generation.Artifact

/-! The items of a registry are read as such. -/

namespace ComponentRegistry.Artifact

open Grammar Reader Path

attribute [local simp] code piece List.splitOn List.splitOnP List.splitOnPPrepend parens braces
  brackets

variable {n : Nat} {e : Entry} {entries : List Entry} {runtime : Path}

/-- The names of an entry are identifiers, and its type is a path of names. -/
structure EntryOk (e : Entry) : Prop where
  variant : IsIdent e.variant
  type : e.type.Plain
  accessor : ∀ accessor, e.accessor = some accessor → IsIdent accessor

theorem readSelf : TypeReads r [.leaf (.word false "Self")] [.leaf (.word false "Self")] (.path true) :=
  typeReads_name (by decide)

theorem readComponent : TypeReads r [.leaf (.word false "AnyComponent")]
    [.leaf (.word false "AnyComponent")] (.path true) := typeReads_name (by decide)

theorem conversion_trees (e : Entry) : conversion e =
    .leaf (.word false "impl") ::
      (arguedTrees true [⟨false, "core"⟩, ⟨false, "convert"⟩] ⟨false, "From"⟩ e.type.spelling false ++
        .leaf (.word false "for") :: ([.leaf (.word false "AnyComponent")] ++ [.group .brace
          (methodTrees none false (functionTrees ⟨false, "from"⟩ []
            (.leaf (.word false "component") :: .leaf (.mark ':' false) :: e.type.spelling)
            [.leaf (.word false "Self")]
            ((variantPath ⟨false, "Self"⟩ e.variant).spelling ++
              [.group .paren [.leaf (.word false "component")]])))])) := by
  simp [conversion, arguedTrees, methodTrees, functionTrees, spelling_variantPath, front, double,
    Name.spelling, Artifact.inAngles, arrow, outerSpelling]

/-- A block that calls what a name in the type itself stands for. -/
theorem statements_variant {inner arguments : List Tree}
    (hinner : expressions (Rules.upTo (n + 2)) inner = .ok (arguments, [])) {variant : Name}
    (hvariant : IsIdent variant) : (Rules.upTo (n + 4)).statements
        ((variantPath ⟨false, "Self"⟩ variant).spelling ++ [.group .paren inner]) =
      .ok ((variantPath ⟨false, "Self"⟩ variant).spelling ++ [.group .paren arguments], []) := by
  have hp : (variantPath ⟨false, "Self"⟩ variant).Plain :=
    plain_variantPath (by decide) hvariant.inPath
  have hcall := @operand_call (Rules.upTo (n + 2)) [] _ true hp _ _ hinner endsExpr_nil
  have hbang : Look.afterNamePath (Look.op "!") ((variantPath ⟨false, "Self"⟩ variant).spelling ++
      [.group .paren inner]) = false := by
    rw [afterNamePath_variant hvariant (by simp)]
    simp
  rw [spelling_variantPath] at hcall hbang ⊢
  exact statements_self (.inr rfl) hbang hcall

theorem takes_conversion (h : EntryOk e) :
    Takes (item (Rules.upTo (n + 4))) (conversion e) (.other (conversion e)) := by
  have htype : ∀ r, TypeReads r e.type.spelling e.type.spelling _ := fun r => typeReads_plain h.type
  have hbody : (Rules.upTo (n + 4)).statements ((variantPath ⟨false, "Self"⟩ e.variant).spelling ++
      [.group .paren [.leaf (.word false "component")]]) = _ :=
    statements_variant (expressions_name (by decide)) h.variant
  have hmember := takes_function (show IsIdent ⟨false, "from"⟩ by decide)
    (functionParameters_typed (show "component" ∉ keywords by decide) (htype (Rules.upTo (n + 3))))
    readSelf (startsInner_of_op (by simp [spelling_variantPath])) hbody none false
  have hnames : ∀ n ∈ [(⟨false, "core"⟩ : Name), ⟨false, "convert"⟩], n.InPath := by decide
  have hname : IsIdent ⟨false, "From"⟩ := by decide
  have hargument : ArgumentReads (Rules.upTo (n + 3)) e.type.spelling e.type.spelling :=
    argumentReads_type (htype (Rules.upTo (n + 2)))
  rw [conversion_trees]
  exact takes_traitImpl (typeReads_argued hnames hname hargument)
    (startsPath_arguedTrees hnames hname) readComponent startsInner_function (many_one hmember)

/-- A path from the root of all crates on. -/
def absolutePath (names : List String) : Path :=
  ⟨true, names.map fun name => bareSegment ⟨false, name⟩⟩

theorem plain_absolutePath {names : List String} (hne : names ≠ [])
    (hnames : ∀ name ∈ names, (⟨false, name⟩ : Name).InPath) : (absolutePath names).Plain where
  nonempty := by simpa [absolutePath] using hne
  bare s hs := by
    obtain ⟨name, hname, rfl⟩ := List.mem_map.mp hs
    exact ⟨hnames name hname, rfl⟩

theorem defaultImpl_trees : defaultImpl =
    .leaf (.word false "impl") :: ((absolutePath ["core", "default", "Default"]).spelling ++
      .leaf (.word false "for") :: ([.leaf (.word false "ComponentRegistry")] ++ [.group .brace
        (methodTrees none false (functionTrees ⟨false, "default"⟩ [] []
          [.leaf (.word false "Self")]
          ((variantPath ⟨false, "Self"⟩ ⟨false, "new"⟩).spelling ++ [.group .paren []])))])) := by
  simp [defaultImpl, absolutePath, variantPath, Path.spelling, segmentSpelling, bareSegment,
    interleave, methodTrees, functionTrees, Name.spelling, arrow, outerSpelling]

theorem takes_defaultImpl : Takes (item (Rules.upTo (n + 4))) defaultImpl (.other defaultImpl) := by
  have htrait : (absolutePath ["core", "default", "Default"]).Plain :=
    plain_absolutePath (by simp) (by decide)
  have hbody : (Rules.upTo (n + 4)).statements
      ((variantPath ⟨false, "Self"⟩ ⟨false, "new"⟩).spelling ++ [.group .paren []]) = _ :=
    statements_variant expressions_nil (by decide)
  have hmember := takes_function (show IsIdent ⟨false, "default"⟩ by decide)
    functionParameters_nil readSelf (startsInner_of_op (by simp [spelling_variantPath])) hbody none
    false
  rw [defaultImpl_trees]
  exact takes_traitImpl (typeReads_plain htrait) htrait.startsPath
    (typeReads_name (by decide)) startsInner_function (many_one hmember)

theorem componentSet_trees (hruntime : runtime.Plain) (entries : List Entry) :
    componentSet runtime.spelling entries =
      .leaf (.word false "impl") :: ((runtime.push ⟨false, "ComponentSet"⟩).spelling ++
        .leaf (.word false "for") :: ([.leaf (.word false "AnyComponent")] ++ [.group .brace
          (methodTrees none false (functionTrees ⟨false, "type_name"⟩ [] (receiverTrees false)
            (referenceTrees (some "static") false [.leaf (.word false "str")])
            [.leaf (.word false "match"), .leaf (.word false "self"),
              .group .brace (entries.flatMap typeNameArm)]))])) := by
  rw [spelling_push hruntime]
  simp [componentSet, methodTrees, functionTrees, double, Name.spelling, arrow, outerSpelling,
    receiverTrees, referenceTrees]

theorem typeNameArm_trees (e : Entry) : typeNameArm e =
    (variantPath ⟨false, "Self"⟩ e.variant).spelling ++ .group .paren [.leaf (.word false "_")] ::
      (fatArrow ++ quoted e.name ++ [.leaf (.mark ',' false)]) := by
  rw [spelling_variantPath]
  simp [typeNameArm, double, fatArrow]

theorem startsPath_typeNameArm (e : Entry) (rest : List Tree) :
    StartsPath (typeNameArm e ++ rest) := by
  rw [typeNameArm_trees, spelling_variantPath]
  exact .inl ⟨⟨false, "Self"⟩, by decide, _, rfl⟩

theorem takes_typeNameArm (h : EntryOk e) :
    Takes (matchArm (Rules.upTo (n + 2))) (typeNameArm e) (typeNameArm e) where
  nonempty := by simp [typeNameArm_trees]
  read rest := by
    have hsharp := (startsPath_typeNameArm e rest).op
      (show "#".toList.head?.any (· != ':') = true by decide)
    have hpattern := @patterns_variant (fatArrow ++ (quoted e.name ++ .leaf (.mark ',' false) :: rest))
      n ⟨false, "Self"⟩ e.variant (by decide) h.variant.inPath "_" (.inl rfl)
      (by simp [fatArrow, marks?])
    have hvalue : (Rules.upTo (n + 2)).arm (quoted e.name ++ .leaf (.mark ',' false) :: rest) = _ :=
      leadingExpr_literal (endsExpr_comma false rest)
    rw [typeNameArm_trees] at hsharp ⊢
    simp only [List.append_assoc, List.cons_append, List.nil_append] at hsharp ⊢
    have harm := matchArm_comma (outer_nil hsharp) hpattern hvalue
    simpa [quoted] using harm

theorem noSharp_flatMap {ε : Type} {entries : List ε} {spelling : ε → Spelling}
    (h : ∀ e rest, StartsPath (spelling e ++ rest)) :
    Look.op "#" (entries.flatMap spelling) = false := by
  cases entries with
  | nil => simp
  | cons e entries => exact (h e _).op (by decide)

theorem takes_componentSet (hruntime : runtime.Plain) (hentries : ∀ e ∈ entries, EntryOk e) :
    Takes (item (Rules.upTo (n + 4))) (componentSet runtime.spelling entries)
      (.other (componentSet runtime.spelling entries)) := by
  have htrait := hruntime.push (show (⟨false, "ComponentSet"⟩ : Name).InPath by decide)
  have harms : many Look.nothing (matchArm (Rules.upTo (n + 3))) (entries.flatMap typeNameArm) =
      .ok (entries.flatMap typeNameArm, []) :=
    many_flatMap fun e he => takes_typeNameArm (hentries e he)
  have hbody : (Rules.upTo (n + 4)).statements [.leaf (.word false "match"),
      .leaf (.word false "self"), .group .brace (entries.flatMap typeNameArm)] =
      .ok ([.leaf (.word false "match"), .leaf (.word false "self"),
        .group .brace (entries.flatMap typeNameArm)], []) :=
    @statements_match _ (n + 2) "self" (by decide) _ 
      (startsInner_of_op (noSharp_flatMap startsPath_typeNameArm)) harms
  have hstr : TypeReads (Rules.upTo (n + 2)) [.leaf (.word false "str")] _ _ :=
    typeReads_name (by decide)
  have hmember := takes_function (show IsIdent ⟨false, "type_name"⟩ by decide)
    (functionParameters_receiver false) (typeReads_reference hstr (some "static") false)
    (startsInner_of_op (by simp)) hbody none false
  rw [componentSet_trees hruntime]
  exact takes_traitImpl (typeReads_plain htrait) htrait.startsPath
    (typeReads_name (by decide)) startsInner_function (many_one hmember)

/-- The arm of a projection for a value of the type. -/
def someArm (e : Entry) : Spelling :=
  (variantPath ⟨false, "AnyComponent"⟩ e.variant).spelling ++
    .group .paren [.leaf (.word false "inner")] :: (fatArrow ++
      ((absolutePath ["core", "option", "Option", "Some"]).spelling ++
        [.group .paren [.leaf (.word false "inner")], .leaf (.mark ',' false)]))

/-- The arm of a projection for any other value; with one type only it is never taken. -/
def noneArm : Spelling :=
  [.leaf (.mark '#' false), .group .bracket [.leaf (.word false "allow"),
    .group .paren [.leaf (.word false "unreachable_patterns")]]] ++ .leaf (.word false "_") ::
      (fatArrow ++ ((absolutePath ["core", "option", "Option", "None"]).spelling ++
        [.leaf (.mark ',' false)]))

theorem takes_someArm (h : EntryOk e) :
    Takes (matchArm (Rules.upTo (n + 3))) (someArm e) (someArm e) where
  nonempty := by simp [someArm]
  read rest := by
    have hp : (absolutePath ["core", "option", "Option", "Some"]).Plain :=
      plain_absolutePath (by simp) (by decide)
    have hpattern := @patterns_variant (fatArrow ++
      ((absolutePath ["core", "option", "Option", "Some"]).spelling ++
        .group .paren [.leaf (.word false "inner")] :: .leaf (.mark ',' false) :: rest)) (n + 1)
      ⟨false, "AnyComponent"⟩ e.variant (by decide) h.variant.inPath "inner" (.inr (by decide))
      (by simp [fatArrow, marks?])
    have hcall := @operand_call (Rules.upTo (n + 1)) (.leaf (.mark ',' false) :: rest) _ true hp _ _
      (expressions_name (show (⟨false, "inner"⟩ : Name).InPath by decide)) (endsExpr_comma ..)
    have hvalue : (Rules.upTo (n + 3)).arm _ = _ :=
      leadingExpr_path (hp.startsPath _) hcall (endsExpr_comma ..)
    have hsharp : Look.op "#" (someArm e ++ rest) = false := by
      rw [someArm, spelling_variantPath]
      simp
    have hsplit : someArm e ++ rest = (variantPath ⟨false, "AnyComponent"⟩ e.variant).spelling ++
        .group .paren [.leaf (.word false "inner")] :: (fatArrow ++
          ((absolutePath ["core", "option", "Option", "Some"]).spelling ++
            .group .paren [.leaf (.word false "inner")] :: .leaf (.mark ',' false) :: rest)) := by
      simp [someArm]
    rw [hsplit] at hsharp ⊢
    have harm := matchArm_comma (outer_nil hsharp) hpattern hvalue
    simpa [someArm] using harm

theorem outer_allow (hrest : Look.op "#" rest = false) :
    outer r ([.leaf (.mark '#' false), .group .bracket [.leaf (.word false "allow"),
        .group .paren [.leaf (.word false "unreachable_patterns")]]] ++ rest) =
      .ok ([.leaf (.mark '#' false), .group .bracket [.leaf (.word false "allow"),
        .group .paren [.leaf (.word false "unreachable_patterns")]]], rest) := by
  have hinside : attributeInside r false [.leaf (.word false "allow"),
      .group .paren [.leaf (.word false "unreachable_patterns")]] =
        .ok (⟨false, ⟨false, [⟨false, "allow"⟩]⟩, .list .paren
          [.leaf (.word false "unreachable_patterns")]⟩, []) := by
    simp [↓attributeInside, ↓attributePath, ↓namePath, Look.pathName, ↓optOp, ↓Reader.optional,
      keywords]
  simp [↓outer, ↓outerAttributes, ↓collect, ↓outerAttribute, marks?, hinside, hrest, outerSpelling,
    Attribute.spelling, NamePath.spelling, interleave, Name.spelling, AttributeValue.spelling]

theorem takes_noneArm : Takes (matchArm (Rules.upTo (n + 3))) noneArm noneArm where
  nonempty := by simp [noneArm]
  read rest := by
    have hp : (absolutePath ["core", "option", "Option", "None"]).Plain :=
      plain_absolutePath (by simp) (by decide)
    have hpattern := @patterns_name (fatArrow ++
      ((absolutePath ["core", "option", "Option", "None"]).spelling ++
        .leaf (.mark ',' false) :: rest)) (n + 2) "_" (.inl rfl)
      (by simp [fatArrow, marks?]) (by simp [fatArrow, marks?]) (by simp [fatArrow, marks?])
    have hoperand : operand (Rules.upTo (n + 1)) true
        ((absolutePath ["core", "option", "Option", "None"]).spelling ++
          .leaf (.mark ',' false) :: rest) = _ :=
      operand_atom (hp.startsPath _) (atom_plain hp (by simp [marks?])
        (endsExpr_comma ..).toEndsPath (by simp)) (trailers_end (endsExpr_comma ..) _)
    have hvalue : (Rules.upTo (n + 3)).arm _ = _ :=
      leadingExpr_path (hp.startsPath _) hoperand (endsExpr_comma ..)
    have harm := matchArm_comma (outer_allow (by simp)) hpattern hvalue
    simpa [noneArm] using harm

theorem projection_trees (e : Entry) (mutable : Bool) :
    projection e (if mutable then "project_mut" else "project") (if mutable then "& mut" else "&") =
      methodTrees none false (functionTrees ⟨false, if mutable then "project_mut" else "project"⟩ []
        (.leaf (.word false "component") :: .leaf (.mark ':' false) ::
          referenceTrees none mutable [.leaf (.word false "AnyComponent")])
        (arguedTrees true [⟨false, "core"⟩, ⟨false, "option"⟩] ⟨false, "Option"⟩
          (referenceTrees none mutable [.leaf (.word false "Self")]) false)
        [.leaf (.word false "match"), .leaf (.word false "component"),
          .group .brace (someArm e ++ noneArm)]) := by
  cases mutable <;>
    simp [projection, option, Artifact.inAngles, attributed, methodTrees, functionTrees, outerSpelling,
      referenceTrees, arguedTrees, front, double, arrow, someArm, noneArm, variantPath,
      Name.spelling, fatArrow, absolutePath, Path.spelling, segmentSpelling, bareSegment, interleave]

theorem takes_projection (h : EntryOk e) (mutable : Bool) :
    Takes (implMember (Rules.upTo (n + 5)))
      (projection e (if mutable then "project_mut" else "project") (if mutable then "& mut" else "&"))
      (projection e (if mutable then "project_mut" else "project")
        (if mutable then "& mut" else "&")) := by
  have harms : many Look.nothing (matchArm (Rules.upTo (n + 4))) (someArm e ++ noneArm) =
      .ok (someArm e ++ noneArm, []) := by
    simpa using many_takes (.cons (takes_someArm (n := n + 1) h) (.cons takes_noneArm .nil))
  have hbody : (Rules.upTo (n + 5)).statements [.leaf (.word false "match"),
      .leaf (.word false "component"), .group .brace (someArm e ++ noneArm)] =
      .ok ([.leaf (.word false "match"), .leaf (.word false "component"),
        .group .brace (someArm e ++ noneArm)], []) :=
    @statements_match _ (n + 3) "component" (by decide) _
      (startsInner_of_op (by rw [someArm, spelling_variantPath]; simp)) harms
  have hparam : TypeReads (Rules.upTo (n + 4)) (referenceTrees none mutable
      [.leaf (.word false "AnyComponent")]) _ _ := typeReads_reference readComponent none mutable
  have hself : TypeReads (Rules.upTo (n + 3)) (referenceTrees none mutable
      [.leaf (.word false "Self")]) _ _ := typeReads_reference readSelf none mutable
  have hnames : ∀ n ∈ [(⟨false, "core"⟩ : Name), ⟨false, "option"⟩], n.InPath := by decide
  have hresult : TypeReads (Rules.upTo (n + 4)) (arguedTrees true [⟨false, "core"⟩,
      ⟨false, "option"⟩] ⟨false, "Option"⟩ (referenceTrees none mutable
        [.leaf (.word false "Self")]) false) _ _ :=
    typeReads_argued hnames (by decide) (argumentReads_type hself)
  rw [projection_trees]
  exact takes_function (by cases mutable <;> decide)
    (functionParameters_typed (by decide) hparam) hresult (startsInner_of_op (by simp)) hbody none
    false

theorem membership_trees (runtime : Path) (e : Entry) : membership runtime.spelling e =
    .leaf (.word false "impl") :: (memberTrees runtime "Member" [.leaf (.word false "AnyComponent")]
      false ++ .leaf (.word false "for") :: (e.type.spelling ++
        [.group .brace (projection e (if false then "project_mut" else "project")
            (if false then "& mut" else "&") ++
          projection e (if true then "project_mut" else "project")
            (if true then "& mut" else "&"))])) := by
  simp [membership, memberTrees, double]

theorem takes_membership (hruntime : runtime.Plain) (h : EntryOk e) :
    Takes (item (Rules.upTo (n + 5))) (membership runtime.spelling e)
      (.other (membership runtime.spelling e)) := by
  have hargument : ArgumentReads (Rules.upTo (n + 4)) [.leaf (.word false "AnyComponent")] _ :=
    argumentReads_type readComponent
  obtain ⟨lone, htrait⟩ := typeReads_member hruntime (show "Member" ∉ keywords by decide) hargument
    false
  have hmembers : many Look.nothing (implMember (Rules.upTo (n + 5)))
      (projection e (if false then "project_mut" else "project") (if false then "& mut" else "&") ++
        projection e (if true then "project_mut" else "project") (if true then "& mut" else "&")) =
      .ok (projection e (if false then "project_mut" else "project")
        (if false then "& mut" else "&") ++
          projection e (if true then "project_mut" else "project")
            (if true then "& mut" else "&"), []) := by
    have hmany := many_takes (.cons (takes_projection (n := n) h false)
      (.cons (takes_projection (n := n) h true) .nil))
    rwa [List.flatten_cons, List.flatten_cons, List.flatten_nil, List.append_nil] at hmany
  rw [membership_trees]
  exact takes_traitImpl htrait (startsPath_memberTrees hruntime _ _ _) (typeReads_plain h.type)
    (by rw [projection_trees]; exact startsInner_method _) hmembers

/-- A text without quotes as the literal of a documentation. -/
def docLiteral (text : String) : String := "r\x22" ++ text ++ "\x22"

theorem doc_trees (text : String) :
    doc text = outerSpelling ((some (docLiteral text)).map docAttribute).toList := by
  simp [doc, attributed, rawQuoted, docLiteral, outerSpelling_doc]

/-- The documentation of the enumeration. -/
def enumerationDoc : String := docLiteral " Closed set of component types discovered at build time."

theorem enumeration_trees (entries : List Entry) : enumeration entries =
    declarationTrees (some enumerationDoc) "enum" "AnyComponent" (entries.flatMap variant) := by
  simp [enumeration, declarationTrees, doc_trees, enumerationDoc]

theorem takes_variants (hentries : ∀ e ∈ entries, EntryOk e) :
    commaList (Reader.variant (Rules.upTo (n + 1))) (entries.flatMap variant) =
      .ok (entries.flatMap variant, []) := by
  have hvariant : variant = fun e => (e.variant.spelling ++ [.group .paren e.type.spelling]) ++
      [.leaf (.mark ',' false)] := by
    funext e
    simp [variant]
  rw [hvariant]
  refine commaList_takes fun e he => ⟨by simp, fun rest => ?_⟩
  have hread := @variant_tuple n e.variant (hentries e he).variant e.type (hentries e he).type
    false rest
  simpa using hread

theorem takes_enum (hentries : ∀ e ∈ entries, EntryOk e) :
    Takes (item (Rules.upTo (n + 1))) (enumeration entries)
      (.declaration [docAttribute enumerationDoc] .enumeration ⟨false, "AnyComponent"⟩ false
        (enumeration entries)) := by
  rw [enumeration_trees]
  exact takes_enumeration (by decide) (takes_variants hentries) (some enumerationDoc)

end ComponentRegistry.Artifact
