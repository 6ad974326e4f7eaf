import ComponentRegistry.Proofs.Grammar.Match

/-! Implementations, enumerations and structures as items. -/

namespace ComponentRegistry.Grammar

open Path

namespace Reader

variable {r : Rules} {trees rest : List Tree} {text targetText : Spelling} {form : TypeForm}

/-- What an implementation starts with is neither a parameter nor a mark before it. -/
theorem implementation_starts {trees : List Tree} (hstarts : StartsPath trees) :
    Look.generics trees = false ∧ Look.word "const" trees = false ∧ Look.op "?" trees = false ∧
      Look.op "!" trees = false := by
  simp [Look.generics, hstarts.op (show "<".toList.head?.any (· != ':') = true by decide),
    hstarts.op (show "?".toList.head?.any (· != ':') = true by decide),
    hstarts.op (show "!".toList.head?.any (· != ':') = true by decide),
    hstarts.word (show startsNoPath "const" = true by decide)]

theorem item_impl (h : implementation r
    (.leaf (.word false "impl") :: trees) = .ok ((text, true), rest)) :
    item r (.leaf (.word false "impl") :: trees) = .ok (.other text, rest) := by
  simp [↓item, ↓outerAttributes, ↓collect, ↓visibility, Look.signature, Look.dropWord, ↓implItem, h,
    ↓spelled, outerSpelling]

/-- The implementation of a trait is an item. -/
theorem takes_traitImpl {n : Nat} {lone : Bool} {trait target members : List Tree}
    {texts : Spelling} (htrait : TypeReads (Rules.upTo n) trait text (.path lone))
    (hstarts : ∀ rest, StartsPath (trait ++ rest))
    (htarget : TypeReads (Rules.upTo n) target targetText form)
    (hinner : startsInner members = false)
    (hmembers : many Look.nothing (implMember (Rules.upTo (n + 1))) members = .ok (texts, [])) :
    Takes (item (Rules.upTo (n + 1)))
      (.leaf (.word false "impl") ::
        (trait ++ .leaf (.word false "for") :: (target ++ [.group .brace members])))
      (.other (.leaf (.word false "impl") :: (text ++
        .leaf (.word false "for") :: (targetText ++ [.group .brace texts])))) where
  nonempty := by simp
  read rest := by
    have hread : (Rules.upTo (n + 1)).type true (trait ++
        .leaf (.word false "for") :: (target ++ .group .brace members :: rest)) = _ :=
      htrait.read true (endsPath_word ..)
    have htype := typeText_upTo htarget (endsPath_group .brace members rest)
    have hbody : body (Rules.upTo (n + 1)) _ (.group .brace members :: rest) = _ :=
      body_plain hinner hmembers rest
    have hhead := implementation_starts (hstarts
      (.leaf (.word false "for") :: (target ++ .group .brace members :: rest)))
    have himpl : implementation (Rules.upTo (n + 1)) (.leaf (.word false "impl") :: (trait ++
          .leaf (.word false "for") :: (target ++ .group .brace members :: rest))) =
        .ok ((.leaf (.word false "impl") :: (text ++
          .leaf (.word false "for") :: (targetText ++ [.group .brace texts])), true), rest) := by
      simp [↓implementation, ↓Reader.optional, ↓optWord, hhead, hread, htype, hbody, ↓whereText,
        ↓whereClause]
    simpa using item_impl himpl

/-- An implementation of a type alone is an item. -/
theorem takes_inherentImpl {n : Nat} {lone : Bool} {target members : List Tree} {texts : Spelling}
    (htarget : TypeReads (Rules.upTo n) target text (.path lone))
    (hstarts : ∀ rest, StartsPath (target ++ rest)) (hinner : startsInner members = false)
    (hmembers : many Look.nothing (implMember (Rules.upTo (n + 1))) members = .ok (texts, [])) :
    Takes (item (Rules.upTo (n + 1)))
      (.leaf (.word false "impl") :: (target ++ [.group .brace members]))
      (.other (.leaf (.word false "impl") :: (text ++ [.group .brace texts]))) where
  nonempty := by simp
  read rest := by
    have hread : (Rules.upTo (n + 1)).type true (target ++ .group .brace members :: rest) = _ :=
      htarget.read true (endsPath_group ..)
    have hbody : body (Rules.upTo (n + 1)) _ (.group .brace members :: rest) = _ :=
      body_plain hinner hmembers rest
    have hhead := implementation_starts (hstarts (.group .brace members :: rest))
    have himpl : implementation (Rules.upTo (n + 1))
          (.leaf (.word false "impl") :: (target ++ .group .brace members :: rest)) =
        .ok ((.leaf (.word false "impl") :: (text ++ [.group .brace texts]), true), rest) := by
      simp [↓implementation, ↓Reader.optional, ↓optWord, hhead, hread, hbody, ↓whereText,
        ↓whereClause]
    simpa using item_impl himpl

/-- A public type in braces with a documentation. -/
def declarationTrees (docs : Option String) (keyword name : String) (inner : List Tree) : List Tree :=
  outerSpelling (docs.map docAttribute).toList ++ [.leaf (.word false "pub"),
    .leaf (.word false keyword), .leaf (.word false name), .group .brace inner]

theorem takes_enumeration {name : String} (hname : name ∉ keywords) {inner : List Tree}
    {texts : Spelling} (hinner : commaList (variant r) inner = .ok (texts, []))
    (docs : Option String) : Takes (item r) (declarationTrees docs "enum" name inner)
      (.declaration (docs.map docAttribute).toList .enumeration ⟨false, name⟩ false
        (declarationTrees docs "enum" name texts)) := by
  refine ⟨by simp [declarationTrees], fun rest => ?_⟩
  have hdocs := fun middle => @outerAttributes_doc r middle docs
  simp [↓item, declarationTrees, hdocs, ↓visibility, Look.signature, Look.dropWord, ↓declaration,
    ↓anyIdent, ↓generics, ↓whereText, ↓whereClause, ↓enclosed, Name.spelling, hname, hinner]

theorem takes_structure {name : String} (hname : name ∉ keywords) {inner : List Tree}
    {texts : Spelling} (hinner : commaList (namedField r) inner = .ok (texts, []))
    (docs : Option String) : Takes (item r) (declarationTrees docs "struct" name inner)
      (.declaration (docs.map docAttribute).toList .struct ⟨false, name⟩ false
        (declarationTrees docs "struct" name texts)) := by
  refine ⟨by simp [declarationTrees], fun rest => ?_⟩
  have hdocs := fun middle => @outerAttributes_doc r middle docs
  simp [↓item, declarationTrees, hdocs, ↓visibility, Look.signature, Look.dropWord, ↓declaration,
    ↓anyIdent, ↓generics, ↓structBody, ↓whereClause, ↓namedFields, ↓enclosed, Name.spelling,
    groupChoice, hname, hinner]

theorem unnamedFields_plain {n : Nat} {p : Path} (hp : p.Plain) (rest : List Tree) :
    unnamedFields (Rules.upTo (n + 1)) (.group .paren p.spelling :: rest) =
      .ok ([.group .paren p.spelling], rest) := by
  have htype := typeText_upTo (@typeReads_plain (Rules.upTo n) p hp) endsPath_nil
  have hstarts := hp.startsPath []
  rw [List.append_nil] at htype hstarts
  have hlist : commaList (cat [outer (Rules.upTo (n + 1)), visibility,
      (Rules.upTo (n + 1)).typeText]) p.spelling = .ok (p.spelling, []) := by
    refine commaList_one hstarts.ne_nil ?_
    simp [↓visibility, htype,
      hstarts.word (show startsNoPath "pub" = true by decide),
      hstarts.op (show "#".toList.head?.any (· != ':') = true by decide)]
  simp [↓unnamedFields, ↓enclosed, hlist]

/-- A variant that holds one type. -/
theorem variant_tuple {n : Nat} {name : Name} (hname : IsIdent name) {p : Path} (hp : p.Plain)
    (joint : Bool) (rest : List Tree) :
    variant (Rules.upTo (n + 1))
        (name.spelling ++ .group .paren p.spelling :: .leaf (.mark ',' joint) :: rest) =
      .ok (name.spelling ++ [.group .paren p.spelling], .leaf (.mark ',' joint) :: rest) := by
  have hfields := @unnamedFields_plain n p hp (.leaf (.mark ',' joint) :: rest)
  have hread : ident (name.spelling ++ .group .paren p.spelling :: .leaf (.mark ',' joint) :: rest) =
      .ok (name.spelling, .group .paren p.spelling :: .leaf (.mark ',' joint) :: rest) := by
    have hident : name.raw = true ∨ name.text ∉ keywords := hname
    simp [↓ident, Name.spelling, hident]
  have hpub : Look.word "pub" (name.spelling ++
      .group .paren p.spelling :: .leaf (.mark ',' joint) :: rest) = false :=
    StartsPath.word (.inl ⟨name, hname.inPath, _, rfl⟩) (by decide)
  have hsharp : Look.op "#" (name.spelling ++
      .group .paren p.spelling :: .leaf (.mark ',' joint) :: rest) = false := by
    simp [Name.spelling]
  simp [↓variant, ↓visibility, hsharp, hpub, hread,
    ↓Reader.optional, hfields, marks?]

/-- A field with its type. -/
theorem namedField_typed {n : Nat} {name : String} (hname : name ∉ keywords) {trees : List Tree}
    (h : TypeReads (Rules.upTo n) trees text form) (hrest : EndsPath rest) :
    namedField (Rules.upTo (n + 1))
        (.leaf (.word false name) :: .leaf (.mark ':' false) :: (trees ++ rest)) =
      .ok (.leaf (.word false name) :: .leaf (.mark ':' false) :: text, rest) := by
  have htype := typeText_upTo h hrest
  have hpub : name ≠ "pub" := by
    rintro rfl
    exact hname (by decide)
  have hunderscore : name ≠ "_" := by
    rintro rfl
    exact hname (by decide)
  simp [↓namedField, ↓visibility, ↓ident,
    Name.spelling, marks?, hname, hpub, hunderscore, htype]

/-- A field with its value. -/
theorem fieldValue_named {field : String} (hfield : field ∉ keywords) {value : List Tree}
    (hvalue : r.exprText value = .ok (text, rest)) :
    fieldValue r (.leaf (.word false field) :: .leaf (.mark ':' false) :: value) =
      .ok (.leaf (.word false field) :: .leaf (.mark ':' false) :: text, rest) := by
  simp [↓fieldValue, ↓member, ↓ident,
    Name.spelling, marks?, hfield, hvalue]

/-- A structure in braces with one field and a comma behind it. -/
theorem pathExpr_structure {p : Path} (hp : p.Plain) {field : String} {joint : Bool}
    (hvalue : fieldValue r (.leaf (.word false field) :: trees) =
      .ok (text, [.leaf (.mark ',' joint)])) :
    pathExpr r true (p.spelling ++ [.group .brace (.leaf (.word false field) :: trees)]) =
      .ok (plain (p.spelling ++ [.group .brace (text ++ [.leaf (.mark ',' false)])]), []) := by
  have hpath : path r true (p.spelling ++ [.group .brace (.leaf (.word false field) :: trees)]) = _ :=
    path_plain hp (endsPath_group ..)
  have hangle := (hp.startsPath [.group .brace (.leaf (.word false field) :: trees)]).op
    (show "<".toList.head?.any (· != ':') = true by decide)
  have hfields : structFields r [.group .brace (.leaf (.word false field) :: trees)] =
      .ok ([.group .brace (text ++ [.leaf (.mark ',' false)])], []) := by
    simp [↓structFields, ↓enclosed, hvalue, marks?]
  simp [↓pathExpr, ↓anyPath, hangle, hpath, plain, hfields]

end Reader

end ComponentRegistry.Grammar
