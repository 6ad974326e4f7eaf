import ComponentRegistry.Proofs.Grammar.Function

/-! A choice between the variants of an enumeration. -/

namespace ComponentRegistry.Grammar

open Path

namespace Reader

variable {r : Rules} {trees rest middle : List Tree} {text : Spelling}

/-- A name or an underscore is a pattern. -/
theorem patterns_name {n : Nat} {name : String} (hname : name = "_" ∨ name ∉ keywords)
    (hnext : Look.any [Look.op "::", Look.op "!", Look.group .brace, Look.group .paren, Look.op ".."]
      rest = false) (hat : Look.op "@" rest = false) (hbar : Look.op "|" rest = false) :
    (Rules.upTo (n + 1)).patterns (.leaf (.word false name) :: rest) =
      .ok (⟨[.leaf (.word false name)], .plain⟩, rest) := by
  have hpattern : (Rules.upTo (n + 1)).pattern (.leaf (.word false name) :: rest) =
      .ok (⟨[.leaf (.word false name)], .plain⟩, rest) := by
    show pattern (Rules.upTo n) _ = _
    simp at hnext
    rcases hname with rfl | hname
    · simp [↓pattern, keywords, Name.spelling, ↓anyIdent]
    · have hother := hname
      simp [keywords] at hother
      simp [↓pattern, ↓identPattern, ↓ident, ↓Reader.optional, ↓optWord, Name.spelling, hname,
        hother, hnext, hat]
  simp [↓Rules.patterns, ↓optOp, ↓Reader.optional, hpattern, hbar]

/-- The path of a variant of an enumeration. -/
def variantPath (qualifier variant : Name) : Path :=
  ⟨false, [bareSegment qualifier, bareSegment variant]⟩

theorem plain_variantPath {qualifier variant : Name} (hqualifier : qualifier.InPath)
    (hvariant : variant.InPath) : (variantPath qualifier variant).Plain where
  nonempty := by simp [variantPath]
  bare s hs := by
    simp only [variantPath, List.mem_cons, List.not_mem_nil, or_false] at hs
    rcases hs with rfl | rfl
    · exact ⟨hqualifier, rfl⟩
    · exact ⟨hvariant, rfl⟩

theorem spelling_variantPath (qualifier variant : Name) :
    (variantPath qualifier variant).spelling =
      .leaf (.word qualifier.raw qualifier.text) :: (double ++ variant.spelling) :=
  (spelling_front false [qualifier] (bareSegment variant)).trans (by
    simp [front, segmentSpelling, bareSegment, Name.spelling])

theorem afterNamePath_self {name : String} (hname : name = "self" ∨ name = "Self") {look : Look}
    (hrest : Look.op "::" rest = false) :
    Look.afterNamePath look (.leaf (.word false name) :: rest) = look rest := by
  have hread : namePath (.leaf (.word false name) :: rest) = .ok (⟨false, [⟨false, name⟩]⟩, rest) := by
    rcases hname with rfl | rfl <;>
      simp [↓namePath, ↓optOp, ↓Reader.optional, Look.pathName, keywords, hrest]
  rw [Look.afterNamePath, hread]

theorem afterNamePath_variant {variant : Name} (hvariant : IsIdent variant) {look : Look}
    (hrest : Look.op "::" rest = false) :
    Look.afterNamePath look ((variantPath ⟨false, "Self"⟩ variant).spelling ++ rest) = look rest := by
  have hident : variant.raw = true ∨ variant.text ∉ keywords := hvariant
  have hread : namePath ((variantPath ⟨false, "Self"⟩ variant).spelling ++ rest) =
      .ok (⟨false, [⟨false, "Self"⟩, variant]⟩, rest) := by
    rw [spelling_variantPath]
    have hself : ∀ rest, Look.pathName (.leaf (.word false "Self") :: rest) = true := by
      simp [Look.pathName]
    have hname : Look.pathName (.leaf (.word variant.raw variant.text) :: rest) = true := by
      rcases hident with hident | hident <;> simp [Look.pathName, hident]
    simp [↓namePath, ↓optOp, ↓Reader.optional, double, Name.spelling, marks?, hself, hname, hrest]
  rw [Look.afterNamePath, hread]

/-- The look that tells a pattern that starts with a path. -/
def isPathPattern : Look := Look.any [
  Look.both Look.name (Look.second (Look.any [Look.op "::", Look.op "!", Look.group .brace,
    Look.group .paren, Look.op ".."])),
  Look.both (Look.word "self") (Look.second (Look.op "::")),
  Look.op "::", Look.op "<", Look.words ["Self", "super", "crate"]]

theorem isPathPattern_variant {qualifier : Name} (hqualifier : qualifier.InPath) (variant : Name)
    (rest : List Tree) :
    isPathPattern ((variantPath qualifier variant).spelling ++ rest) = true := by
  rw [spelling_variantPath]
  obtain ⟨raw, text⟩ := qualifier
  rcases hqualifier with h | h | h
  · simp_all [isPathPattern, double, marks?]
  · simp_all [isPathPattern, double, marks?]
  · simp only [pathKeywords, List.mem_cons, List.not_mem_nil, or_false] at h
    cases raw <;> rcases h with rfl | rfl | rfl | rfl <;> simp [isPathPattern, double, marks?]

/-- A variant with one name or underscore in parentheses is a pattern. -/
theorem patterns_variant {n : Nat} {qualifier variant : Name} (hqualifier : qualifier.InPath)
    (hvariant : variant.InPath) {name : String} (hname : name = "_" ∨ name ∉ keywords)
    (hbar : Look.op "|" rest = false) :
    (Rules.upTo (n + 2)).patterns ((variantPath qualifier variant).spelling ++
        .group .paren [.leaf (.word false name)] :: rest) =
      .ok (⟨(variantPath qualifier variant).spelling ++ [.group .paren [.leaf (.word false name)]],
        .plain⟩, rest) := by
  have hp := plain_variantPath hqualifier hvariant
  have hpath : path (Rules.upTo (n + 1)) true ((variantPath qualifier variant).spelling ++
      .group .paren [.leaf (.word false name)] :: rest) = _ := path_plain hp (endsPath_group ..)
  have hstarts := hp.startsPath (.group .paren [.leaf (.word false name)] :: rest)
  have hinner : patternList (Rules.upTo (n + 1)) [.leaf (.word false name)] =
      .ok ([.leaf (.word false name)], []) := by
    have hread : (Rules.upTo (n + 1)).patterns [.leaf (.word false name)] = _ :=
      patterns_name hname (by simp) (by simp) (by simp)
    exact commaList_one (by simp) (by simp [hread])
  have hpattern : (Rules.upTo (n + 2)).pattern ((variantPath qualifier variant).spelling ++
      .group .paren [.leaf (.word false name)] :: rest) =
      .ok (⟨(variantPath qualifier variant).spelling ++
        [.group .paren [.leaf (.word false name)]], .plain⟩, rest) := by
    have hisPath := isPathPattern_variant hqualifier variant
      (.group .paren [.leaf (.word false name)] :: rest)
    rw [isPathPattern] at hisPath
    have hread : pathPattern (Rules.upTo (n + 1)) ((variantPath qualifier variant).spelling ++
        .group .paren [.leaf (.word false name)] :: rest) =
        .ok (⟨(variantPath qualifier variant).spelling ++
          [.group .paren [.leaf (.word false name)]], .plain⟩, rest) := by
      simp [↓pathPattern, ↓anyPath, ↓enclosed, hpath, hinner,
        hstarts.op (show "<".toList.head?.any (· != ':') = true by decide)]
    show pattern (Rules.upTo (n + 1)) _ = _
    simp only [pattern, bind_apply, get_apply, peek_apply, ite_apply, hisPath, hread, if_true]
  have hnoBar := hstarts.op (show "|".toList.head?.any (· != ':') = true by decide)
  simp [↓Rules.patterns, ↓optOp, ↓Reader.optional, hpattern, hbar, hnoBar]

def fatArrow : Spelling := Tree.operator ['=', '>']

/-- An arm with a comma behind it. -/
theorem matchArm_comma {attributes pattern value : Spelling} {valueTrees : List Tree}
    {form : PatternForm} (hattributes : outer r trees = .ok (attributes, middle))
    (hpattern : r.patterns middle = .ok (⟨pattern, form⟩, fatArrow ++ valueTrees))
    (hvalue : r.arm valueTrees = .ok (plain value, .leaf (.mark ',' false) :: rest)) :
    matchArm r trees =
      .ok (attributes ++ pattern ++ fatArrow ++ value ++ [.leaf (.mark ',' false)], rest) := by
  simp only [plain, fatArrow] at hvalue hpattern ⊢
  simp [↓matchArm, hattributes, hpattern, hvalue, ↓Reader.optional, marks?]

/-- A block that is a choice by a name. -/
theorem statements_match {n : Nat} {name : String} (hname : (⟨false, name⟩ : Name).InPath)
    {arms : List Tree} (hinner : startsInner arms = false)
    (harms : many Look.nothing (matchArm (Rules.upTo (n + 1))) arms = .ok (text, [])) :
    statements (Rules.upTo (n + 1))
        [.leaf (.word false "match"), .leaf (.word false name), .group .brace arms] =
      .ok ([.leaf (.word false "match"), .leaf (.word false name), .group .brace text], []) := by
  have hcondition : (Rules.upTo (n + 1)).condition
      [.leaf (.word false name), .group .brace arms] =
        .ok ([.leaf (.word false name)], [.group .brace arms]) := by
    have hp := plain_name hname
    have hoperand : (Rules.upTo (n + 1)).operand false
        [.leaf (.word false name), .group .brace arms] =
          .ok (plain [.leaf (.word false name)], [.group .brace arms]) :=
      operand_atom (hp.startsPath [.group .brace arms])
        (atom_plain hp (by simp) (endsPath_group ..) (by simp))
        (trailers_end (endsExpr_brace ..) _)
    have hend : (Rules.upTo (n + 1)).operators false .jump (plain [.leaf (.word false name)])
        [.group .brace arms] = _ := operators_end (endsExpr_brace ..) ..
    simp only [plain] at hoperand hend
    simp [↓Rules.condition, ↓Rules.expr, hoperand, hend]
  have hbody : body (Rules.upTo (n + 1)) _ [.group .brace arms] = _ := body_plain hinner harms []
  have hleading : leadingExpr (Rules.upTo (n + 1))
      [.leaf (.word false "match"), .leaf (.word false name), .group .brace arms] =
        .ok (⟨[.leaf (.word false "match"), .leaf (.word false name), .group .brace text], .block,
          false⟩, []) := by
    simp [↓leadingExpr, ↓firstOf, blockForms,
      ↓matchExpr, hcondition, hbody, ending, Look.dot]
  simp [↓statements, ↓statement, Look.statementMacro, Look.itemMacro, Look.afterNamePath, ↓namePath, Look.pathName, ↓optOp,
    ↓Reader.optional, keywords, Look.keywordItem, hleading, afterAttributes]

end Reader

end ComponentRegistry.Grammar
