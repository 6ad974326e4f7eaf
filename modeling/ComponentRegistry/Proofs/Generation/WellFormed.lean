import ComponentRegistry.Proofs.Generation.ModelNames
import ComponentRegistry.Generation.Artifact
import ComponentRegistry.Declaration.Outline

/-! Every generated registry is a source file with the items that it is meant to have. -/

namespace ComponentRegistry

open Grammar Lexer

namespace Lexer

theorem line_append {cs : List Char} (h : '\n' ∉ cs) (rest : List Char) :
    (line (cs ++ '\n' :: rest)).2 = '\n' :: rest := by
  induction cs with
  | nil => rfl
  | cons c cs ih =>
    obtain ⟨hc, hcs⟩ : '\n' ≠ c ∧ '\n' ∉ cs := by simpa using h
    rw [List.cons_append]
    unfold line
    split
    next heq => cases heq
    next heq => exact absurd (List.cons.inj heq).1.symm hc
    next more heq =>
      obtain ⟨rfl, htail⟩ := List.cons.inj heq
      cases cs with
      | nil => rw [← (List.cons.inj htail).2]
      | cons d cs => exact absurd (by rw [(List.cons.inj htail).1]; simp) hcs
    next heq =>
      obtain ⟨rfl, rfl⟩ := List.cons.inj heq
      exact ih hcs

/-- A comment up to the end of its line leaves nothing. -/
theorem Lexes.comment {cs rest : List Char} {more : List Lexeme} (h : '\n' ∉ cs)
    (hrest : Lexes rest more) : Lexes ('/' :: '/' :: ' ' :: (cs ++ '\n' :: rest)) more := by
  have hspace : '\n' ∉ ' ' :: cs := by simpa using h
  have hline : (line (' ' :: (cs ++ '\n' :: rest))).2 = '\n' :: rest := line_append hspace rest
  have hcomment : step? ('/' :: '/' :: ' ' :: (cs ++ '\n' :: rest)) = some ([], '\n' :: rest) := by
    have hblank : Text.isBlank '/' = false := by decide
    simp [step?, blank?, comment?, hline, hblank]
  have hfeed : step? ('\n' :: rest) = some ([], rest) := rfl
  have hnext : Lexes ('\n' :: rest) ([] ++ more) := .step hfeed (Nat.lt_succ_self _) hrest
  show Lexes _ ([] ++ ([] ++ more))
  refine .step hcomment ?_ hnext
  simp only [List.length_cons, List.length_append]
  omega

end Lexer

namespace Grammar

variable {r : Rules} {pieces : List (List Tree)} {items : List Item}

/-- The items of a file are read one after another. -/
theorem SourceFile.reader_takes (hinner : Reader.startsInner pieces.flatten = false)
    (h : List.Forall₂ (Reader.Takes r.item) pieces items) :
    SourceFile.reader r pieces.flatten = .ok (items, []) := by
  suffices hloop : ∀ before, Reader.loop (fun items => do
      if ← Reader.atEnd then return .inr items
      return .inl (items ++ [← r.item])) before pieces.flatten = .ok (before ++ items, []) by
    rw [SourceFile.reader, Reader.bind_apply, Reader.innerAttributes_plain hinner]
    exact hloop []
  clear hinner
  induction h with
  | nil =>
    intro before
    refine Reader.loop_last ?_
    simp
  | @cons piece item pieces items hpiece _ ih =>
    intro before
    have hempty : (piece ++ pieces.flatten).isEmpty = false := by simp [hpiece.nonempty]
    have hnext := ih (before ++ [item])
    rw [List.append_assoc] at hnext
    rw [List.flatten_cons]
    refine Reader.loop_next ?_ ?_ hnext
    · simp [hempty, hpiece.read]
    · rw [List.length_append]
      have := List.length_pos_iff.mpr hpiece.nonempty
      omega

end Grammar

theorem not_mem_intercalate {c : Char} {mark : String} {texts : List String}
    (hmark : c ∉ mark.toList) (h : ∀ text ∈ texts, c ∉ text.toList) :
    c ∉ (mark.intercalate texts).toList := by
  induction texts with
  | nil => simp
  | cons text texts ih =>
    have htext := h text List.mem_cons_self
    have hrest := ih fun t ht => h t (List.mem_cons_of_mem _ ht)
    cases texts with
    | nil => simpa using htext
    | cons next texts =>
      rw [String.intercalate_cons_of_ne_nil (by simp)]
      simp only [String.toList_append, List.mem_append, not_or]
      exact ⟨⟨htext, hmark⟩, hrest⟩

theorem Lexer.IsName.not_mem {name : String} (h : IsName name) {c : Char}
    (hc : Text.isIdentContinue c = false) : c ∉ name.toList := by
  obtain ⟨first, rest, hname, hfirst, hrest⟩ := h.chars
  rw [hname]
  intro hmem
  rcases List.mem_cons.mp hmem with rfl | hmem
  · rw [Text.isIdentContinue, hfirst, Bool.true_or] at hc
    cases hc
  · rw [List.all_eq_true.mp hrest c hmem] at hc
    cases hc

namespace Artifact

variable {model : Model}

theorem moduleText_chars (model : Model) : (moduleText model).toList = '/' :: '/' :: ' ' ::
    ("@generated by compreg-codegen. Do not edit.".toList ++ '\n' :: '/' :: '/' :: ' ' ::
      (("Components: " ++ ", ".intercalate (model.entries.map (·.name))).toList ++
        '\n' :: (Tree.charsAll (spelling model) ++ ['\n']))) := by
  simp [moduleText, header, Tree.text]

/-- The comments before the items of a registry are skipped. -/
theorem lexes_moduleText (htight : Tight (spelling model))
    (hnames : ∀ e ∈ model.entries, IsName e.name) :
    Lexes (moduleText model).toList (lexemesOfAll (spelling model)) := by
  have hfeed : step? ['\n'] = some ([], []) := rfl
  have hend : Lexes ['\n'] ([] ++ []) := .step hfeed (by simp) .nil
  have hclosed : Closed ['\n'] := closed_cons (by simp)
  have hitems := htight.lexes hclosed hend
  have hline : '\n' ∉ ("Components: " ++ ", ".intercalate (model.entries.map (·.name))).toList := by
    rw [String.toList_append, List.mem_append, not_or]
    refine ⟨by decide, not_mem_intercalate (by decide) fun text htext => ?_⟩
    obtain ⟨e, he, rfl⟩ := List.mem_map.mp htext
    exact (hnames e he).not_mem (by decide_cbv)
  have hheader : '\n' ∉ "@generated by compreg-codegen. Do not edit.".toList := by decide
  rw [List.append_nil, List.append_nil] at hitems
  rw [moduleText_chars]
  exact .comment hheader (.comment hline hitems)

/-- The trees of the items of a registry; whether two angle brackets that end together are joint,
the first of them to the second, tells the generated code from what it is read as. -/
def pieces (model : Model) (joint : Bool) : List (List Tree) :=
  [enumeration model.entries, componentSet model.runtime.spelling model.entries] ++
    model.entries.flatMap (fun e => [conversion e, membership model.runtime.spelling e]) ++
    [registryStruct model.runtime.spelling, methodsTrees model.runtime model.entries joint,
      defaultImpl]

theorem spelling_pieces (model : Model) : spelling model = (pieces model true).flatten := by
  have hentries : (model.entries.flatMap fun e =>
      [conversion e, membership model.runtime.spelling e]).flatten =
        model.entries.flatMap fun e => conversion e ++ membership model.runtime.spelling e := by
    rw [List.flatMap_def, List.flatten_flatten]
    simp [List.flatMap_def, Function.comp_def]
  simp [spelling, pieces, hentries, registryMethods_trees]

/-- The items that a registry is read as. -/
def items (model : Model) : List Item :=
  [.declaration [Reader.docAttribute enumerationDoc] .enumeration ⟨false, "AnyComponent"⟩ false
      (enumeration model.entries),
    .other (componentSet model.runtime.spelling model.entries)] ++
    model.entries.flatMap (fun e =>
      [.other (conversion e), .other (membership model.runtime.spelling e)]) ++
    [.declaration [Reader.docAttribute
        (docLiteral " Name-keyed registry over the discovered component types.")] .struct
        ⟨false, "ComponentRegistry"⟩ false (registryStruct model.runtime.spelling),
      .other (methodsTrees model.runtime model.entries false), .other defaultImpl]

theorem items_text (model : Model) : (items model).map Item.text = pieces model false := by
  have hentries : (model.entries.flatMap fun e => [Item.other (conversion e),
      .other (membership model.runtime.spelling e)]).map Item.text =
        model.entries.flatMap fun e => [conversion e, membership model.runtime.spelling e] := by
    rw [List.map_flatMap]
    rfl
  simp [items, pieces, hentries, Item.text]

/-- The names and paths of a model make code of it that is read as it is meant. -/
structure Readable (model : Model) : Prop where
  runtime : model.runtime.Written
  entry : ∀ e ∈ model.entries, EntryOk e
  tight : ∀ e ∈ model.entries, EntryTight e
  name : ∀ e ∈ model.entries, IsName e.name

theorem takes_entry (h : Readable model) {e : Entry} (he : e ∈ model.entries) (n : Nat) :
    List.Forall₂ (Reader.Takes (Reader.item (Rules.upTo (n + 5))))
      [conversion e, membership model.runtime.spelling e]
      [.other (conversion e), .other (membership model.runtime.spelling e)] :=
  .cons (takes_conversion (n := n + 1) (h.entry e he))
    (.cons (takes_membership h.runtime.toPlain (h.entry e he)) .nil)

theorem takes_pieces (h : Readable model) (joint : Bool) (n : Nat) :
    List.Forall₂ (Reader.Takes (Reader.item (Rules.upTo (n + 5)))) (pieces model joint)
      (items model) := by
  have hentries : List.Forall₂ (Reader.Takes (Reader.item (Rules.upTo (n + 5))))
      (model.entries.flatMap fun e => [conversion e, membership model.runtime.spelling e])
      (model.entries.flatMap fun e =>
        [.other (conversion e), .other (membership model.runtime.spelling e)]) := by
    have hsame : List.Forall₂ (fun e d => e = d ∧ e ∈ model.entries) model.entries model.entries :=
      List.forall₂_same.mpr fun _ he => ⟨rfl, he⟩
    refine List.rel_flatMap hsame fun e d he => ?_
    obtain ⟨rfl, he⟩ := he
    exact takes_entry h he n
  refine List.rel_append (List.rel_append (.cons ?_ (.cons ?_ .nil)) hentries)
    (.cons ?_ (.cons ?_ (.cons ?_ .nil)))
  · exact takes_enum (n := n + 4) h.entry
  · exact takes_componentSet (n := n + 1) h.runtime.toPlain h.entry
  · exact takes_registryStruct (n := n + 3) h.runtime.toPlain
  · exact takes_methodsTrees (n := n + 1) h.runtime.toPlain h.entry joint
  · exact takes_defaultImpl (n := n + 1)

theorem tight_pieces (h : Readable model) (joint : Bool) :
    ∀ piece ∈ pieces model joint, Tight piece := by
  have hruntime : Tight model.runtime.spelling := h.runtime.tight
  intro piece hpiece
  simp only [pieces, List.mem_append, List.mem_cons, List.mem_flatMap, List.not_mem_nil,
    or_false] at hpiece
  rcases hpiece with ((rfl | rfl) | ⟨e, he, rfl | rfl⟩) | (rfl | rfl | rfl)
  · exact tight_enumeration h.tight
  · exact tight_componentSet hruntime h.tight
  · exact tight_conversion (h.tight e he)
  · exact tight_membership hruntime (h.tight e he)
  · exact tight_registryStruct hruntime
  · exact tight_methodsTrees hruntime h.tight joint
  · exact tight_defaultImpl

theorem forTrees_eq {trees : List Tree} (h : trees ≠ []) :
    ∃ n, Rules.forTrees trees = Rules.upTo (n + 6) := by
  have hsize : 1 ≤ Tree.sizeAll trees := by
    cases trees with
    | nil => exact absurd rfl h
    | cons tree rest =>
      have htree : 1 ≤ Tree.size tree := by cases tree <;> simp [Tree.size]
      rw [Tree.sizeAll]
      omega
  have hdepth : 4 * Tree.sizeAll trees + 4 = 4 * Tree.sizeAll trees - 2 + 6 := by omega
  exact ⟨4 * Tree.sizeAll trees - 2, by rw [Rules.forTrees, hdepth]⟩

theorem ofText?_moduleText (h : Readable model) :
    Tree.ofText? (moduleText model) = some (spelling model) := by
  have htight : Tight (spelling model) := by
    rw [spelling_pieces]
    exact tight_flatten (tight_pieces h true)
  have hmark : dropByteOrderMark (moduleText model).toList = (moduleText model).toList := by
    rw [moduleText_chars]
    rfl
  rw [Tree.ofText?, hmark]
  exact (lexes_moduleText htight h.name).treesOf?

theorem content_moduleText (model : Model) :
    SourceFile.content (moduleText model) = moduleText model := by
  rw [← String.toList_inj, SourceFile.content, String.toList_ofList, moduleText_chars]
  rfl

/-- A registry is a source file with its items. -/
theorem items?_moduleText (h : Readable model) :
    SourceFile.items? (moduleText model) = some (items model) := by
  have hfirst : ∃ rest, (pieces model true).flatten = .leaf (.mark '#' false) ::
      .group .bracket [.leaf (.word false "doc"), .leaf (.mark '=' false),
        .leaf (.literal enumerationDoc)] :: rest := by
    rw [pieces, List.cons_append, List.cons_append, List.flatten_cons, enumeration_trees]
    exact ⟨_, rfl⟩
  obtain ⟨rest, hrest⟩ := hfirst
  have hinner : Reader.startsInner (pieces model true).flatten = false := by
    rw [hrest]
    simp [Reader.startsInner]
  have hne : spelling model ≠ [] := by simp [spelling_pieces, hrest]
  obtain ⟨n, hn⟩ := forTrees_eq hne
  rw [SourceFile.items?, content_moduleText]
  refine ofText?_of_trees (ofText?_moduleText h) ?_
  rw [hn, spelling_pieces]
  exact SourceFile.reader_takes hinner (takes_pieces h true n)

/-- Each item of a registry is read back from its own text. -/
theorem ofText?_items (h : Readable model) :
    ∀ item ∈ items model, Item.ofText? (Tree.text item.text) = some item := by
  intro item hitem
  have htakes : ∀ n, Reader.Takes (Reader.item (Rules.upTo (n + 5))) item.text item := by
    intro n
    have hall := takes_pieces h false n
    rw [← items_text, List.forall₂_map_left_iff, List.forall₂_same] at hall
    exact hall item hitem
  have htight : Tight item.text := by
    refine tight_pieces h false _ ?_
    rw [← items_text]
    exact List.mem_map_of_mem hitem
  obtain ⟨n, hn⟩ := forTrees_eq (htakes 0).nonempty
  refine ofText?_of_trees (Tree.ofText?_text htight) ?_
  have hread := (htakes (n + 1)).read []
  rwa [List.append_nil, ← hn] at hread

end Artifact

namespace Outline

/-- Without modules, all items are reached in their order. -/
theorem reached_eq {inline : List String} {items : List Item}
    (h : ∀ item ∈ items, reachedBy inline item = [.item inline item.text]) :
    reached inline items = items.map fun item => .item inline item.text := by
  induction items with
  | nil => rw [reached]; rfl
  | cons item items ih =>
    rw [reached, h item List.mem_cons_self, ih fun i hi => h i (List.mem_cons_of_mem _ hi)]
    rfl

theorem ofItems_eq (file : String) (modulePath : List String) {items : List Item}
    (h : ∀ item ∈ items, reachedBy [] item = [.item [] item.text]) :
    (ofItems file modulePath items).modules = [] ∧
      (ofItems file modulePath items).nodes.map Node.content =
        items.map fun item => Tree.text item.text := by
  have hitems : (items.map fun item => Reached.item [] item.text).filterMap Reached.item? =
      items.map fun item => ([], item.text) := by
    rw [List.filterMap_map]
    exact List.filterMap_eq_map ▸ rfl
  have hmodules : (items.map fun item => Reached.item [] item.text).filterMap Reached.module? =
      [] := by
    simp [List.filterMap_map, Reached.module?, Function.comp_def]
  rw [ofItems, reached_eq h, hitems, hmodules]
  exact ⟨rfl, List.ext_getElem (by simp) fun i _ _ => by simp⟩

end Outline

namespace Artifact

open Path

/-- A text as a path of identifiers and path keywords, without arguments. -/
def IsPlainPath (text : String) : Prop := ∃ p, Path.ofText? text = some p ∧ p.Plain

instance (text : String) : Decidable (IsPlainPath text) :=
  decidable_of_iff ((Path.ofText? text).any (fun p => decide p.Plain) = true) (by
    simp [IsPlainPath, Option.any_eq_true])

/-- What an item of a registry is there for. -/
inductive Role where
  | enumeration
  | componentSet
  | conversion (d : Descriptor)
  | membership (d : Descriptor)
  | registry
  | methods
  | defaultImpl

/-- The items of the registry of a set, in their order. -/
def roles (set : AcceptedSet) : List Role :=
  [.enumeration, .componentSet] ++ set.members.flatMap (fun d => [.conversion d, .membership d]) ++
    [.registry, .methods, .defaultImpl]

theorem length_roles (set : AcceptedSet) : (roles set).length = 5 + 2 * set.size := by
  have hmembers : ∀ ds : List Descriptor,
      (ds.flatMap fun d => [Role.conversion d, .membership d]).length = 2 * ds.length := by
    intro ds
    induction ds with
    | nil => rfl
    | cons d ds ih =>
      rw [List.flatMap_cons, List.length_append, ih]
      simp only [List.length_cons, List.length_nil]
      omega
  simp only [roles, List.length_append, hmembers, List.length_cons, List.length_nil,
    AcceptedSet.size]
  omega

/-- A component as a variant of the enumeration: its name with its type. -/
def variantOf (root : Path) (d : Descriptor) : Spelling :=
  (Name.ofIdentifier d.name).spelling ++ parens (Model.componentPath root d).spelling ++ code ","

namespace Role

/-- The code of an item up to its braces. -/
def head (runtime root : Path) : Role → Spelling
  | enumeration => doc " Closed set of component types discovered at build time." ++
      code "pub enum AnyComponent"
  | componentSet => code "impl" ++ runtime.spelling ++ code ":: ComponentSet for AnyComponent"
  | conversion d => code "impl :: core :: convert :: From" ++
      Artifact.inAngles (Model.componentPath root d).spelling ++ code "for AnyComponent"
  | membership d => code "impl" ++ runtime.spelling ++ code ":: Member < AnyComponent > for" ++
      (Model.componentPath root d).spelling
  | registry => doc " Name-keyed registry over the discovered component types." ++
      code "pub struct ComponentRegistry"
  | methods => code "impl ComponentRegistry"
  | defaultImpl => code "impl :: core :: default :: Default for ComponentRegistry"

/-- The item is what its role asks for; of the enumeration all is told. -/
def Describes (runtime root : Path) (set : AcceptedSet) : Role → Item → Prop
  | enumeration, item => item = .declaration [Reader.docAttribute enumerationDoc] .enumeration
      ⟨false, "AnyComponent"⟩ false
        (head runtime root .enumeration ++ braces (set.members.flatMap (variantOf root)))
  | registry, item => ∃ inner, item = .declaration [Reader.docAttribute
      (docLiteral " Name-keyed registry over the discovered component types.")] .struct
        ⟨false, "ComponentRegistry"⟩ false (head runtime root .registry ++ braces inner)
  | role, item => ∃ inner, item = .other (head runtime root role ++ braces inner)

end Role

theorem flatMap_variant {root : Path} {ds : List Descriptor} {entries : List Entry}
    (h : List.Forall₂ (Model.EntryOf root) ds entries) :
    entries.flatMap variant = ds.flatMap (variantOf root) := by
  induction h with
  | nil => rfl
  | @cons d e ds entries he _ ih =>
    rw [List.flatMap_cons, List.flatMap_cons, ih, variant, variantOf, he.variant, he.type]

theorem describes_items {set : AcceptedSet} {model : Model} {root : Path}
    (h : List.Forall₂ (Model.EntryOf root) set.members model.entries) :
    List.Forall₂ (Role.Describes model.runtime root set) (roles set) (items model) := by
  have hentries : List.Forall₂ (Role.Describes model.runtime root set)
      (set.members.flatMap fun d => [.conversion d, .membership d])
      (model.entries.flatMap fun e =>
        [.other (conversion e), .other (membership model.runtime.spelling e)]) := by
    refine List.rel_flatMap h fun d e he => .cons ?_ (.cons ?_ .nil)
    · exact ⟨_, by rw [conversion, he.type]; rfl⟩
    · exact ⟨_, by rw [membership, he.type]; rfl⟩
  refine List.rel_append (List.rel_append (.cons ?_ (.cons ?_ .nil)) hentries)
    (.cons ?_ (.cons ?_ (.cons ?_ .nil)))
  · exact congrArg _ (by rw [enumeration, flatMap_variant h]; rfl)
  · exact ⟨_, rfl⟩
  · exact ⟨_, rfl⟩
  · exact ⟨_, rfl⟩
  · exact ⟨_, rfl⟩

/-- The outline of the registry of a set: the items with their roles, each read back from its own
text, and nothing that is taken for a component. -/
structure OutlineOf (runtime root : Path) (set : AcceptedSet) (items : List Item)
    (outline : Outline) : Prop where
  described : List.Forall₂ (Role.Describes runtime root set) (roles set) items
  nodes : outline.nodes.map (fun node => Item.ofText? node.content) = items.map some
  size : outline.nodes.length = 5 + 2 * set.size
  noModules : outline.modules = []
  unmarked : ∀ node ∈ outline.nodes, node.isMarked = false

theorem exists_of_mem_right {α β : Type} {R : α → β → Prop} {as : List α} {bs : List β}
    (h : List.Forall₂ R as bs) {b : β} (hb : b ∈ bs) : ∃ a ∈ as, R a b := by
  induction h with
  | nil => cases hb
  | @cons a' b' as bs hab _ ih =>
    rcases List.mem_cons.mp hb with rfl | hb
    · exact ⟨a', List.mem_cons_self, hab⟩
    · obtain ⟨a, ha, hab⟩ := ih hb
      exact ⟨a, List.mem_cons_of_mem _ ha, hab⟩

theorem readable_of_entries {model : Model} {set : AcceptedSet} {root : Path}
    (hset : ∀ d ∈ set.members, Model.Named d) (hruntime : model.runtime.Written)
    (h : List.Forall₂ (Model.EntryOf root) set.members model.entries) : Readable model := by
  have hall : ∀ e ∈ model.entries, ∃ d ∈ set.members, Model.EntryOf root d e := fun e he =>
    exists_of_mem_right h he
  refine ⟨hruntime, fun e he => ?_, fun e he => ?_, fun e he => ?_⟩
  · obtain ⟨d, -, hentry⟩ := hall e he
    exact ⟨hentry.variant ▸ Name.isIdent_ofIdentifier d.name, hentry.written.toPlain,
      fun accessor haccessor => (hentry.accessor accessor haccessor).1⟩
  · obtain ⟨d, -, hentry⟩ := hall e he
    exact ⟨tight_name hentry.word, hentry.written.tight,
      fun accessor haccessor => tight_name (hentry.accessor accessor haccessor).2⟩
  · obtain ⟨d, hd, hentry⟩ := hall e he
    rw [hentry.name]
    exact (hset d hd).name

theorem component?_items {item : Item} (h : item ∈ items model) : item.component? = none := by
  simp only [items, List.mem_append, List.mem_cons, List.mem_flatMap, List.not_mem_nil,
    or_false] at h
  rcases h with ((rfl | rfl) | ⟨e, -, rfl | rfl⟩) | (rfl | rfl | rfl) <;> rfl

theorem reachedBy_items {item : Item} (h : item ∈ items model) :
    Outline.reachedBy [] item = [.item [] item.text] := by
  simp only [items, List.mem_append, List.mem_cons, List.mem_flatMap, List.not_mem_nil,
    or_false] at h
  rcases h with ((rfl | rfl) | ⟨e, -, rfl | rfl⟩) | (rfl | rfl | rfl) <;>
    rw [Outline.reachedBy] <;> rfl

/-- Every registry that is generated for components whose names are identifiers, with plain paths
for the runtime library and the types, is a source file with the items that it is meant to have. -/
theorem outlineOf_emit {set : AcceptedSet} {config : Config} {artifact : Artifact}
    (hset : ∀ d ∈ set.members, Model.Named d) (hruntime : IsPlainPath config.runtimePath)
    (hroot : IsPlainPath config.typeRoot) (hemit : emit set config = .ok (some artifact))
    (file : String) (modulePath : List String) : ∃ runtime root items,
      Path.ofText? config.runtimePath = some runtime ∧ Path.ofText? config.typeRoot = some root ∧
      SourceFile.items? artifact.contents = some items ∧
      OutlineOf runtime root set items (Outline.ofText file modulePath artifact.contents) := by
  unfold emit at hemit
  split at hemit
  · cases hemit
  obtain ⟨model, hbuild, hartifact⟩ := Model.exists_of_bind hemit
  obtain rfl := Option.some.inj (Except.ok.inj hartifact)
  obtain ⟨hmodel, root, hrootText, hentries⟩ := Model.build_eq hset hbuild
  obtain ⟨runtime, hruntime, hplain⟩ := hruntime
  obtain ⟨root', hroot, hrootPlain⟩ := hroot
  obtain rfl : model.runtime = runtime := Option.some.inj (hmodel.symm.trans hruntime)
  obtain rfl : root = root' := Option.some.inj (hrootText.symm.trans hroot)
  have hreadable := readable_of_entries hset (Path.written_of_ofText? hruntime hplain)
    (hentries hrootPlain)
  have hitems := items?_moduleText hreadable
  have hdescribed := describes_items (hentries hrootPlain)
  obtain ⟨hmodules, hcontents⟩ := Outline.ofItems_eq file modulePath fun item hitem =>
    reachedBy_items (show item ∈ items model from hitem)
  have hnodes : (Outline.ofItems file modulePath (items model)).nodes.map
      (fun node => Item.ofText? node.content) = (items model).map some := by
    rw [← Function.comp_def Item.ofText? Node.content, ← List.map_map, hcontents, List.map_map]
    exact List.map_congr_left fun item hitem => ofText?_items hreadable item hitem
  refine ⟨model.runtime, root, items model, hruntime, hroot, hitems, ?_⟩
  have houtline : Outline.ofText file modulePath (moduleText model) =
      Outline.ofItems file modulePath (items model) := by
    rw [Outline.ofText, hitems]
  rw [houtline]
  refine ⟨hdescribed, hnodes, ?_, hmodules, fun node hnode => ?_⟩
  · have hlength := congrArg List.length hnodes
    rw [List.length_map, List.length_map, ← hdescribed.length_eq, length_roles] at hlength
    exact hlength
  · have hmem : Item.ofText? node.content ∈ (items model).map some := by
      rw [← hnodes]
      exact List.mem_map_of_mem (f := fun node : Node => Item.ofText? node.content) hnode
    obtain ⟨item, hitem, hcontent⟩ := List.mem_map.mp hmem
    rw [Node.isMarked, Node.component?, ← hcontent]
    exact congrArg Option.isSome (component?_items hitem)

theorem outlineOf_emit_keyword : ∃ artifact, emit
      (.collect [⟨"type", ["net", "move"], false⟩, ⟨"Storage", [], false⟩]) {} = .ok (some artifact) ∧
    ∃ runtime root items, Path.ofText? "::compreg_runtime" = some runtime ∧
      Path.ofText? "crate" = some root ∧ SourceFile.items? artifact.contents = some items ∧
      OutlineOf runtime root
        (.collect [⟨"type", ["net", "move"], false⟩, ⟨"Storage", [], false⟩]) items
        (Outline.ofText "registry.rs" [] artifact.contents) := by
  have hsome : ((emit (.collect [⟨"type", ["net", "move"], false⟩, ⟨"Storage", [], false⟩]) {}).toOption
      |>.join).isSome = true := by decide +kernel
  obtain ⟨artifact, hartifact⟩ := Option.isSome_iff_exists.mp hsome
  have hemit : emit (.collect [⟨"type", ["net", "move"], false⟩, ⟨"Storage", [], false⟩]) {} =
      .ok (some artifact) := by
    cases hresult : emit (.collect [⟨"type", ["net", "move"], false⟩, ⟨"Storage", [], false⟩]) {} with
    | error e => simp [hresult, Except.toOption] at hartifact
    | ok result => simpa [hresult, Except.toOption] using hartifact
  exact ⟨artifact, hemit, outlineOf_emit (by decide +kernel) (by decide +kernel) (by decide +kernel)
    hemit "registry.rs" []⟩

end Artifact

end ComponentRegistry
