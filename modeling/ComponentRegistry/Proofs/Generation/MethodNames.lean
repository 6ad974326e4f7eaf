import ComponentRegistry.Proofs.Generation.ModelNames
import ComponentRegistry.Proofs.Generation.ReadMethods
import ComponentRegistry.Proofs.Token.Alone

/-! The methods of a generated registry. Their names are compared as texts before they are read, so two
of them are the same if and only if the prefix makes a built-in name of what is none, or has a comment
in which all getters end (`Model.nodup_methods_iff`). -/

namespace ComponentRegistry

open Grammar Lexer Text

/-- The texts that are read as a name. -/
theorem Grammar.Name.ofText?_iff {text : String} {n : Name} : Name.ofText? text = some n ↔
    (n.raw = true ∨ n.text ∉ keywords) ∧ IsWord n.raw n.text ∧
      Alone n.raw n.text (dropByteOrderMark text.toList) := by
  constructor
  · intro h
    obtain ⟨htrees, hident⟩ := Name.ofText?_eq_some h
    have hword := Name.isWord_of_ofText? h
    exact ⟨hident, hword, (treesOf?_eq_word hword).mp htrees⟩
  · rintro ⟨hident, hword, halone⟩
    exact ofText?_of_trees ((treesOf?_eq_word hword).mpr halone)
      (by simpa [or_iff_not_imp_left] using hident)

namespace Model

variable {config : Config} {root : Path} {start : String}

/-- All getters with the prefix have the same name: it ends in a comment. -/
def Swallows (start : String) : Prop := ∃ n, ∀ name, Name.ofText? (accessorName start name) = some n

theorem dropByteOrderMark_accessorName (start name : String) :
    dropByteOrderMark (accessorName start name).toList =
      dropByteOrderMark start.toList ++ (snakeCase name).toList := by
  rw [accessorName, String.toList_append, dropByteOrderMark_append _ (isSolid_of_snakeCase name)]

/-- Different getters have different names, unless the prefix has a comment in which they end. -/
theorem swallows_of_text_eq {name₁ name₂ : String} {n₁ n₂ : Name}
    (h₁ : Name.ofText? (accessorName start name₁) = some n₁)
    (h₂ : Name.ofText? (accessorName start name₂) = some n₂) (htext : n₁.text = n₂.text)
    (hne : accessorName start name₁ ≠ accessorName start name₂) : Swallows start := by
  obtain ⟨hident₁, hword₁, halone₁⟩ := Name.ofText?_iff.mp h₁
  obtain ⟨hident₂, hword₂, halone₂⟩ := Name.ofText?_iff.mp h₂
  rw [dropByteOrderMark_accessorName] at halone₁ halone₂
  rw [← htext] at hword₂ halone₂
  have hlast : (snakeCase name₁).toList ≠ (snakeCase name₂).toList := by
    intro heq
    exact hne (by rw [accessorName, accessorName, String.toList_inj.mp heq])
  rcases halone₁.swallowed hword₁ hword₂ (isSolid_of_snakeCase _) (isSolid_of_snakeCase _) hlast
    halone₂ with hall | hall
  · refine ⟨n₁, fun name => Name.ofText?_iff.mpr ⟨hident₁, hword₁, ?_⟩⟩
    rw [dropByteOrderMark_accessorName]
    exact hall _ (isSolid_of_snakeCase name)
  · refine ⟨n₂, fun name => Name.ofText?_iff.mpr ⟨hident₂, htext ▸ hword₂, ?_⟩⟩
    rw [dropByteOrderMark_accessorName, ← htext]
    exact hall _ (isSolid_of_snakeCase name)

/-- A getter is named by its text if the prefix is part of an identifier. -/
theorem text_of_identContinue {name : String} {n : Name}
    (hstart : start.toList.all isIdentContinue = true)
    (h : Name.ofText? (accessorName start name) = some n) : n.text = accessorName start name := by
  obtain ⟨-, hword, halone⟩ := Name.ofText?_iff.mp h
  have hsolid : ∀ c ∈ (accessorName start name).toList, isSolid c = true := by
    rw [accessorName, String.toList_append]
    intro c hc
    rcases List.mem_append.mp hc with hc | hc
    · exact isSolid_of_alphanumeric (.inr (List.all_eq_true.mp hstart c hc))
    · exact isSolid_of_snakeCase name c hc
  have hdrop := dropByteOrderMark_append [] hsolid
  rw [List.nil_append] at hdrop
  rw [hdrop] at halone
  exact String.toList_inj.mp (halone.eq_of_isSolid hword hsolid)

/-- What is known of the getters of some components: each is the last one with its text. -/
structure Getters (start : String) (ds : List Descriptor) (ls : List Lowered) : Prop where
  texts : ls.map (·.accessorText) = ds.map fun d => accessorName start d.name
  read : ∀ l ∈ ls, ∀ n, l.entry.accessor = some n → Name.ofText? l.accessorText = some n
  free : ∀ l ∈ ls, l.accessorText ∉ reservedMethods
  apart : ls.Pairwise fun l k => l.entry.accessor.isSome = true → k.entry.accessor.isSome = true →
    l.accessorText ≠ k.accessorText
  kept : ∀ l ∈ ls, ∃ k ∈ ls, k.entry.accessor.isSome = true ∧ k.accessorText = l.accessorText

theorem getters_nil (start : String) : Getters start [] [] :=
  ⟨rfl, nofun, nofun, .nil, nofun⟩

theorem Getters.add {ds : List Descriptor} {before after : List Lowered} {d : Descriptor}
    (hbefore : Getters config.accessorPrefix ds before)
    (h : addDescriptor config root before d = .ok after) :
    Getters config.accessorPrefix (ds ++ [d]) after := by
  obtain ⟨hfree, getter, variant, type, hgetter, -, -, rfl⟩ := addDescriptor_cases h
  generalize haccessor : accessorName config.accessorPrefix d.name = accessor at *
  have hshadowed : ∀ {l : Lowered}, l.entry.accessor.isSome = true → l.accessorText ≠ accessor →
      (l.shadow accessor).entry.accessor.isSome = true := by
    intro l hsome hne
    obtain ⟨n, hn⟩ := Option.isSome_iff_exists.mp hsome
    exact Option.isSome_iff_exists.mpr ⟨n, Lowered.shadow_accessor.mpr ⟨hne, hn⟩⟩
  have hkept : ∀ {l : Lowered}, (l.shadow accessor).entry.accessor.isSome = true →
      l.accessorText ≠ accessor ∧ l.entry.accessor.isSome = true := by
    intro l hsome
    obtain ⟨n, hn⟩ := Option.isSome_iff_exists.mp hsome
    obtain ⟨hne, hn⟩ := Lowered.shadow_accessor.mp hn
    exact ⟨hne, Option.isSome_iff_exists.mpr ⟨n, hn⟩⟩
  constructor
  case texts => simp [Function.comp_def, hbefore.texts, haccessor]
  case read =>
    intro l hl n hn
    rcases List.mem_append.mp hl with hl | hl
    · obtain ⟨k, hk, rfl⟩ := List.mem_map.mp hl
      rw [Lowered.shadow_accessorText]
      exact hbefore.read k hk n (Lowered.shadow_accessor.mp hn).2
    · obtain rfl := List.mem_singleton.mp hl
      obtain rfl := Option.some.inj hn
      exact hgetter
  case free =>
    intro l hl
    rcases List.mem_append.mp hl with hl | hl
    · obtain ⟨k, hk, rfl⟩ := List.mem_map.mp hl
      rw [Lowered.shadow_accessorText]
      exact hbefore.free k hk
    · obtain rfl := List.mem_singleton.mp hl
      exact hfree
  case apart =>
    rw [List.pairwise_append, List.pairwise_map]
    refine ⟨hbefore.apart.imp fun hne hl hk => ?_, List.pairwise_singleton ..,
      fun l hl k hk hsome _ => ?_⟩
    · rw [Lowered.shadow_accessorText, Lowered.shadow_accessorText]
      exact hne (hkept hl).2 (hkept hk).2
    · obtain ⟨l, -, rfl⟩ := List.mem_map.mp hl
      obtain rfl := List.mem_singleton.mp hk
      rw [Lowered.shadow_accessorText]
      exact (hkept hsome).1
  case kept =>
    -- The getter that a component has lost is that of the new one.
    intro l hl
    by_cases htext : l.accessorText = accessor
    · exact ⟨_, List.mem_append_right _ List.mem_cons_self, rfl, htext.symm⟩
    · rcases List.mem_append.mp hl with hl | hl
      · obtain ⟨old, hold, rfl⟩ := List.mem_map.mp hl
        rw [Lowered.shadow_accessorText] at htext ⊢
        obtain ⟨k, hk, hsome, hsame⟩ := hbefore.kept old hold
        refine ⟨k.shadow accessor, List.mem_append_left _ (List.mem_map_of_mem hk), ?_, by simpa⟩
        exact hshadowed hsome (hsame ▸ htext)
      · obtain rfl := List.mem_singleton.mp hl
        exact absurd rfl htext

theorem getters_of_build {set : AcceptedSet} {model : Model} (h : build set config = .ok model) :
    ∃ ls, Getters config.accessorPrefix set.members ls ∧ model.entries = ls.map (·.entry) := by
  obtain ⟨-, root, ls, -, hls, hentries⟩ := build_induction
    (motive := fun _ ds ls => Getters config.accessorPrefix ds ls) (fun _ => getters_nil _)
    (fun hbefore hadd => hbefore.add hadd) h
  exact ⟨ls, hls, hentries⟩

/-- The methods of a registry: those that all have, and the getters. -/
def methods (model : Model) : List Name :=
  reservedMethods.map (⟨false, ·⟩) ++ model.entries.filterMap (·.accessor)

namespace Getters

variable {ds : List Descriptor} {ls : List Lowered}

theorem mem_text (h : Getters start ds ls) {l : Lowered} (hl : l ∈ ls) :
    ∃ d ∈ ds, l.accessorText = accessorName start d.name := by
  have hmem : l.accessorText ∈ ds.map fun d => accessorName start d.name :=
    h.texts ▸ List.mem_map_of_mem hl
  obtain ⟨d, hd, htext⟩ := List.mem_map.mp hmem
  exact ⟨d, hd, htext.symm⟩

/-- Each component has its getter, or a later one has it. -/
theorem getter_of_mem (h : Getters start ds ls) {d : Descriptor} (hd : d ∈ ds) :
    ∃ l ∈ ls, l.accessorText = accessorName start d.name ∧ ∃ n, l.entry.accessor = some n ∧
      Name.ofText? (accessorName start d.name) = some n := by
  have hmem : accessorName start d.name ∈ ls.map (·.accessorText) :=
    h.texts ▸ List.mem_map_of_mem (f := fun d : Descriptor => accessorName start d.name) hd
  obtain ⟨l, hl, htext⟩ := List.mem_map.mp hmem
  obtain ⟨k, hk, hsome, hsame⟩ := h.kept l hl
  obtain ⟨n, hn⟩ := Option.isSome_iff_exists.mp hsome
  have htext := hsame.trans htext
  exact ⟨k, hk, htext, n, hn, htext ▸ h.read k hk n hn⟩

/-- The getters have different names if and only if their texts are all the same, or the prefix does
not swallow them. -/
theorem apart_iff (h : Getters start ds ls) :
    (ls.Pairwise fun l k => ∀ n ∈ l.entry.accessor, ∀ n' ∈ k.entry.accessor, n.text ≠ n'.text) ↔
      (Swallows start → ∀ d ∈ ds, ∀ d' ∈ ds, snakeCase d.name = snakeCase d'.name) := by
  constructor
  · rintro hapart ⟨n, hall⟩ d hd d' hd'
    obtain ⟨l, hl, htext, m, hm, hread⟩ := h.getter_of_mem hd
    obtain ⟨k, hk, htext', m', hm', hread'⟩ := h.getter_of_mem hd'
    obtain rfl : n = m := Option.some.inj ((hall d.name).symm.trans hread)
    obtain rfl : n = m' := Option.some.inj ((hall d'.name).symm.trans hread')
    have hsymm : Std.Symm fun l k : Lowered =>
        ∀ n ∈ l.entry.accessor, ∀ n' ∈ k.entry.accessor, n.text ≠ n'.text :=
      ⟨fun _ _ h n hn n' hn' => (h n' hn' n hn).symm⟩
    have hsame : l = k := by
      by_contra hne
      exact hapart.forall hl hk hne n hm n hm' rfl
    rw [hsame, htext'] at htext
    exact (String.append_right_inj _).mp htext.symm
  · intro hswallows
    refine h.apart.imp_of_mem fun {l k} hl hk hne n hn n' hn' htext => ?_
    obtain ⟨d, hd, hltext⟩ := h.mem_text hl
    obtain ⟨d', hd', hktext⟩ := h.mem_text hk
    have hne := hne (Option.isSome_iff_exists.mpr ⟨n, hn⟩) (Option.isSome_iff_exists.mpr ⟨n', hn'⟩)
    have hread := h.read l hl n hn
    have hread' := h.read k hk n' hn'
    rw [hltext] at hread hne
    rw [hktext] at hread' hne
    refine hne ?_
    rw [accessorName, accessorName,
      hswallows (swallows_of_text_eq hread hread' htext hne) d hd d' hd']

end Getters

end Model

namespace Artifact

attribute [local simp] code piece List.splitOn List.splitOnP List.splitOnPPrepend parens braces
  brackets

/-- The name of the function that a piece of code defines. -/
def functionName? : List Tree → Option Name
  | .leaf (.word false "fn") :: .leaf (.word raw name) :: _ => some ⟨raw, name⟩
  | _ :: rest => functionName? rest
  | [] => none

theorem functionName?_getter {e : Entry} {accessor : Name} (h : e.accessor = some accessor) :
    functionName? (getter e) = some accessor := by
  rw [getter, h]
  simp [attributed, functionName?, Name.spelling]

/-- The implementation of a registry is made of the code of its methods. -/
theorem registryMethods_functions (model : Model) : ∃ pieces : List Spelling,
    registryMethods model.runtime.spelling model.entries =
      code "impl ComponentRegistry" ++ braces pieces.flatten ∧
    pieces.map functionName? = model.methods.map some := by
  refine ⟨methodPieces model.runtime model.entries true,
    by rw [registryMethods_trees, methodsTrees]; simp, ?_⟩
  have hgetters : ((model.entries.filter (·.accessor.isSome)).map getter).map functionName? =
      (model.entries.filterMap (·.accessor)).map some := by
    generalize model.entries = entries
    induction entries with
    | nil => rfl
    | cons e entries ih =>
      cases h : e.accessor with
      | none => simpa [h] using ih
      | some accessor => simpa [h, functionName?_getter h] using ih
  rw [methodPieces, Model.methods, List.map_append, List.map_append, hgetters]
  congr 1

end Artifact

namespace Model

/-- The methods of a registry have different names if and only if no getter is read as a method that
all registries have, and the prefix does not have a comment in which different getters end. Both are
so if the prefix is part of an identifier. -/
theorem nodup_methods_iff {set : AcceptedSet} {model : Model} (h : build set config = .ok model) :
    (∃ pieces : List Spelling,
      Artifact.registryMethods model.runtime.spelling model.entries =
        Artifact.code "impl ComponentRegistry" ++ Artifact.braces pieces.flatten ∧
      pieces.map Artifact.functionName? = model.methods.map some) ∧
    ((model.methods.map Name.text).Nodup ↔
      (∀ d ∈ set.members, ∀ n, Name.ofText? (accessorName config.accessorPrefix d.name) = some n →
        n.text ∉ reservedMethods) ∧
      (Swallows config.accessorPrefix →
        ∀ d ∈ set.members, ∀ d' ∈ set.members, snakeCase d.name = snakeCase d'.name)) ∧
    (config.accessorPrefix.toList.all isIdentContinue = true →
      (model.methods.map Name.text).Nodup) := by
  obtain ⟨ls, hgetters, hentries⟩ := getters_of_build h
  have hmethods : model.methods.map Name.text =
      reservedMethods ++ (ls.filterMap (·.entry.accessor)).map Name.text := by
    simp [methods, hentries, List.filterMap_map, Function.comp_def]
  have hgetter : ∀ n, n ∈ ls.filterMap (·.entry.accessor) ↔ ∃ d ∈ set.members,
      Name.ofText? (accessorName config.accessorPrefix d.name) = some n := by
    intro n
    rw [List.mem_filterMap]
    constructor
    · rintro ⟨l, hl, hn⟩
      obtain ⟨d, hd, htext⟩ := hgetters.mem_text hl
      exact ⟨d, hd, htext ▸ hgetters.read l hl n hn⟩
    · rintro ⟨d, hd, hread⟩
      obtain ⟨l, hl, -, m, hm, hread'⟩ := hgetters.getter_of_mem hd
      exact ⟨l, hl, (Option.some.inj (hread'.symm.trans hread)) ▸ hm⟩
  have hiff : (model.methods.map Name.text).Nodup ↔
      (∀ d ∈ set.members, ∀ n, Name.ofText? (accessorName config.accessorPrefix d.name) = some n →
        n.text ∉ reservedMethods) ∧
      (Swallows config.accessorPrefix →
        ∀ d ∈ set.members, ∀ d' ∈ set.members, snakeCase d.name = snakeCase d'.name) := by
    have hreserved : reservedMethods.Nodup := by decide
    rw [hmethods, List.nodup_append, ← hgetters.apart_iff, List.nodup_iff_pairwise_ne,
      List.nodup_iff_pairwise_ne, List.pairwise_map, List.pairwise_filterMap]
    constructor
    · rintro ⟨-, hapart, hfree⟩
      refine ⟨fun d hd n hn hmem => ?_, hapart⟩
      exact hfree _ hmem _ (List.mem_map_of_mem ((hgetter n).mpr ⟨d, hd, hn⟩)) rfl
    · rintro ⟨hfree, hapart⟩
      refine ⟨hreserved, hapart, fun text htext other hother heq => ?_⟩
      obtain ⟨n, hn, rfl⟩ := List.mem_map.mp hother
      obtain ⟨d, hd, hread⟩ := (hgetter n).mp hn
      exact hfree d hd n hread (heq ▸ htext)
  refine ⟨Artifact.registryMethods_functions model, hiff, fun hstart => hiff.mpr
    ⟨fun d hd n hn => ?_, fun ⟨n, hall⟩ d hd d' hd' => ?_⟩⟩
  · obtain ⟨l, hl, htext, -⟩ := hgetters.getter_of_mem hd
    rw [text_of_identContinue hstart hn, ← htext]
    exact hgetters.free l hl
  · have htext := (text_of_identContinue hstart (hall d.name)).symm.trans
      (text_of_identContinue hstart (hall d'.name))
    exact (String.append_right_inj _).mp htext

/-- A getter that two components have is that of the later one. -/
theorem nodup_methods_shadowing : ∃ model,
    build (.collect [⟨"HTTPServer", ["a"], false⟩, ⟨"HttpServer", ["b"], false⟩, ⟨"Len", [], false⟩])
      { collision := .shadow } = .ok model ∧
    model.methods.map Name.text = reservedMethods ++ ["get_http_server", "get_len"] ∧
    (model.methods.map Name.text).Nodup := by
  have hmethods : (build (.collect
      [⟨"HTTPServer", ["a"], false⟩, ⟨"HttpServer", ["b"], false⟩, ⟨"Len", [], false⟩])
      { collision := .shadow }).map (fun model => model.methods.map Name.text) =
      .ok (reservedMethods ++ ["get_http_server", "get_len"]) := by decide +kernel
  obtain ⟨model, hbuild, hmethods⟩ := exists_of_map hmethods
  exact ⟨model, hbuild, hmethods, (nodup_methods_iff hbuild).2.2 (by decide)⟩

/-- A raw getter has the name of a method that all registries have. -/
theorem not_nodup_methods_raw : ∃ model,
    build (.collect [⟨"New", [], false⟩]) { accessorPrefix := "r#" } = .ok model ∧
    model.methods.map Name.text = reservedMethods ++ ["new"] ∧
    ¬(model.methods.map Name.text).Nodup := by
  have hmethods : (build (.collect [⟨"New", [], false⟩]) { accessorPrefix := "r#" }).map
      (fun model => model.methods.map Name.text) = .ok (reservedMethods ++ ["new"]) := by
    decide +kernel
  obtain ⟨model, hbuild, hmethods⟩ := exists_of_map hmethods
  exact ⟨model, hbuild, hmethods, by rw [hmethods]; decide⟩

end Model

end ComponentRegistry
