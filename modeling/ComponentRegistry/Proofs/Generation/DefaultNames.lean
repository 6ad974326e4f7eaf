import ComponentRegistry.Proofs.Generation.Owners
import ComponentRegistry.Proofs.Text.SnakeCase

/-! Sets of components with ASCII names under the default prefix and paths. Only generic components,
collisions and the name of one built-in method can be wrong with them (`Model.build_of_discovered`). -/

namespace ComponentRegistry

open Grammar Lexer Text

theorem Lexer.isName_of_chars {name : String} {c : Char} {cs : List Char} (hname : name.toList = c :: cs)
    (hstart : isIdentStart c = true) (hcs : ∀ d ∈ cs, isIdentContinue d = true) : IsName name := by
  have hall := takeWhile_append (List.all_eq_true.mpr hcs) closed_nil.endsWord
  rw [List.append_nil] at hall
  rw [IsName, hname, Literal.identifier?, if_pos hstart, hall.1, hall.2]

namespace Model

variable {config : Config} {name rest : String}

/-- An identifier of ASCII characters without its raw mark, and a name that may have one. -/
structure Discovered (name : String) : Prop where
  word : IsWord true name
  ascii : name.toList.all isAscii = true

instance (name : String) : Decidable (Discovered name) :=
  decidable_of_iff (IsWord true name ∧ name.toList.all isAscii = true)
    ⟨fun h => ⟨h.1, h.2⟩, fun h => ⟨h.1, h.2⟩⟩

theorem Discovered.exists_named (h : Discovered name) :
    ∃ n, Name.ofText? name = some n ∨ Name.ofText? ("r#" ++ name) = some n := by
  by_cases hkeyword : name ∈ keywords
  · exact ⟨_, .inr (Name.ofText?_raw h.word.isName (h.word.rawable rfl))⟩
  · exact ⟨_, .inl (Name.ofText?_plain h.word.isName hkeyword)⟩

/-- No keyword starts with the default prefix. -/
theorem not_keyword_of_getter : "get_" ++ rest ∉ keywords := by
  intro h
  have hall : ∀ k ∈ keywords, ¬"get_".toList <+: k.toList := by decide +kernel
  exact hall _ h (by rw [String.toList_append]; exact List.prefix_append ..)

/-- The only built-in method that starts with the default prefix. -/
theorem eq_mut_of_reserved (h : "get_" ++ rest ∈ reservedMethods) : rest = "mut" := by
  have hall : ∀ m ∈ reservedMethods, "get_".toList <+: m.toList → m = "get_" ++ "mut" := by
    decide +kernel
  have hmut := hall _ h (by rw [String.toList_append]; exact List.prefix_append ..)
  exact (String.append_right_inj _).mp hmut

theorem identContinue_of_isSnake {c : Char} (h : isSnake c = true) : isIdentContinue c = true := by
  have hascii : isAscii c = true := by
    simp only [isSnake, Char.isLower, Char.isDigit, Bool.or_eq_true, Bool.and_eq_true,
      decide_eq_true_eq, beq_iff_eq, UInt32.le_iff_toNat_le, ge_iff_le] at h
    rw [isAscii, decide_eq_true_eq]
    rcases h with (⟨-, h⟩ | ⟨-, h⟩) | rfl
    · exact Nat.lt_of_le_of_lt h (by decide)
    · exact Nat.lt_of_le_of_lt h (by decide)
    · decide
  have hall := of_isAscii (p := fun c => !isSnake c || isIdentContinue c) (by decide +kernel) hascii
  rwa [h, Bool.not_true, Bool.false_or] at hall

/-- What the default prefix and a name in snake case make is read as it stands. -/
theorem ofText?_getter (h : ∀ c ∈ rest.toList, isSnake c = true) :
    Name.ofText? ("get_" ++ rest) = some ⟨false, "get_" ++ rest⟩ := by
  have hchars : ("get_" ++ rest).toList = 'g' :: 'e' :: 't' :: '_' :: rest.toList := by
    rw [String.toList_append]
    rfl
  refine Name.ofText?_plain (isName_of_chars hchars (by decide) ?_) not_keyword_of_getter
  simp only [List.forall_mem_cons]
  exact ⟨by decide, by decide, by decide, fun c hc => identContinue_of_isSnake (h c hc)⟩

/-- The prefix and the paths are the default ones. -/
structure DefaultNames (config : Config) : Prop where
  accessorPrefix : config.accessorPrefix = ({} : Config).accessorPrefix
  runtimePath : config.runtimePath = ({} : Config).runtimePath
  typeRoot : config.typeRoot = ({} : Config).typeRoot

/-- All components and their modules have names that are discovered in ASCII sources. -/
def AllDiscovered (ds : List Descriptor) : Prop :=
  ∀ d ∈ ds, ∀ name ∈ d.name :: d.modulePath, Discovered name

instance (ds : List Descriptor) : Decidable (AllDiscovered ds) := by
  unfold AllDiscovered
  infer_instance

theorem DefaultNames.getterText_eq (h : DefaultNames config) (d : Descriptor) :
    getterText config d = "get_" ++ snakeCase d.name := by
  rw [getterText, accessorName, h.accessorPrefix]

theorem AllDiscovered.isSnake {ds : List Descriptor} (h : AllDiscovered ds) {d : Descriptor}
    (hd : d ∈ ds) : ∀ c ∈ (snakeCase d.name).toList, isSnake c = true :=
  isSnake_of_snakeCase (List.all_eq_true.mp (h d hd d.name List.mem_cons_self).ascii)

theorem DefaultNames.exists_paths (h : DefaultNames config) :
    (∃ p, Path.ofText? config.runtimePath = some p) ∧ ∃ p, Path.ofText? config.typeRoot = some p := by
  have hpaths : (Path.ofText? ({} : Config).runtimePath).isSome = true ∧
      (Path.ofText? ({} : Config).typeRoot).isSome = true := by decide +kernel
  rw [h.runtimePath, h.typeRoot]
  exact ⟨Option.isSome_iff_exists.mp hpaths.1, Option.isSome_iff_exists.mp hpaths.2⟩

/-- A component is fit unless it is generic or has the name of the one built-in getter. -/
theorem DefaultNames.fit_iff (h : DefaultNames config) {ds : List Descriptor} (hds : AllDiscovered ds)
    {d : Descriptor} (hd : d ∈ ds) :
    Fit config d ↔ d.generic = false ∧ snakeCase d.name ≠ "mut" := by
  constructor
  · intro hfit
    refine ⟨hfit.concrete, fun hmut => hfit.free ?_⟩
    rw [h.getterText_eq, hmut]
    decide
  · rintro ⟨hconcrete, hmut⟩
    refine ⟨hconcrete, fun hfree => hmut (eq_mut_of_reserved (h.getterText_eq d ▸ hfree)), ?_,
      fun name hname => (hds d hd name hname).exists_named⟩
    rw [h.getterText_eq]
    exact ⟨_, ofText?_getter (hds.isSnake hd)⟩

theorem DefaultNames.sound_iff (h : DefaultNames config) {ds : List Descriptor}
    (hds : AllDiscovered ds) : Sound config ds ↔
      (∀ d ∈ ds, d.generic = false ∧ snakeCase d.name ≠ "mut") ∧
      (config.collision = .reject → (ds.map fun d => snakeCase d.name).Nodup) := by
  have hgetters : ds.map (getterText config) = (ds.map fun d => snakeCase d.name).map ("get_" ++ ·) := by
    rw [List.map_map]
    exact List.map_congr_left fun d _ => h.getterText_eq d
  have hnodup : (ds.map (getterText config)).Nodup ↔ (ds.map fun d => snakeCase d.name).Nodup := by
    rw [hgetters]
    exact List.nodup_map_iff fun _ _ => (String.append_right_inj _).mp
  obtain ⟨hruntime, hroot⟩ := h.exists_paths
  constructor
  · exact fun hsound => ⟨fun d hd => (h.fit_iff hds hd).mp (hsound.fit d hd),
      fun hreject => hnodup.mp (hsound.apart hreject)⟩
  · exact fun ⟨hfit, hapart⟩ => ⟨hruntime, hroot, fun d hd => (h.fit_iff hds hd).mpr (hfit d hd),
      fun hreject => hnodup.mpr (hapart hreject)⟩

/-- Under the default prefix and paths a set of components with such names is refused for three reasons
only: a component is generic, its name in snake case is that of a built-in getter without the prefix,
or two of them have the same name in snake case and no getter may be taken away. The getters are made of
the prefix and of characters that any identifier may have. -/
theorem build_of_discovered {set : AcceptedSet} {config : Config} (hconfig : DefaultNames config)
    (hset : AllDiscovered set.members) :
    ((∃ model, build set config = .ok model) ↔
      (∀ d ∈ set.members, d.generic = false ∧ snakeCase d.name ≠ "mut") ∧
      (config.collision = .reject → (set.members.map fun d => snakeCase d.name).Nodup)) ∧
    (∀ e, build set config = .error e →
      (∃ d ∈ set.members, d.generic = true ∧ e = .genericComponent d.name) ∨
      (∃ d ∈ set.members, snakeCase d.name = "mut" ∧ e = .reservedAccessor "get_mut" d.name) ∨
      (config.collision = .reject ∧ ∃ first second, [first, second].Sublist set.members ∧
        snakeCase first.name = snakeCase second.name ∧
        e = .accessorCollision ("get_" ++ snakeCase second.name) first.name second.name)) ∧
    (∀ model, build set config = .ok model → ∀ entry ∈ model.entries, ∀ n, entry.accessor = some n →
      n = ⟨false, "get_" ++ snakeCase entry.name⟩ ∧
      ∀ c ∈ (snakeCase entry.name).toList, isSnake c = true) ∧
    ∀ d ∈ set.members, ∀ c ∈ (snakeCase d.name).toList, isSnake c = true := by
  refine ⟨((reports_build set config).ok_iff.trans faults_eq_nil).trans (hconfig.sound_iff hset),
    fun e h => ?_, fun model h entry hentry n hn => ?_, fun d hd => hset.isSnake hd⟩
  · rcases exists_of_build_error h with h | ⟨-, before, d, after, hmembers, -, h⟩
    · obtain ⟨hruntime, hroot⟩ := hconfig.exists_paths
      rw [settingFaults, pathFaults_eq_nil.mpr hruntime, pathFaults_eq_nil.mpr hroot] at h
      cases h
    · have hd : d ∈ set.members := hmembers ▸ List.mem_append_right _ List.mem_cons_self
      cases fault_of_mem (List.mem_of_head? h) with
      | generic hgeneric => exact .inl ⟨d, hd, hgeneric, rfl⟩
      | reserved hreserved =>
        rw [hconfig.getterText_eq] at hreserved ⊢
        have hmut := eq_mut_of_reserved hreserved
        exact .inr (.inl ⟨d, hd, hmut, by rw [hmut]; rfl⟩)
      | unreadable hread =>
        rw [hconfig.getterText_eq, ofText?_getter (hset.isSnake hd)] at hread
        cases hread
      | @taken owner hreject howner =>
        obtain ⟨hbefore, hsame⟩ := List.mem_filter.mp howner
        rw [decide_eq_true_eq, hconfig.getterText_eq, hconfig.getterText_eq] at hsame
        refine .inr (.inr ⟨hreject, owner, d, ?_, (String.append_right_inj _).mp hsame, ?_⟩)
        · rw [hmembers]
          exact (List.singleton_sublist.mpr hbefore).append
            (List.cons_sublist_cons.mpr (List.nil_sublist _))
        · rw [hconfig.getterText_eq]
      | unnamed hname hnone =>
        exact absurd hnone (named?_ne_none.mpr (hset d hd _ hname).exists_named)
  · obtain ⟨root, -, hlength, hentries⟩ := entries_of_build h
    obtain ⟨i, hi, rfl⟩ := List.mem_iff_getElem.mp hentry
    have hmember := List.getElem?_eq_getElem (hlength ▸ hi)
    have hat := hentries i _ _ hmember (List.getElem?_eq_getElem hi)
    have hsnake := hset.isSnake (List.getElem_mem (hlength ▸ hi))
    have hread := hat.read n hn
    rw [hconfig.getterText_eq, ofText?_getter hsnake] at hread
    rw [hat.name]
    exact ⟨(Option.some.inj hread).symm, hsnake⟩

/-- Components with an acronym and a digit in the name, with underscores alone, and with keywords. -/
def oddlyNamed : AcceptedSet :=
  .collect [⟨"HTTPServer2", ["type"], false⟩, ⟨"__", [], false⟩, ⟨"match", ["move", "_a1"], false⟩]

/-- All of them have getters of their own. -/
theorem build_of_discovered_oddlyNamed :
    DefaultNames {} ∧ AllDiscovered oddlyNamed.members ∧
    oddlyNamed.names.map snakeCase = ["http_server2", "", "match"] ∧
    ∃ model, build oddlyNamed {} = .ok model ∧ ∀ entry ∈ model.entries, ∀ n,
      entry.accessor = some n → n = ⟨false, "get_" ++ snakeCase entry.name⟩ := by
  have hconfig : DefaultNames {} := ⟨rfl, rfl, rfl⟩
  have hset : AllDiscovered oddlyNamed.members := by decide +kernel
  have hsnake : oddlyNamed.names.map snakeCase = ["http_server2", "", "match"] := by decide +kernel
  obtain ⟨hbuilt, -, hgetters, -⟩ := build_of_discovered hconfig hset
  obtain ⟨model, hmodel⟩ := hbuilt.mpr ⟨by decide +kernel, fun _ => by decide +kernel⟩
  exact ⟨hconfig, hset, hsnake, model, hmodel,
    fun entry hentry n hn => (hgetters model hmodel entry hentry n hn).1⟩

end Model

end ComponentRegistry
