import ComponentRegistry.Proofs.Generation.ModelNames
import ComponentRegistry.Proofs.Registry.History

/-! Every registry reflects its history (`Registry.reflects_history`). The components of a generated
module are of different kinds, since the entries of its model have different names. -/

namespace ComponentRegistry

namespace Model

variable {config : Config} {root : Grammar.Path} {set : AcceptedSet} {model : Model}

theorem names_of_build (h : build set config = .ok model) :
    model.entries.map Entry.name = set.names := by
  obtain ⟨-, root, ls, -, hnames, hentries⟩ := build_induction
    (motive := fun _ ds ls => ls.map (·.entry.name) = ds.map Descriptor.name) (fun _ => rfl)
    (fun hbefore hadd => by
      obtain ⟨-, getter, variant, type, -, -, -, rfl⟩ := addDescriptor_cases hadd
      simp [← hbefore, Function.comp_def]) h
  rw [hentries, List.map_map]
  exact hnames

/-- There is a kind for each entry of a model, if these have different names. -/
def kinds (model : Model) (types : Fin model.entries.length → Type)
    (h : (model.entries.map Entry.name).Nodup) : Kinds (model.Component types) where
  Kind := Fin model.entries.length
  type := types
  name entry := (model.entries.get entry).name
  kind := Component.entry
  member _ := inferInstance
  name_injective {k l} heq := by
    have hentries : model.entries.Nodup := List.Nodup.of_map Entry.name h
    have hsame : model.entries.get k = model.entries.get l :=
      List.inj_on_of_nodup_map h (List.get_mem ..) (List.get_mem ..) heq
    exact (List.Nodup.get_inj_iff hentries).mp hsame
  typeName_eq _ := rfl
  project_isSome_iff entry c := by
    by_cases heq : c.entry = entry
    · simp [Member.project, Component.project?, heq]
    · simp [Member.project, Component.project?, heq]

end Model

namespace Registry

open Store (Reflects after reflects_after)

/-- A registry reflects its history: used directly, over any set of components, and as that of a
generated module, where the components are of one type for each entry. -/
theorem reflects_history :
    (∀ (γ : Type) [ComponentSet γ] (changes : List (Change γ)),
      let r : Registry γ := after Store.empty changes
      Reflects r changes ∧ ∀ name, r.contains name = true ↔ name ∈ registered changes) ∧
    ∀ (set : AcceptedSet) (config : Config) (model : Model), Model.build set config = .ok model →
      ∀ (types : Fin model.entries.length → Type) (changes : List (Change (model.Component types))),
        let r : Generated (model.Component types) := after Store.empty changes
        Reflects r changes ∧
        (∀ name ∈ registered changes, ∃ entry, ∀ other,
          ((r.get? (types other) name).isSome = true ↔ other = entry) ∧
          (⟨name, (model.entries.get other).name⟩ ∈ r.listAll ↔ other = entry)) ∧
        ∀ entry, (r.getter? entry).isSome = (model.entries.get entry).accessor.isSome ∧
          ∀ getter, r.getter? entry = some getter → getter = r.get? (types entry) := by
  refine ⟨fun γ _ changes => ?_, fun set config model hbuild types changes => ?_⟩
  · have hreflects := reflects_after Store.delegates_self changes
    refine ⟨hreflects, fun name => ?_⟩
    have htracks := tracks_empty.after changes
    exact contains_iff.trans (htracks.names ▸ Iff.rfl)
  · have hdistinct : (model.entries.map Entry.name).Nodup :=
      Model.names_of_build hbuild ▸ set.distinct
    have hreflects := reflects_after Store.delegates_generated changes
    refine ⟨hreflects, hreflects.resolved (model.kinds types hdistinct), fun entry => ?_⟩
    refine ⟨Option.isSome_map, fun getter hgetter => ?_⟩
    obtain ⟨_, -, rfl⟩ := Option.map_eq_some_iff.mp hgetter
    rfl

/-- A name that comes back as a component of another type keeps its place. -/
theorem reflects_history_replaced : ∃ model,
    Model.build (.collect [⟨"Clock", [], false⟩, ⟨"Logger", ["log"], false⟩]) {} = .ok model ∧
    ∃ (types : Fin model.entries.length → Type) (clock logger : Fin model.entries.length)
      (early late : types clock) (log : types logger), types clock = Int ∧ types logger = String ∧
      let changes : List (Change (model.Component types)) :=
        [.register "main" ⟨logger, log⟩, .register "side" ⟨clock, early⟩, .update "main" (fun _ => late),
          .register "main" ⟨clock, early⟩, .update "main" (fun _ => late)]
      let r : Generated (model.Component types) := after Store.empty changes
      Reflects r changes ∧ r.listAll = [⟨"main", "Clock"⟩, ⟨"side", "Clock"⟩] ∧
      r.get? (types clock) "main" = some late := by
  have hnames : (Model.build (.collect [⟨"Clock", [], false⟩, ⟨"Logger", ["log"], false⟩]) {}).map
      (fun model => model.entries.map Entry.name) = .ok ["Clock", "Logger"] := by decide +kernel
  obtain ⟨⟨runtime, entries⟩, hbuild, hnames⟩ := Model.exists_of_map hnames
  have hlength : entries.length = 2 := by simpa using congrArg List.length hnames
  obtain ⟨clock, logger, rfl⟩ := List.length_eq_two.mp hlength
  have hclock : clock.name = "Clock" := (List.cons.inj hnames).1
  refine ⟨_, hbuild, fun entry => if entry.val = 0 then Int else String, (0 : Fin 2), (1 : Fin 2),
    (1 : Int), (2 : Int), ("log" : String), rfl, rfl,
    (reflects_history.2 _ _ _ hbuild _ _).1, ?_, rfl⟩
  have hlisted : [Listing.mk "main" clock.name, ⟨"side", clock.name⟩] =
      [⟨"main", "Clock"⟩, ⟨"side", "Clock"⟩] := by rw [hclock]
  exact hlisted

end Registry

end ComponentRegistry
