import ComponentRegistry.Proofs.Generation.ModelNames

/-! What is wrong with a set of components, in the order in which it is looked for. A model is built if
and only if there is nothing, and else the first fault is reported (`Model.build_reports_firstFault`). -/

namespace ComponentRegistry.Model

open Grammar

variable {config : Config} {root : Path} {α β : Type}

/-- The identifier that a name is read as: as it stands, or else as a raw one. -/
def named? (name : String) : Option Name := Name.ofText? name <|> Name.ofText? ("r#" ++ name)

/-- The text of the getter of a component. -/
def getterText (config : Config) (d : Descriptor) : String := accessorName config.accessorPrefix d.name

/-- The components among these that have a getter. -/
def owners (config : Config) (getter : String) (ds : List Descriptor) : List Descriptor :=
  ds.filter (getterText config · = getter)

def pathFaults (role : PathRole) (value : String) : List GenerateError :=
  if Path.ofText? value = none then [.invalidPath role value] else []

def nameFaults (role : PathRole) (name : String) : List GenerateError :=
  if named? name = none then [.invalidPath role name] else []

/-- The faults of a component that comes after some others. -/
def faultsOf (config : Config) (before : List Descriptor) (d : Descriptor) : List GenerateError :=
  let getter := getterText config d
  (if d.generic then [.genericComponent d.name] else []) ++
    ((if reservedMethods.contains getter then [.reservedAccessor getter d.name] else []) ++
    ((if Name.ofText? getter = none then [.invalidAccessor getter d.name] else []) ++
    ((if config.collision = .reject then
        (owners config getter before).map fun owner => .accessorCollision getter owner.name d.name
      else []) ++
    (nameFaults .component d.name ++ d.modulePath.flatMap (nameFaults .moduleName)))))

/-- The faults of components that come after some others. -/
def faultsAfter (config : Config) (before : List Descriptor) : List Descriptor → List GenerateError
  | [] => []
  | d :: rest => faultsOf config before d ++ faultsAfter config (before ++ [d]) rest

/-- The faults of the settings. -/
def settingFaults (config : Config) : List GenerateError :=
  pathFaults .runtime config.runtimePath ++ pathFaults .typeRoot config.typeRoot

/-- The faults of components with the settings that they are generated with. -/
def faults (config : Config) (ds : List Descriptor) : List GenerateError :=
  settingFaults config ++ faultsAfter config [] ds

/-- The result is the first one of these errors, or a value if there are none. -/
def Reports (errors : List GenerateError) (result : Except GenerateError α) : Prop :=
  match errors with
  | [] => ∃ value, result = .ok value
  | e :: _ => result = .error e

namespace Reports

variable {errors more : List GenerateError} {x : Except GenerateError α}

theorem bind {f : α → Except GenerateError β} (h : Reports errors x)
    (hmore : ∀ value, x = .ok value → Reports more (f value)) : Reports (errors ++ more) (x >>= f) := by
  cases errors with
  | nil =>
    obtain ⟨value, rfl⟩ := h
    exact hmore value rfl
  | cons e errors =>
    obtain rfl : x = .error e := h
    exact rfl

/-- Nothing else is looked at if a check fails. -/
theorem check {c : Prop} [Decidable c] {e : GenerateError} (h : ¬c → Reports more x) :
    Reports ((if c then [e] else []) ++ more) (if c then .error e else x) := by
  by_cases hc : c
  · rw [if_pos hc, if_pos hc]
    exact rfl
  · rw [if_neg hc, if_neg hc]
    exact h hc

theorem ok_iff (h : Reports errors x) : (∃ value, x = .ok value) ↔ errors = [] := by
  cases errors with
  | nil => exact ⟨fun _ => rfl, fun _ => h⟩
  | cons e errors =>
    obtain rfl : x = .error e := h
    simp

theorem error_iff (h : Reports errors x) {e : GenerateError} :
    x = .error e ↔ errors.head? = some e := by
  cases errors with
  | nil =>
    obtain ⟨value, rfl⟩ := h
    simp
  | cons first errors =>
    obtain rfl : x = .error first := h
    simp

end Reports

theorem reports_path (role : PathRole) (value : String) :
    Reports (pathFaults role value) (path role value) := by
  unfold pathFaults path
  cases Path.ofText? value with
  | none => exact rfl
  | some p => exact ⟨p, rfl⟩

theorem identifier_eq_named? (role : PathRole) (name : String) : identifier role name =
    match named? name with
    | some n => .ok n
    | none => .error (.invalidPath role name) := rfl

theorem reports_identifier (role : PathRole) (name : String) :
    Reports (nameFaults role name) (identifier role name) := by
  rw [identifier_eq_named?, nameFaults]
  cases named? name with
  | none => exact rfl
  | some n => exact ⟨n, rfl⟩

theorem reports_mapM (role : PathRole) (names : List String) :
    Reports (names.flatMap (nameFaults role)) (names.mapM (identifier role)) := by
  induction names with
  | nil => exact ⟨[], rfl⟩
  | cons name names ih =>
    rw [List.mapM_cons, List.flatMap_cons]
    refine (reports_identifier role name).bind fun n _ => ?_
    rw [← List.append_nil (names.flatMap _)]
    exact ih.bind fun ns _ => ⟨n :: ns, rfl⟩

/-- The modules of a component are all that can be wrong with its type, as its name has been read. -/
theorem reports_typePath {d : Descriptor} {variant : Name}
    (h : identifier .component d.name = .ok variant) :
    Reports (d.modulePath.flatMap (nameFaults .moduleName)) (typePath root d) := by
  rw [← List.append_nil (d.modulePath.flatMap _)]
  refine (reports_mapM .moduleName d.modulePath).bind fun modules _ => ?_
  rw [h]
  exact ⟨_, rfl⟩

/-- These are the names of the components and of the getters that they have had. -/
def Stands (config : Config) (before : List Descriptor) (ls : List Lowered) : Prop :=
  ls.map (fun l => (l.accessorText, l.entry.name)) = before.map fun d => (getterText config d, d.name)

theorem Stands.find? {before : List Descriptor} {ls : List Lowered} (h : Stands config before ls)
    (getter : String) : (ls.find? (·.accessorText == getter)).map (·.entry.name) =
      (owners config getter before).head?.map Descriptor.name := by
  have hfind := congrArg (fun keys => (keys.find? (·.1 == getter)).map Prod.snd) h
  simp only [List.find?_map, Option.map_map] at hfind
  rw [owners, List.head?_filter]
  exact hfind

theorem Stands.add {before : List Descriptor} {ls after : List Lowered} {d : Descriptor}
    (h : Stands config before ls) (hadd : addDescriptor config root ls d = .ok after) :
    Stands config (before ++ [d]) after := by
  obtain ⟨-, getter, variant, type, -, -, -, rfl⟩ := addDescriptor_cases hadd
  rw [Stands, List.map_append, List.map_append, ← h]
  simp [Function.comp_def, getterText]

theorem reports_addDescriptor {before : List Descriptor} {ls : List Lowered}
    (h : Stands config before ls) (d : Descriptor) :
    Reports (faultsOf config before d) (addDescriptor config root ls d) := by
  have hread : ∀ getter, Reports (nameFaults .component d.name ++
      d.modulePath.flatMap (nameFaults .moduleName)) (do
        let variant ← identifier .component d.name
        let type ← typePath root d
        return ls.map (·.shadow (getterText config d)) ++
          [⟨getterText config d, ⟨d.name, variant, type, some getter⟩⟩]) := by
    intro getter
    refine (reports_identifier .component d.name).bind fun variant hvariant => ?_
    rw [← List.append_nil (d.modulePath.flatMap _)]
    exact (reports_typePath hvariant).bind fun type _ => ⟨_, rfl⟩
  have hgetter : accessorName config.accessorPrefix d.name = getterText config d := rfl
  unfold addDescriptor faultsOf
  refine Reports.check fun _ => Reports.check fun _ => ?_
  simp only [hgetter]
  cases Name.ofText? (getterText config d) with
  | none => exact rfl
  | some getter =>
    rw [if_neg (Option.some_ne_none getter), List.nil_append]
    dsimp only
    split
    next =>
      have hfind := h.find? (getterText config d)
      cases howner : owners config (getterText config d) before with
      | nil =>
        rw [howner] at hfind
        rw [Option.map_eq_none_iff.mp hfind]
        exact hread getter
      | cons owner others =>
        rw [howner] at hfind
        obtain ⟨l, hl, hname⟩ := Option.map_eq_some_iff.mp hfind
        rw [hl, List.map_cons, ← hname]
        exact rfl
    next => exact hread getter

theorem reports_foldlM {before ds : List Descriptor} {ls : List Lowered}
    (h : Stands config before ls) :
    Reports (faultsAfter config before ds) (ds.foldlM (addDescriptor config root) ls) := by
  induction ds generalizing before ls with
  | nil => exact ⟨ls, rfl⟩
  | cons d ds ih =>
    rw [List.foldlM_cons, faultsAfter]
    exact (reports_addDescriptor h d).bind fun after hadd => ih (h.add hadd)

/-- What is reported of a set is its first fault. -/
theorem reports_build (set : AcceptedSet) (config : Config) :
    Reports (faults config set.members) (build set config) := by
  have hstands : Stands config [] [] := rfl
  rw [faults, settingFaults, List.append_assoc]
  refine (reports_path .runtime config.runtimePath).bind fun runtime _ =>
    (reports_path .typeRoot config.typeRoot).bind fun root _ => ?_
  rw [← List.append_nil (faultsAfter ..)]
  exact (reports_foldlM hstands).bind fun lowered _ => ⟨_, rfl⟩

/-- Nothing is wrong with a component for itself. -/
structure Fit (config : Config) (d : Descriptor) : Prop where
  concrete : d.generic = false
  free : getterText config d ∉ reservedMethods
  readable : ∃ n, Name.ofText? (getterText config d) = some n
  named : ∀ name ∈ d.name :: d.modulePath,
    ∃ n, Name.ofText? name = some n ∨ Name.ofText? ("r#" ++ name) = some n

/-- Nothing is wrong with these components and settings. -/
structure Sound (config : Config) (ds : List Descriptor) : Prop where
  runtime : ∃ p, Path.ofText? config.runtimePath = some p
  root : ∃ p, Path.ofText? config.typeRoot = some p
  fit : ∀ d ∈ ds, Fit config d
  apart : config.collision = .reject → (ds.map (getterText config)).Nodup

theorem pathFaults_eq_nil {role : PathRole} {value : String} :
    pathFaults role value = [] ↔ ∃ p, Path.ofText? value = some p := by
  unfold pathFaults
  cases Path.ofText? value <;> simp

theorem named?_ne_none {name : String} : named? name ≠ none ↔
    ∃ n, Name.ofText? name = some n ∨ Name.ofText? ("r#" ++ name) = some n := by
  unfold named?
  cases Name.ofText? name <;> cases Name.ofText? ("r#" ++ name) <;> simp

theorem nameFaults_eq_nil {role : PathRole} {name : String} : nameFaults role name = [] ↔
    ∃ n, Name.ofText? name = some n ∨ Name.ofText? ("r#" ++ name) = some n := by
  rw [← named?_ne_none, nameFaults]
  split <;> simp [*]

theorem faultsOf_eq_nil {before : List Descriptor} {d : Descriptor} :
    faultsOf config before d = [] ↔ Fit config d ∧
      (config.collision = .reject → getterText config d ∉ before.map (getterText config)) := by
  have howners : owners config (getterText config d) before = [] ↔
      getterText config d ∉ before.map (getterText config) := by simp [owners]
  have hcollisions : (if config.collision = .reject then
      (owners config (getterText config d) before).map fun owner =>
        GenerateError.accessorCollision (getterText config d) owner.name d.name else []) = [] ↔
      (config.collision = .reject → getterText config d ∉ before.map (getterText config)) := by
    rw [← howners]
    split <;> simp [*]
  have hread : (if Name.ofText? (getterText config d) = none then
      [GenerateError.invalidAccessor (getterText config d) d.name] else []) = [] ↔
      ∃ n, Name.ofText? (getterText config d) = some n := by
    cases Name.ofText? (getterText config d) <;> simp
  unfold faultsOf
  simp only [List.append_eq_nil_iff, hcollisions, hread, nameFaults_eq_nil, List.flatMap_eq_nil_iff]
  constructor
  · rintro ⟨hgeneric, hreserved, hgetter, hapart, hname, hmodules⟩
    refine ⟨⟨by simpa using hgeneric, by simpa using hreserved, hgetter, ?_⟩, hapart⟩
    exact List.forall_mem_cons.mpr ⟨hname, hmodules⟩
  · rintro ⟨⟨hgeneric, hreserved, hgetter, hnamed⟩, hapart⟩
    obtain ⟨hname, hmodules⟩ := List.forall_mem_cons.mp hnamed
    exact ⟨by simpa using hgeneric, by simpa using hreserved, hgetter, hapart, hname, hmodules⟩

theorem faultsAfter_eq_nil {before ds : List Descriptor} : faultsAfter config before ds = [] ↔
    (∀ d ∈ ds, Fit config d) ∧ (config.collision = .reject →
      (∀ d ∈ ds, getterText config d ∉ before.map (getterText config)) ∧
      (ds.map (getterText config)).Nodup) := by
  induction ds generalizing before with
  | nil => simp [faultsAfter]
  | cons d ds ih =>
    rw [faultsAfter, List.append_eq_nil_iff, faultsOf_eq_nil, ih, List.map_cons, List.nodup_cons,
      List.forall_mem_cons, List.forall_mem_cons]
    simp only [List.map_append, List.mem_append, List.map_cons, List.map_nil, List.mem_singleton]
    constructor
    · rintro ⟨⟨hd, hapart⟩, hds, hrest⟩
      refine ⟨⟨hd, hds⟩, fun hreject => ?_⟩
      obtain ⟨hbefore, hnodup⟩ := hrest hreject
      refine ⟨⟨hapart hreject, fun e he hmem => hbefore e he (.inl hmem)⟩, fun hmem => ?_, hnodup⟩
      obtain ⟨e, he, hsame⟩ := List.mem_map.mp hmem
      exact hbefore e he (.inr hsame)
    · rintro ⟨⟨hd, hds⟩, hall⟩
      refine ⟨⟨hd, fun hreject => (hall hreject).1.1⟩, hds, fun hreject => ?_⟩
      obtain ⟨⟨-, hbefore⟩, hnot, hnodup⟩ := hall hreject
      refine ⟨fun e he hmem => ?_, hnodup⟩
      rcases hmem with hmem | hsame
      · exact hbefore e he hmem
      · exact hnot (List.mem_map.mpr ⟨e, he, hsame⟩)

theorem faults_eq_nil {ds : List Descriptor} : faults config ds = [] ↔ Sound config ds := by
  rw [faults, settingFaults, List.append_eq_nil_iff, List.append_eq_nil_iff, pathFaults_eq_nil,
    pathFaults_eq_nil, faultsAfter_eq_nil]
  constructor
  · rintro ⟨⟨hruntime, hroot⟩, hfit, hapart⟩
    exact ⟨hruntime, hroot, hfit, fun hreject => (hapart hreject).2⟩
  · rintro ⟨hruntime, hroot, hfit, hapart⟩
    exact ⟨⟨hruntime, hroot⟩, hfit, fun hreject => ⟨by simp, hapart hreject⟩⟩

theorem faultsAfter_append (before ds more : List Descriptor) :
    faultsAfter config before (ds ++ more) =
      faultsAfter config before ds ++ faultsAfter config (before ++ ds) more := by
  induction ds generalizing before with
  | nil => simp [faultsAfter]
  | cons d ds ih =>
    rw [List.cons_append, faultsAfter, faultsAfter, ih, List.append_assoc, List.append_assoc]
    rfl

/-- The first fault is that of the first component that has one. -/
theorem exists_of_head?_faultsAfter {before ds : List Descriptor} {e : GenerateError}
    (h : (faultsAfter config before ds).head? = some e) : ∃ mid d after, ds = mid ++ d :: after ∧
      faultsAfter config before mid = [] ∧ (faultsOf config (before ++ mid) d).head? = some e := by
  induction ds generalizing before with
  | nil => cases h
  | cons d ds ih =>
    rw [faultsAfter, List.head?_append] at h
    cases hd : faultsOf config before d with
    | nil =>
      rw [hd] at h
      obtain ⟨mid, d', after, rfl, hmid, hfirst⟩ := ih (by simpa using h)
      refine ⟨d :: mid, d', after, rfl, ?_, by rwa [List.append_assoc] at hfirst⟩
      rw [faultsAfter, hd, hmid, List.append_nil]
    | cons first more =>
      rw [hd] at h
      exact ⟨[], d, ds, rfl, rfl, by rw [List.append_nil, hd]; simpa using h⟩

/-- What can be wrong with a component that comes after some others. -/
inductive Fault (config : Config) (before : List Descriptor) (d : Descriptor) : GenerateError → Prop
  | generic : d.generic = true → Fault config before d (.genericComponent d.name)
  | reserved : getterText config d ∈ reservedMethods →
    Fault config before d (.reservedAccessor (getterText config d) d.name)
  | unreadable : Name.ofText? (getterText config d) = none →
    Fault config before d (.invalidAccessor (getterText config d) d.name)
  | taken {owner : Descriptor} : config.collision = .reject →
    owner ∈ owners config (getterText config d) before →
    Fault config before d (.accessorCollision (getterText config d) owner.name d.name)
  | unnamed {role : PathRole} {name : String} : name ∈ d.name :: d.modulePath → named? name = none →
    Fault config before d (.invalidPath role name)

theorem fault_of_mem {before : List Descriptor} {d : Descriptor} {e : GenerateError}
    (h : e ∈ faultsOf config before d) : Fault config before d e := by
  have hnamed : ∀ {role name}, e ∈ nameFaults role name → e = .invalidPath role name ∧
      named? name = none := fun h => by
    rw [nameFaults, List.mem_ite_nil_right, List.mem_singleton] at h
    exact h.symm
  simp only [faultsOf, List.mem_append, List.mem_ite_nil_right, List.mem_singleton] at h
  rcases h with ⟨hgeneric, rfl⟩ | ⟨hreserved, rfl⟩ | ⟨hread, rfl⟩ | ⟨hreject, h⟩ | h | h
  · exact .generic hgeneric
  · exact .reserved (List.contains_iff_mem.mp hreserved)
  · exact .unreadable hread
  · obtain ⟨owner, howner, rfl⟩ := List.mem_map.mp h
    exact .taken hreject howner
  · obtain ⟨rfl, hnone⟩ := hnamed h
    exact .unnamed List.mem_cons_self hnone
  · obtain ⟨m, hm, h⟩ := List.mem_flatMap.mp h
    obtain ⟨rfl, hnone⟩ := hnamed h
    exact .unnamed (List.mem_cons_of_mem _ hm) hnone

/-- Of components with different getters only one has a certain getter. -/
theorem owners_eq_singleton {ds : List Descriptor} {getter : String} {owner : Descriptor}
    (hds : (ds.map (getterText config)).Nodup) (h : owner ∈ owners config getter ds) :
    owners config getter ds = [owner] := by
  have hget : ∀ d ∈ owners config getter ds, getterText config d = getter := fun d hd => by
    simpa using (List.mem_filter.mp hd).2
  have hapart : (owners config getter ds).Pairwise
      fun d d' => getterText config d ≠ getterText config d' :=
    (List.pairwise_map.mp hds).filter _
  match hall : owners config getter ds with
  | [] => rw [hall] at h; cases h
  | [d] => rw [hall] at h; rw [List.mem_singleton.mp h]
  | d :: d' :: more =>
    rw [hall] at hget hapart
    refine absurd ?_ (List.rel_of_pairwise_cons hapart List.mem_cons_self)
    rw [hget d List.mem_cons_self, hget d' (List.mem_cons_of_mem _ List.mem_cons_self)]

theorem build_eq_error_iff {set : AcceptedSet} {e : GenerateError} :
    build set config = .error e ↔ (faults config set.members).head? = some e :=
  (reports_build set config).error_iff

/-- The settings are at fault, or the first component that has a fault is. -/
theorem exists_of_build_error {set : AcceptedSet} {e : GenerateError}
    (h : build set config = .error e) : (settingFaults config).head? = some e ∨
      settingFaults config = [] ∧ ∃ before d after, set.members = before ++ d :: after ∧
        faultsAfter config [] before = [] ∧ (faultsOf config before d).head? = some e := by
  rw [build_eq_error_iff, faults, List.head?_append] at h
  cases hsettings : settingFaults config with
  | nil =>
    rw [hsettings, List.head?_nil, Option.none_or] at h
    exact .inr ⟨rfl, exists_of_head?_faultsAfter h⟩
  | cons first more =>
    rw [hsettings] at h
    exact .inl h

/-- A model is built if and only if nothing is wrong with the settings and the components, and else the
first fault is reported: of the two paths, and then of the first component that has one. The owner of a
getter that a later component wants, too, is the only one before it. With whatever components a set goes
on after the one that is at fault, the same is reported. -/
theorem build_reports_firstFault (set : AcceptedSet) (config : Config) :
    ((∃ model, build set config = .ok model) ↔ Sound config set.members) ∧
    (∀ e, build set config = .error e ↔ (faults config set.members).head? = some e) ∧
    (∀ getter first second, build set config = .error (.accessorCollision getter first second) →
      ∃ before d after owner, set.members = before ++ d :: after ∧ getterText config d = getter ∧
        owners config getter before = [owner] ∧ first = owner.name ∧ second = d.name) ∧
    ∀ e, build set config = .error e → (∀ other, build other config = .error e) ∨
      ∃ before d after, set.members = before ++ d :: after ∧
        (∀ other : AcceptedSet, other.members = before → ∃ model, build other config = .ok model) ∧
        ∀ other : AcceptedSet, before ++ [d] <+: other.members → build other config = .error e := by
  refine ⟨(reports_build set config).ok_iff.trans faults_eq_nil, fun _ => build_eq_error_iff,
    fun getter first second h => ?_, fun e h => ?_⟩
  · rcases exists_of_build_error h with h | ⟨-, before, d, after, hset, hbefore, h⟩
    · have hmem := List.mem_of_head? h
      simp [settingFaults, pathFaults] at hmem
    · cases fault_of_mem (List.mem_of_head? h) with
      | taken hreject howner =>
        have hapart := ((faultsAfter_eq_nil.mp hbefore).2 hreject).2
        exact ⟨before, d, after, _, hset, rfl, owners_eq_singleton hapart howner, rfl, rfl⟩
  · rcases exists_of_build_error h with h | ⟨hsettings, before, d, after, hset, hbefore, h⟩
    · refine .inl fun other => build_eq_error_iff.mpr ?_
      rw [faults, List.head?_append, h]
      rfl
    · refine .inr ⟨before, d, after, hset, fun other hother => ?_, fun other hother => ?_⟩
      · rw [(reports_build other config).ok_iff, hother, faults, hsettings, hbefore]
        rfl
      · obtain ⟨more, hmore⟩ := hother
        rw [build_eq_error_iff, ← hmore, faults, hsettings, List.append_assoc, faultsAfter_append,
          hbefore, List.nil_append, List.nil_append, List.nil_append, List.singleton_append,
          faultsAfter, List.head?_append, h]
        rfl

example : faults {} [⟨"HttpServer", [], false⟩, ⟨"HTTPServer", ["a b"], false⟩, ⟨"Mut", [], true⟩] =
    [.accessorCollision "get_http_server" "HttpServer" "HTTPServer", .invalidPath .moduleName "a b",
      .genericComponent "Mut", .reservedAccessor "get_mut" "Mut"] := by decide +kernel

end ComponentRegistry.Model
