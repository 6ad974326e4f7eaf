import ComponentRegistry.Registry.Generated
import Mathlib.Data.Finset.Card

/-! Registries over their history. What a registry shows after any registrations and updates is what
these have come to under each name, in the order of first registration (`Registry.Store.Reflects`). The
invariant is `Registry.Tracks`, and a registry that hands on to another one shows what that one does. -/

namespace ComponentRegistry

/-- The types of a closed set of components. Every component is of exactly one kind, and the name of
its type tells which. -/
structure Kinds (γ : Type) [ComponentSet γ] where
  Kind : Type
  type : Kind → Type
  name : Kind → String
  kind : γ → Kind
  member (k : Kind) : Member (type k) γ
  name_injective {k l : Kind} : name k = name l → k = l
  typeName_eq (c : γ) : ComponentSet.typeName c = name (kind c)
  project_isSome_iff (k : Kind) (c : γ) : ((member k).project c).isSome = true ↔ kind c = k

instance {γ : Type} [ComponentSet γ] (K : Kinds γ) (k : K.Kind) : Member (K.type k) γ := K.member k

namespace Registry

/-- A change of a registry. An update is made through a reference to a component of its type. -/
inductive Change (γ : Type) : Type 1
  | register (name : String) (c : γ)
  | update {τ : Type} [Member τ γ] (name : String) (f : τ → τ)

namespace Change

variable {γ : Type}

def registered? : Change γ → Option String
  | register name _ => some name
  | update .. => none

/-- The component with the value of a type changed, if it is of that type. -/
def updated {τ : Type} [Member τ γ] (f : τ → τ) (c : γ) : γ :=
  match Member.project (τ := τ) c with
  | some t => Member.embed (f t)
  | none => c

/-- What a change makes of the component under a name. -/
def effect (name : String) (known : Option γ) : Change γ → Option γ
  | register other c => if other = name then some c else known
  | update other f => if other = name then known.map (updated f) else known

end Change

section
variable {γ : Type}

/-- The names that have been registered, in the order in which they first were. -/
def registered (changes : List (Change γ)) : List String :=
  (changes.filterMap Change.registered?).eraseDups

/-- What has been registered last under a name, with all updates since. -/
def current (changes : List (Change γ)) (name : String) : Option γ :=
  changes.foldl (Change.effect name) none

/-- What can be done with a registry, whether used directly or through a generated module. -/
class Store (ρ : Type) (γ : outParam Type) : Type 1 where
  empty : ρ
  register : ρ → String → γ → Option γ × ρ
  get? (τ : Type) [Member τ γ] : ρ → String → Option τ
  update? {τ : Type} [Member τ γ] : ρ → String → (τ → τ) → Option (τ × ρ)
  size : ρ → Nat
  isEmpty : ρ → Bool
  listAll [ComponentSet γ] : ρ → List Listing

instance : Store (Registry γ) γ where
  empty := empty
  register := register
  get? τ := get? τ
  update? := update?
  size := size
  isEmpty := isEmpty
  listAll := listAll

instance : Store (Generated γ) γ where
  empty := Generated.empty
  register := Generated.register
  get? τ := Generated.get? τ
  update? := Generated.update?
  size := Generated.size
  isEmpty := Generated.isEmpty
  listAll := Generated.listAll

namespace Store

variable {ρ : Type} [Store ρ γ]

/-- An update that does not come upon a component of its type leaves everything as it is. -/
def make (r : ρ) : Change γ → ρ
  | .register name c => (register r name c).2
  | @Change.update _ τ _ name f =>
    match update? (τ := τ) r name f with
    | some (_, updated) => updated
    | none => r

def after (r : ρ) (changes : List (Change γ)) : ρ := changes.foldl make r

variable {r : ρ} {τ : Type} [Member τ γ] {name : String} {f : τ → τ}

theorem make_update_of_none (h : update? r name f = none) : make r (.update name f) = r := by
  simp only [make, h]

theorem make_update_of_some {t : τ} {updated : ρ} (h : update? r name f = some (t, updated)) :
    make r (.update name f) = updated := by
  simp only [make, h]

end Store

end

open Store (make after)

variable {γ : Type} {r : Registry γ} {done : List (Change γ)} {name other : String} {c : γ}

theorem find?_put (entries : List (String × γ)) :
    ((put name c entries).find? (·.1 == other)).map (·.2) =
      if name = other then some c else (entries.find? (·.1 == other)).map (·.2) := by
  induction entries with
  | nil => by_cases h : name = other <;> simp [put, h]
  | cons e entries ih =>
    rw [put]
    split
    next heq =>
      subst heq
      by_cases h : e.1 = other <;> simp [h]
    next hne =>
      by_cases h : e.1 = other
      · have hother : ¬name = other := fun heq => hne (h.trans heq.symm)
        simp [h, hother]
      · simpa [h] using ih

/-- A component that is there already is replaced in its place. -/
theorem put_of_mem {entries : List (String × γ)} (hdistinct : (entries.map (·.1)).Nodup)
    (h : name ∈ entries.map (·.1)) :
    put name c entries = entries.map fun e => if e.1 = name then (name, c) else e := by
  induction entries with
  | nil => cases h
  | cons e entries ih =>
    obtain ⟨hnew, hdistinct⟩ := List.nodup_cons.mp hdistinct
    rw [put, List.map_cons]
    split
    next heq =>
      subst heq
      have hsame : entries.map (fun o => if o.1 = e.1 then (e.1, c) else o) = entries := by
        refine (List.map_congr_left fun o ho => if_neg fun heq => hnew ?_).trans (List.map_id _)
        exact List.mem_map.mpr ⟨o, ho, heq⟩
      rw [hsame]
    next hne =>
      have hrest : name ∈ entries.map (·.1) := (List.mem_cons.mp h).resolve_left (Ne.symm hne)
      rw [ih hdistinct hrest]

theorem component?_register :
    (r.register name c).2.component? other = if name = other then some c else r.component? other :=
  find?_put r.entries

theorem contains_iff : r.contains name = true ↔ name ∈ r.entries.map (·.1) := by
  rw [contains, component?, Option.isSome_map, List.find?_isSome, List.mem_map]
  simp

/-- Putting a component in the place of another one keeps the names. -/
theorem names_register (h : r.contains name = true) :
    (r.register name c).2.entries.map (·.1) = r.entries.map (·.1) := by
  rw [register, names_put, if_pos (contains_iff.mp h)]

theorem listAll_register [ComponentSet γ] (h : r.contains name = true) :
    (r.register name c).2.listAll = r.listAll.map fun l =>
      if l.name = name then ⟨name, ComponentSet.typeName c⟩ else l := by
  have hentries := put_of_mem (c := c) r.distinct (contains_iff.mp h)
  refine (congrArg (List.map _) hentries).trans ?_
  rw [listAll, List.map_map, List.map_map]
  refine List.map_congr_left fun e _ => ?_
  by_cases heq : e.1 = name <;> simp [heq]

theorem mem_entries_iff : (name, c) ∈ r.entries ↔ r.component? name = some c := by
  obtain ⟨entries, hdistinct⟩ := r
  rw [component?]
  induction entries with
  | nil => simp
  | cons e entries ih =>
    obtain ⟨hnew, hdistinct⟩ := List.nodup_cons.mp hdistinct
    rw [List.mem_cons, ih hdistinct]
    by_cases h : e.1 = name
    · have hnone : entries.find? (·.1 == name) = none := by
        refine List.find?_eq_none.mpr fun other hother heq => hnew (List.mem_map.mpr ?_)
        exact ⟨other, hother, (beq_iff_eq.mp heq).trans h.symm⟩
      simp [h, hnone, Prod.ext_iff, eq_comm]
    · simp [h, Prod.ext_iff, Ne.symm h]

variable {τ : Type} [Member τ γ] {f : τ → τ}

theorem contains_of_get? {t : τ} (h : r.get? τ name = some t) : r.contains name = true := by
  obtain ⟨c, hc, -⟩ := Option.bind_eq_some_iff.mp h
  rw [contains, hc]
  rfl

theorem get?_register_self : (r.register name c).2.get? τ name = Member.project c := by
  rw [get?, component?_register, if_pos rfl]
  rfl

theorem get?_register_of_ne (h : name ≠ other) :
    (r.register name c).2.get? τ other = r.get? τ other := by
  rw [get?, component?_register, if_neg h, get?]

theorem update?_of_none (h : r.get? τ name = none) : r.update? name f = none := by
  rw [update?, h]
  rfl

theorem update?_of_some {t : τ} (h : r.get? τ name = some t) :
    r.update? name f = some (t, (r.register name (Member.embed (f t))).2) := by
  rw [update?, h]
  rfl

/-- An update changes the component of its name, if that is of its type. -/
theorem component?_update : (make r (.update name f)).component? other =
    if name = other then (r.component? other).map (Change.updated f) else r.component? other := by
  cases hget : r.get? τ name with
  | none =>
    rw [Store.make_update_of_none (update?_of_none hget)]
    split
    next heq =>
      subst heq
      cases hc : r.component? name with
      | none => rfl
      | some c =>
        have hproject : Member.project (τ := τ) c = none := by simpa [get?, hc] using hget
        simp [Change.updated, hproject]
    next => rfl
  | some t =>
    obtain ⟨c, hc, hproject⟩ := Option.bind_eq_some_iff.mp hget
    rw [Store.make_update_of_some (update?_of_some hget), component?_register]
    split
    next heq =>
      subst heq
      simp [hc, Change.updated, hproject]
    next => rfl

theorem names_update :
    (make r (.update name f)).entries.map (·.1) = r.entries.map (·.1) := by
  cases hget : r.get? τ name with
  | none => rw [Store.make_update_of_none (update?_of_none hget)]
  | some t => rw [Store.make_update_of_some (update?_of_some hget), names_register (contains_of_get? hget)]

/-- The registry has the names that have been registered, and under each what it has come to. -/
structure Tracks (r : Registry γ) (done : List (Change γ)) : Prop where
  names : r.entries.map (·.1) = registered done
  component : ∀ name, r.component? name = current done name

theorem tracks_empty : (empty : Registry γ).Tracks [] := ⟨rfl, fun _ => rfl⟩

theorem eraseDups_concat (names : List String) : (names ++ [name]).eraseDups =
    if name ∈ names.eraseDups then names.eraseDups else names.eraseDups ++ [name] := by
  rw [List.eraseDups_append]
  simp only [List.mem_eraseDups]
  split
  next hold => simp [List.removeAll, hold]
  next hnew => simp [List.removeAll, hnew, List.eraseDups_cons]

theorem Tracks.make (h : r.Tracks done) (change : Change γ) :
    (make r change).Tracks (done ++ [change]) := by
  cases change with
  | register name c =>
    refine ⟨?_, fun other => ?_⟩
    · rw [registered, List.filterMap_append]
      refine Eq.trans ?_ (eraseDups_concat _).symm
      rw [← registered, ← h.names]
      exact names_put name c r.entries
    · rw [current, List.foldl_append]
      refine component?_register.trans ?_
      rw [h.component]
      rfl
  | update name f =>
    refine ⟨?_, fun other => ?_⟩
    · rw [names_update, h.names, registered, registered, List.filterMap_append]
      exact congrArg List.eraseDups (List.append_nil _).symm
    · rw [current, List.foldl_append, component?_update, h.component]
      rfl

theorem Tracks.after (h : r.Tracks done) (changes : List (Change γ)) :
    (after r changes).Tracks (done ++ changes) := by
  induction changes generalizing r done with
  | nil => rwa [List.append_nil]
  | cons change changes ih =>
    have hrest := ih (h.make change)
    rwa [List.append_assoc] at hrest

theorem Tracks.names_listAll [ComponentSet γ] (h : r.Tracks done) :
    r.listAll.map Listing.name = registered done := by
  rw [← h.names, listAll, List.map_map]
  rfl

theorem Tracks.mem_listAll [ComponentSet γ] (h : r.Tracks done) {l : Listing} :
    l ∈ r.listAll ↔ ∃ c, current done l.name = some c ∧ ComponentSet.typeName c = l.typeName := by
  rw [listAll, List.mem_map]
  constructor
  · rintro ⟨⟨name, c⟩, hmem, rfl⟩
    exact ⟨c, h.component name ▸ mem_entries_iff.mp hmem, rfl⟩
  · rintro ⟨c, hc, htype⟩
    refine ⟨(l.name, c), mem_entries_iff.mpr ((h.component _).trans hc), ?_⟩
    exact congrArg (Listing.mk l.name) htype

theorem Tracks.current_isSome_iff (h : r.Tracks done) :
    (current done name).isSome = true ↔ name ∈ registered done := by
  rw [← h.names, ← contains_iff, contains, h.component]

theorem Tracks.size_eq (h : r.Tracks done) :
    r.size = (done.filterMap Change.registered?).toFinset.card := by
  have hsame : (done.filterMap Change.registered?).toFinset = (registered done).toFinset := by
    ext name
    simp [registered]
  have hdistinct : (registered done).Nodup := h.names ▸ r.distinct
  rw [hsame, List.toFinset_card_of_nodup hdistinct, ← h.names, List.length_map, size]

theorem Tracks.get?_eq_some_iff (h : r.Tracks done) {t : τ} :
    r.get? τ name = some t ↔ current done name = some (Member.embed t) := by
  rw [get?, h.component, Option.bind_eq_bind, Option.bind_eq_some_iff]
  constructor
  · rintro ⟨c, hc, hproject⟩
    rw [hc, Member.embed_project hproject]
  · exact fun hc => ⟨_, hc, Member.project_embed t⟩

/-- A registered name can be got as one type only, which is the one that it is listed with. -/
theorem Tracks.resolves [ComponentSet γ] (h : r.Tracks done) (K : Kinds γ)
    (hname : name ∈ registered done) : ∃ k, ∀ l,
      ((r.get? (K.type l) name).isSome = true ↔ l = k) ∧ (⟨name, K.name l⟩ ∈ r.listAll ↔ l = k) := by
  obtain ⟨c, hc⟩ := Option.isSome_iff_exists.mp (h.current_isSome_iff.mpr hname)
  refine ⟨K.kind c, fun l => ⟨?_, ?_⟩⟩
  · rw [get?, h.component, hc]
    exact (K.project_isSome_iff l c).trans eq_comm
  · rw [h.mem_listAll]
    constructor
    · rintro ⟨c', hc', htype⟩
      obtain rfl := Option.some.inj (hc.symm.trans hc')
      exact K.name_injective (htype.symm.trans (K.typeName_eq c))
    · rintro rfl
      exact ⟨c, hc, K.typeName_eq c⟩

namespace Store

variable {ρ : Type} [Store ρ γ]

/-- A registry that hands on all it is asked to another one. -/
structure Delegates (inner : ρ → Registry γ) : Prop where
  empty : inner empty = empty
  register (r : ρ) (name : String) (c : γ) :
    ((register r name c).1, inner (register r name c).2) = register (inner r) name c
  get? (τ : Type) [Member τ γ] (r : ρ) (name : String) : get? τ r name = get? τ (inner r) name
  update? {τ : Type} [Member τ γ] (r : ρ) (name : String) (f : τ → τ) :
    (update? r name f).map (Prod.map id inner) = update? (inner r) name f
  size (r : ρ) : size r = size (inner r)
  isEmpty (r : ρ) : isEmpty r = isEmpty (inner r)
  listAll [ComponentSet γ] (r : ρ) : listAll r = listAll (inner r)

theorem delegates_self : Delegates (id : Registry γ → Registry γ) where
  empty := rfl
  register _ _ _ := rfl
  get? _ _ _ _ := rfl
  update? _ _ _ := by rw [Prod.map_id, Option.map_id, id, id]
  size _ := rfl
  isEmpty _ := rfl
  listAll _ := rfl

theorem delegates_generated : Delegates (Generated.inner (γ := γ)) where
  empty := rfl
  register _ _ _ := rfl
  get? _ _ _ _ := rfl
  update? r name f := by
    refine (Option.map_map ..).trans ?_
    exact congrFun Option.map_id (r.inner.update? name f)
  size _ := rfl
  isEmpty _ := rfl
  listAll _ := rfl

variable {inner : ρ → Registry γ}

theorem Delegates.make (h : Delegates inner) (r : ρ) (change : Change γ) :
    inner (Store.make r change) = Store.make (inner r) change := by
  cases change with
  | register name c => exact congrArg Prod.snd (h.register r name c)
  | update name f =>
    simp only [Store.make, ← h.update?]
    cases Store.update? r name f <;> rfl

theorem Delegates.after (h : Delegates inner) (r : ρ) (changes : List (Change γ)) :
    inner (Store.after r changes) = Store.after (inner r) changes := by
  induction changes generalizing r with
  | nil => rfl
  | cons change changes ih => exact (ih _).trans (congrArg (Store.after · changes) (h.make r change))

/-- What a registry shows is what the changes have come to. An update succeeds for exactly those
types for which there is something to get, and then only its name shows something else. -/
structure Reflects [ComponentSet γ] (r : ρ) (done : List (Change γ)) : Prop where
  names : (listAll r).map Listing.name = registered done
  distinct : (registered done).Nodup
  known (name : String) : (current done name).isSome = true ↔ name ∈ registered done
  listed (l : Listing) : l ∈ listAll r ↔
    ∃ c, current done l.name = some c ∧ ComponentSet.typeName c = l.typeName
  replaced (name : String) (c : γ) : (register r name c).1 = current done name
  size : size r = (done.filterMap Change.registered?).toFinset.card
  isEmpty : isEmpty r = true ↔ registered done = []
  found (τ : Type) [Member τ γ] (name : String) (t : τ) :
    get? τ r name = some t ↔ current done name = some (Member.embed t)
  resolved (K : Kinds γ) (name : String) : name ∈ registered done → ∃ k, ∀ l,
    ((get? (K.type l) r name).isSome = true ↔ l = k) ∧ (⟨name, K.name l⟩ ∈ listAll r ↔ l = k)
  refused (τ : Type) [Member τ γ] (name : String) (f : τ → τ) : get? τ r name = none →
    update? r name f = none ∧ make r (.update name f) = r
  updated (τ : Type) [Member τ γ] (name : String) (f : τ → τ) (t : τ) : get? τ r name = some t →
    update? r name f = some (t, make r (.update name f)) ∧
    get? τ (make r (.update name f)) name = some (f t) ∧
    listAll (make r (.update name f)) = (listAll r).map (fun l =>
      if l.name = name then ⟨name, ComponentSet.typeName (Member.embed (f t) : γ)⟩ else l) ∧
    ∀ (σ : Type) [Member σ γ] (other : String), other ≠ name →
      get? σ (make r (.update name f)) other = get? σ r other

theorem reflects_of_tracks [ComponentSet γ] (hd : Delegates inner) {r : ρ}
    (h : (inner r).Tracks done) : Reflects r done where
  names := hd.listAll r ▸ h.names_listAll
  distinct := h.names ▸ (inner r).distinct
  known _ := h.current_isSome_iff
  listed _ := hd.listAll r ▸ h.mem_listAll
  replaced name c := (congrArg Prod.fst (hd.register r name c)).trans (h.component name)
  size := (hd.size r).trans h.size_eq
  isEmpty := by
    rw [hd.isEmpty, ← h.names, List.map_eq_nil_iff]
    exact List.isEmpty_iff
  found τ _ name t := hd.get? τ r name ▸ h.get?_eq_some_iff
  resolved K name hname := by
    obtain ⟨k, honly⟩ := h.resolves K hname
    refine ⟨k, fun l => ?_⟩
    rw [hd.get?, hd.listAll]
    exact honly l
  refused τ _ name f hnone := by
    rw [hd.get?] at hnone
    have hupdate : update? r name f = none :=
      Option.map_eq_none_iff.mp ((hd.update? r name f).trans (update?_of_none hnone))
    exact ⟨hupdate, make_update_of_none hupdate⟩
  updated τ _ name f t hsome := by
    rw [hd.get?] at hsome
    obtain ⟨⟨found, next⟩, hupdate, hnext⟩ :=
      Option.map_eq_some_iff.mp ((hd.update? r name f).trans (update?_of_some hsome))
    obtain ⟨rfl, hinner⟩ := Prod.mk.inj hnext
    rw [make_update_of_some hupdate]
    refine ⟨hupdate, ?_, ?_, fun σ _ other hother => ?_⟩
    · rw [hd.get?, hinner]
      exact get?_register_self.trans (Member.project_embed _)
    · rw [hd.listAll, hd.listAll, hinner]
      exact listAll_register (contains_of_get? hsome)
    · rw [hd.get?, hd.get?, hinner]
      exact get?_register_of_ne (Ne.symm hother)

theorem reflects_after [ComponentSet γ] (hd : Delegates inner) (changes : List (Change γ)) :
    Reflects (after (empty : ρ) changes) changes := by
  refine reflects_of_tracks hd ?_
  rw [hd.after, hd.empty]
  exact tracks_empty.after changes

end Store

end Registry

end ComponentRegistry
