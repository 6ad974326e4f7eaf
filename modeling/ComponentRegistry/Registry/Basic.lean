import ComponentRegistry.Text.Quoted

/-! Registries at run time: components under names, in the order in which the names were first
registered. The last component registered under a name counts. -/

namespace ComponentRegistry

/-- A closed set of component types. -/
class ComponentSet (γ : Type) where
  /-- The name of the type of a component. -/
  typeName : γ → String

/-- A type of components that is one of those in a set. -/
class Member (τ γ : Type) where
  embed : τ → γ
  project : γ → Option τ
  project_embed (t : τ) : project (embed t) = some t
  embed_project {c : γ} {t : τ} : project c = some t → embed t = c

structure Listing where
  name : String
  typeName : String
  deriving DecidableEq, Repr

def Listing.text (listing : Listing) : String := listing.name ++ ": " ++ listing.typeName

structure Registry (γ : Type) where
  entries : List (String × γ)
  distinct : (entries.map (·.1)).Nodup

namespace Registry

variable {γ : Type}

def empty : Registry γ := ⟨[], .nil⟩

instance : Inhabited (Registry γ) := ⟨empty⟩

/-- A component in the place of the one with the same name, else at the end. -/
def put (name : String) (c : γ) : List (String × γ) → List (String × γ)
  | [] => [(name, c)]
  | (other, found) :: rest =>
    if other = name then (name, c) :: rest else (other, found) :: put name c rest

theorem names_put (name : String) (c : γ) (entries : List (String × γ)) :
    (put name c entries).map (·.1) =
      if name ∈ entries.map (·.1) then entries.map (·.1) else entries.map (·.1) ++ [name] := by
  induction entries with
  | nil => simp [put]
  | cons hd tl ih =>
    unfold put
    split
    · simp_all
    · rename_i h
      simp only [List.map_cons, ih, List.mem_cons, Ne.symm h, false_or]
      split <;> simp

theorem distinct_put (name : String) (c : γ) {entries : List (String × γ)}
    (h : (entries.map (·.1)).Nodup) : ((put name c entries).map (·.1)).Nodup := by
  rw [names_put]
  split
  · exact h
  · rename_i hn
    refine List.nodup_append.mpr ⟨h, by simp, fun a ha b hb => ?_⟩
    rintro rfl
    exact hn (List.mem_singleton.mp hb ▸ ha)

/-- The component under a name. -/
def component? (r : Registry γ) (name : String) : Option γ :=
  (r.entries.find? (·.1 == name)).map (·.2)

/-- Put a component under a name; the one that was there before is given back. -/
def register (r : Registry γ) (name : String) (c : γ) : Option γ × Registry γ :=
  (r.component? name, ⟨put name c r.entries, distinct_put name c r.distinct⟩)

/-- The component under a name if it is of the type `τ`. -/
def get? (τ : Type) [Member τ γ] (r : Registry γ) (name : String) : Option τ :=
  r.component? name >>= Member.project

/-- Change a component in its place if it is of the type `τ`; the old one is given back. -/
def update? {τ : Type} [Member τ γ] (r : Registry γ) (name : String) (change : τ → τ) :
    Option (τ × Registry γ) :=
  (r.get? τ name).map fun found => (found, (r.register name (Member.embed (change found))).2)

def contains (r : Registry γ) (name : String) : Bool := (r.component? name).isSome

def size (r : Registry γ) : Nat := r.entries.length

def isEmpty (r : Registry γ) : Bool := r.entries.isEmpty

/-- All names with the types of their components, in the order of first registration. -/
def listAll [ComponentSet γ] (r : Registry γ) : List Listing :=
  r.entries.map fun (name, c) => ⟨name, ComponentSet.typeName c⟩

/-- A listing of the whole registry. -/
def shown (component : γ → String) (r : Registry γ) : String :=
  "Registry \x7b entries: \x7b" ++
    ", ".intercalate (r.entries.map fun (name, c) => Text.shown name ++ ": " ++ component c) ++
    "\x7d \x7d"

end Registry

end ComponentRegistry
