import ComponentRegistry.Generation.Model
import ComponentRegistry.Registry.Basic

/-! What a generated module does when it runs. Its enumeration has a variant for each entry of the
model, and its registry hands on what it is asked to the one of the runtime library. -/

namespace ComponentRegistry

namespace Model

/-- A value of the enumeration, if the component types of the entries are these. -/
structure Component (model : Model) (types : Fin model.entries.length → Type) where
  entry : Fin model.entries.length
  value : types entry

namespace Component

variable {model : Model} {types : Fin model.entries.length → Type}

instance : ComponentSet (model.Component types) where
  typeName c := (model.entries.get c.entry).name

/-- What the variant of an entry holds; nothing of any other variant. -/
def project? (entry : Fin model.entries.length) (c : model.Component types) :
    Option (types entry) :=
  if h : c.entry = entry then some (h ▸ c.value) else none

instance (entry : Fin model.entries.length) : Member (types entry) (model.Component types) where
  embed value := ⟨entry, value⟩
  project := project? entry
  project_embed _ := by simp [project?]
  embed_project {c value} h := by
    obtain ⟨_, _⟩ := c
    simp only [project?] at h
    split at h
    next heq =>
      subst heq
      exact congrArg _ (Option.some.inj h).symm
    next => cases h

end Component

end Model

namespace Registry

/-- The registry of a generated module, over its enumeration. -/
structure Generated (γ : Type) where
  inner : Registry γ

namespace Generated

variable {γ : Type}

def empty : Generated γ := ⟨.empty⟩

def register (r : Generated γ) (name : String) (c : γ) : Option γ × Generated γ :=
  ((r.inner.register name c).1, ⟨(r.inner.register name c).2⟩)

def get? (τ : Type) [Member τ γ] (r : Generated γ) (name : String) : Option τ :=
  r.inner.get? τ name

def update? {τ : Type} [Member τ γ] (r : Generated γ) (name : String) (change : τ → τ) :
    Option (τ × Generated γ) :=
  (r.inner.update? name change).map fun (found, inner) => (found, ⟨inner⟩)

def size (r : Generated γ) : Nat := r.inner.size

def isEmpty (r : Generated γ) : Bool := r.inner.isEmpty

def listAll [ComponentSet γ] (r : Generated γ) : List Listing := r.inner.listAll

/-- The typed getter of an entry that has one. -/
def getter? {model : Model} {types : Fin model.entries.length → Type}
    (r : Generated (model.Component types)) (entry : Fin model.entries.length) :
    Option (String → Option (types entry)) :=
  (model.entries.get entry).accessor.map fun _ => r.get? (types entry)

end Generated

end Registry

end ComponentRegistry
