import KeyedModel.Generated.Basic
import KeyedModel.Uuid

/-!
# Instances of a model

What the generated code does when it runs. A constructor evaluates its initial values with its
parameters bound; a key leads through the table of slots to a field, whose text is read or replaced.
Fields written by hand start at their defaults and no operation changes them, so an instance does
not mention them.
-/

namespace KeyedModel

/-- A value of a generated field or of a parameter. -/
inductive FieldValue where
  | identity (id : Option Uuid)
  | text (text : String)
  deriving DecidableEq, Repr

/-- The values of names, the nearest first. -/
abbrev Bindings := List (String × FieldValue)

namespace Bindings

/-- The identity under a name; none if the name has no identity. -/
def identity (b : Bindings) (name : String) : Option Uuid :=
  match b.lookup name with
  | some (.identity id) => id
  | _ => none

/-- The text under a name; empty if the name has no text. -/
def text (b : Bindings) (name : String) : String :=
  match b.lookup name with
  | some (.text t) => t
  | _ => ""

end Bindings

/-- An instance: the values of the identity and of the generated fields, by name and in order. -/
structure Instance where
  values : Bindings
  deriving DecidableEq, Repr

/-- Binds the parameters of a constructor; texts go to the field parameters in order. -/
def Param.bind (id : Option Uuid) : List Param → List String → Bindings
  | [], _ => []
  | .identity :: params, texts => (identityName, .identity id) :: bind id params texts
  | .field f :: params, t :: texts => (f.ident, .text t) :: bind id params texts
  | .field _ :: params, [] => bind id params []

/-- The value of an initialised field, unless it is one written by hand. -/
def Initializer.value? (parameters : Bindings) (i : Initializer) : Option (String × FieldValue) :=
  match i.value with
  | .parameter => (parameters.lookup i.ident).map (i.ident, ·)
  | .noIdentity => some (i.ident, .identity none)
  | .emptyText => some (i.ident, .text "")
  | .default => none

/-- What a constructor makes of its arguments. -/
def ConstructorCode.run (c : ConstructorCode) (id : Option Uuid) (texts : List String) : Instance :=
  ⟨c.initializers.filterMap (Initializer.value? (Param.bind id c.params texts))⟩

namespace Instance

/-- The identity. -/
def identity (x : Instance) : Option Uuid := x.values.identity identityName

/-- Replaces the value under a name. -/
def replace (x : Instance) (ident : String) (value : FieldValue) : Instance :=
  ⟨x.values.map fun entry => if entry.1 == ident then (ident, value) else entry⟩

/-- Replaces the identity. -/
def setIdentity (x : Instance) (id : Option Uuid) : Instance :=
  x.replace identityName (.identity id)

end Instance

namespace Generated

/-- The instance that a constructor of the given kind makes. -/
def construct (g : Generated) (kind : ConstructorKind) (id : Option Uuid) (texts : List String) :
    Instance :=
  match g.constructors.find? (·.kind == kind) with
  | some c => c.run id texts
  | none => ⟨[]⟩

/-- The instance with every field at its default. -/
def new (g : Generated) : Instance := g.construct .empty none []

/-- The instance with the given identity and texts. -/
def withFields (g : Generated) (id : Option Uuid) (texts : List String) : Instance :=
  g.construct .full id texts

/-- The name of the field that is stored under a key. -/
def identOf? (g : Generated) (key : String) : Option String :=
  (g.slots.find? (·.key == key)).map (·.ident)

/-- The text that is stored under a key. -/
def value? (g : Generated) (x : Instance) (key : String) : Option String :=
  (g.identOf? key).map x.values.text

/-- Changes the text that is stored under a key. -/
def modify? (g : Generated) (x : Instance) (key : String) (change : String → String) :
    Option Instance :=
  (g.identOf? key).map fun ident => x.replace ident (.text (change (x.values.text ident)))

/-- Replaces the text that is stored under a key. -/
def setValue (g : Generated) (x : Instance) (key text : String) : Except UnknownKey Instance :=
  match g.modify? x key fun _ => text with
  | some y => .ok y
  | none => .error ⟨g.schema, key⟩

/-- All keys, in order. -/
def keys (g : Generated) : List String := g.descriptors.map (·.key)

/-- The descriptor of the field that is stored under a key. -/
def descriptor? (g : Generated) (key : String) : Option Descriptor :=
  g.descriptors.find? (·.key == key)

/-- The texts of all generated fields, in order. -/
def texts (g : Generated) (x : Instance) : List String := g.slots.map fun s => x.values.text s.ident

end Generated

end KeyedModel
