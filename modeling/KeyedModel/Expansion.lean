import KeyedModel.Declaration

/-!
# Expansion of a request

A request names the model and lists its fields. For a target that can become a model the expansion
is the schema, the identity, the fields in order, and the two constructors; any other target is
refused before the fields are looked at.
-/

namespace KeyedModel

/-- What the attribute was put on: a struct that can become a model, or something else. -/
inductive Target where
  | model
  | other (found : String)
  deriving DecidableEq, Repr

/-- Everything that determines an expansion. -/
structure Request where
  target : Target
  name : String
  fields : List Field
  deriving DecidableEq, Repr

/-- The refusal of a target that cannot become a model. -/
structure InvalidTarget where
  found : String
  deriving DecidableEq, Repr

/-- The refusal in words. -/
def InvalidTarget.message (e : InvalidTarget) : String :=
  "#[model] can only be applied to structs with named fields, found " ++ e.found

/-- The declarations of a model, in order. -/
structure Expansion where
  declarations : List Declaration
  deriving DecidableEq, Repr

namespace Expansion

/-- The value of the schema constant; empty if there is none. -/
def schema (e : Expansion) : String := (e.declarations.findSome? Declaration.schema?).getD ""

/-- The generated fields, in order. -/
def fields (e : Expansion) : List Field := e.declarations.filterMap Declaration.field?

/-- The constructors, in order. -/
def constructors (e : Expansion) : List Constructor :=
  e.declarations.filterMap Declaration.constructor?

/-- Every declaration as text. -/
def texts (e : Expansion) : List String := e.declarations.map Declaration.text

/-- The declarations of a model with the given name and fields. -/
def ofFields (name : String) (fields : List Field) : Expansion :=
  ⟨.schema name :: .identity :: (fields.map .field ++
    [.constructor .empty, .constructor (.full fields)])⟩

end Expansion

/-- The declarations that the request asks for. -/
def Request.expand (r : Request) : Except InvalidTarget Expansion :=
  match r.target with
  | .model => .ok (.ofFields r.name r.fields)
  | .other found => .error ⟨found⟩

end KeyedModel
