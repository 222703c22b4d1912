import KeyedModel.Text.Json
import KeyedModel.Text.Quoted

/-!
# Field descriptors and failed look-ups

A generated field is described by its name and by the key it is stored under. Looking up a key that
no field has is the only failure of a model at run time.
-/

namespace KeyedModel

/-- A generated field: its name and the key it is stored under. -/
structure Descriptor where
  name : String
  key : String
  deriving DecidableEq, Repr

namespace Descriptor

/-- Whether the key is the name itself. -/
def isVerbatim (d : Descriptor) : Bool := d.name == d.key

/-- The name alone when the key repeats it, otherwise the name with the key in parentheses. -/
def display (d : Descriptor) : String :=
  if d.isVerbatim then d.name else d.name ++ " (" ++ d.key ++ ")"

/-- The descriptor as a JSON object. -/
def json (d : Descriptor) : String :=
  Text.Json.object [("name", d.name), ("key", d.key)]

end Descriptor

/-- The failure of writing under a key that no generated field of the model has. -/
structure UnknownKey where
  schema : String
  key : String
  deriving DecidableEq, Repr

namespace UnknownKey

/-- The failure in words. -/
def message (e : UnknownKey) : String :=
  "model `" ++ e.schema ++ "` has no field with key `" ++ e.key ++ "`"

/-- The failure as a value, with its parts quoted. -/
def debug (e : UnknownKey) : String :=
  "UnknownKey \x7b schema: " ++ Text.quoteDisplay e.schema ++ ", key: " ++
    Text.quoteDisplay e.key ++ " \x7d"

end UnknownKey

end KeyedModel
