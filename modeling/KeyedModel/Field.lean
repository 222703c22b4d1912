import KeyedModel.Text.Identifier

/-!
# Generated fields

A generated field holds a text. It has an identifier, spelled as it was written, and a key.
-/

namespace KeyedModel

/-- The name of the field that holds the identity of an instance. -/
def identityName : String := "id"

/-- A generated field: its identifier as written and its key. -/
structure Field where
  ident : String
  key : String
  deriving DecidableEq, Repr

namespace Field

/-- The field whose key is its identifier. -/
def verbatim (ident : String) : Field := ⟨ident, ident⟩

/-- The identifier without a raw mark. -/
def name (f : Field) : String := Text.unraw f.ident

end Field

end KeyedModel
