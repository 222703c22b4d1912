import KeyedModel.Descriptor
import KeyedModel.Expansion
import KeyedModel.Grammar.Item

/-!
# Generated code

What an expansion makes of a struct, as values: the fields of the struct, two constructors that
initialise all of them, the descriptors of the generated fields, and the table that leads from a key
to the field stored under it.
-/

namespace KeyedModel

open Grammar (OwnField StructItem)

/-- A field of the struct that a model becomes. -/
inductive Member where
  | identity
  | generated (field : Field)
  /-- A field that was written by hand. -/
  | own (field : OwnField)
  deriving Repr

/-- The name of the field. -/
def Member.ident : Member → String
  | identity => identityName
  | generated f => f.ident
  | own f => f.ident

/-- The generated field that a declaration stands for. -/
def Declaration.member? : Declaration → Option Member
  | identity => some .identity
  | field f => some (.generated f)
  | _ => none

/-- What a constructor puts into a field. -/
inductive InitialValue where
  /-- The parameter of the same name. -/
  | parameter
  | noIdentity
  | emptyText
  /-- The default value of the field's type. -/
  | default
  deriving DecidableEq, Repr

/-- The initial value of one field. -/
structure Initializer where
  ident : String
  value : InitialValue
  deriving DecidableEq, Repr

/-- A constructor of the generated code. -/
structure ConstructorCode where
  kind : ConstructorKind
  name : String
  params : List Param
  initializers : List Initializer
  deriving DecidableEq, Repr

/-- The constructor for a struct with the given generated fields and fields of its own. A generated
field takes its parameter if the declaration assigns it, and otherwise starts empty. -/
def ConstructorCode.of (constructor : Constructor) (fields : List Field) (own : List String) :
    ConstructorCode :=
  let assigned := constructor.assigned
  let initial (ident : String) (otherwise : InitialValue) : Initializer :=
    ⟨ident, if assigned.contains ident then .parameter else otherwise⟩
  ⟨constructor.kind, constructor.name, constructor.params,
    initial identityName .noIdentity :: (fields.map fun f => initial f.ident .emptyText) ++
      own.map (⟨·, .default⟩)⟩

/-- The field that is stored under a key. -/
structure KeyedSlot where
  key : String
  ident : String
  deriving DecidableEq, Repr

/-- The code that a struct and an expansion make up. -/
structure Generated where
  item : StructItem
  schema : String
  members : List Member
  constructors : List ConstructorCode
  descriptors : List Descriptor
  slots : List KeyedSlot
  deriving Repr

/-- The identifier of a generated field cannot be written as one. -/
structure UnusableIdent where
  ident : String
  deriving DecidableEq, Repr

namespace Generated

/-- The code for a struct, whatever the identifiers of its fields. -/
def of (item : StructItem) (expansion : Expansion) : Generated where
  item := item
  schema := expansion.schema
  members := expansion.declarations.filterMap Declaration.member? ++ item.ownFields.map .own
  constructors := expansion.constructors.map fun c =>
    .of c expansion.fields (item.ownFields.map (·.ident))
  descriptors := expansion.fields.map fun f => ⟨f.name, f.key⟩
  slots := expansion.fields.map fun f => ⟨f.key, f.ident⟩

/-- The code for a struct, if the identifiers of all fields can be declared. -/
def of? (item : StructItem) (expansion : Expansion) : Except UnusableIdent Generated :=
  match expansion.fields.find? fun f => !Text.isDeclarable f.ident with
  | some f => .error ⟨f.ident⟩
  | none => .ok (of item expansion)

end Generated

end KeyedModel
