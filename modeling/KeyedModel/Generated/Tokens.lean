import KeyedModel.Generated.Basic
import KeyedModel.Token.Printer

/-!
# Generated code as tokens

The struct with its new fields, an implementation with the schema name and the constructors, and the
implementation of the model's interface.
-/

namespace KeyedModel

open Token (Tree sign operator word group lifetime)
open Text (quoteLiteral)

namespace Generated

/-! ### Phrases -/

/-- A string literal. -/
def quoted (text : String) : Tree := Token.literal (quoteLiteral text)

/-- Words with a separator between them. -/
def joined : List String → List Tree
  | [] => []
  | [w] => [word w]
  | w :: rest => word w :: operator [':', ':'] ++ joined rest

/-- A path from the root of all crates. -/
def absolute (words : List String) : List Tree := operator [':', ':'] ++ joined words

/-- Types as arguments of a type. -/
def applied (name argument : List Tree) : List Tree := name ++ sign '<' :: (argument ++ [sign '>'])

/-- The interface crate's path to one of its names. -/
def interface (name : String) : List Tree := absolute ["blueprint_core", name]

/-- The type of a value that may be missing. -/
def optionOf (argument : List Tree) : List Tree :=
  applied (absolute ["core", "option", "Option"]) argument

/-- The type of the identity. -/
def identityType : List Tree := optionOf (interface "Uuid")

/-- The type of a generated field. -/
def textType : List Tree := absolute ["std", "string", "String"]

/-- A shared reference. -/
def borrowed (type : List Tree) : List Tree := sign '&' :: type

/-- An exclusive reference. -/
def borrowedMut (type : List Tree) : List Tree := sign '&' :: word "mut" :: type

/-- A reference that never ends. -/
def static (type : List Tree) : List Tree := sign '&' :: (lifetime "static" ++ type)

/-- An attribute. -/
def outerAttribute (body : List Tree) : List Tree := [sign '#', group .bracket body]

/-- A documentation attribute. -/
def documentation (text : Tree) : List Tree := outerAttribute [word "doc", sign '=', text]

/-- An attribute that allows what a linter would report. -/
def allowing (lint : String) : List Tree :=
  outerAttribute [word "allow", group .paren (joined ["clippy", lint])]

/-- Trees with a comma between them. -/
def separated : List (List Tree) → List Tree
  | [] => []
  | [trees] => trees
  | trees :: rest => trees ++ sign ',' :: separated rest

/-- Trees with a comma behind each. -/
def terminated (elements : List (List Tree)) : List Tree := elements.flatMap (· ++ [sign ','])

/-! ### The struct -/

/-- A field of the struct; a generated one has the visibility of the struct. -/
def member (visibility : List Tree) : Member → List Tree
  | .identity =>
    documentation (Token.literal "r\" Identity of this model, `None` until assigned.\"") ++
      visibility ++ word identityName :: sign ':' :: identityType
  | .generated f =>
    documentation (quoted ("Backing key: `" ++ f.key ++ "`.")) ++ visibility ++
      word f.ident :: sign ':' :: textType
  | .own f => f.trees

/-- The struct with all its fields. -/
def structTrees (g : Generated) : List Tree :=
  g.item.header ++ g.item.whereClause ++
    [group .brace (separated (g.members.map (member g.item.visibility)))]

/-! ### The constructors -/

/-- A parameter. -/
def param (p : Param) : List Tree :=
  word p.name :: sign ':' ::
    match p with
    | .identity => identityType
    | .field _ => textType

/-- An initial value with the name of its field. -/
def initializer (i : Initializer) : List Tree :=
  match i.value with
  | .parameter => [word i.ident]
  | .noIdentity => word i.ident :: sign ':' :: absolute ["core", "option", "Option", "None"]
  | .emptyText =>
    word i.ident :: sign ':' :: (absolute ["std", "string", "String", "new"] ++ [group .paren []])
  | .default =>
    word i.ident :: sign ':' ::
      (absolute ["core", "default", "Default", "default"] ++ [group .paren []])

/-- What the documentation says of a constructor. -/
def constructorDoc : ConstructorKind → String
  | .empty => "Create an instance with every field at its default."
  | .full => "Create an instance from an identity and every generated field."

/-- A constructor. -/
def constructor (c : ConstructorCode) : List Tree :=
  documentation (quoted (constructorDoc c.kind)) ++ outerAttribute [word "must_use"] ++
    allowing "too_many_arguments" ++
    [word "pub", word "fn", word c.name, group .paren (separated (c.params.map param))] ++
    operator ['-', '>'] ++
    [word "Self",
      group .brace
        [word "Self", group .brace (terminated (c.initializers.map initializer))]]

/-! ### The implementations -/

/-- The head of an implementation: its parameters, the interface if there is one, and the struct. -/
def implementation (g : Generated) (interface : List Tree) (body : List Tree) : List Tree :=
  word "impl" :: g.item.generics.withoutDefaults ++ interface ++
    word g.item.name :: g.item.generics.asArguments ++ g.item.whereClause ++ [group .brace body]

/-- The schema name and the constructors. -/
def inherentTrees (g : Generated) : List Tree :=
  allowing "new_without_default" ++
    g.implementation []
      (documentation (quoted ("Schema name of `" ++ g.item.name ++ "`.")) ++
        [word "pub", word "const", word "SCHEMA", sign ':'] ++ static [word "str"] ++
        [sign '=', quoted g.schema, sign ';'] ++ g.constructors.flatMap constructor)

/-- A descriptor. -/
def descriptor (d : Descriptor) : List Tree :=
  absolute ["blueprint_core", "FieldKey", "new"] ++
    [group .paren [quoted d.name, sign ',', quoted d.key]]

/-- A method of the interface. -/
def method (name : String) (params result body : List Tree) : List Tree :=
  [word "fn", word name, group .paren params] ++ result ++ [group .brace body]

/-- What a function gives. -/
def giving (type : List Tree) : List Tree := operator ['-', '>'] ++ type

/-- A member of the instance. -/
def selfMember (ident : String) : List Tree := [word "self", sign '.', word ident]

/-- The case of a field's key. -/
def choiceArm (value : String → List Tree) (s : KeyedSlot) : List Tree :=
  quoted s.key :: operator ['=', '>'] ++ absolute ["core", "option", "Option", "Some"] ++
    [group .paren (value s.ident), sign ',']

/-- The choice of a field by its key. -/
def choice (value : String → List Tree) (slots : List KeyedSlot) : List Tree :=
  [word "match", word "key",
    group .brace
      (slots.flatMap (choiceArm value) ++
        word "_" :: operator ['=', '>'] ++ absolute ["core", "option", "Option", "None"])]

/-- The key as a parameter. -/
def keyParam : List Tree := [word "key", sign ':'] ++ borrowed [word "str"]

/-- The implementation of the interface. -/
def interfaceTrees (g : Generated) : List Tree :=
  g.implementation (interface "Model" ++ [word "for"])
    ([word "const", word "SCHEMA", sign ':'] ++ static [word "str"] ++ sign '=' ::
        joined ["Self", "SCHEMA"] ++ [sign ';'] ++
      [word "const", word "FIELDS", sign ':'] ++ static [group .bracket (interface "FieldKey")] ++
        sign '=' :: borrowed [group .bracket (separated (g.descriptors.map descriptor))] ++
        [sign ';'] ++
      method "id" (borrowed [word "self"]) (giving identityType) (selfMember identityName) ++
      method "set_id"
        (borrowedMut [word "self"] ++ [sign ',', word "id", sign ':'] ++ identityType) []
        (selfMember identityName ++ [sign '=', word "id", sign ';']) ++
      method "value" (borrowed [word "self"] ++ sign ',' :: keyParam)
        (giving (optionOf (borrowed [word "str"])))
        (choice
          (fun ident => selfMember ident ++ [sign '.', word "as_str", group .paren []]) g.slots) ++
      method "value_mut" (borrowedMut [word "self"] ++ sign ',' :: keyParam)
        (giving (optionOf (borrowedMut textType)))
        (choice (fun ident => borrowedMut (selfMember ident)) g.slots))

/-- The generated code. -/
def trees (g : Generated) : List Tree := g.structTrees ++ g.inherentTrees ++ g.interfaceTrees

end Generated

end KeyedModel
