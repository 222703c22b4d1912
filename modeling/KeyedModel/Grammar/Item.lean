import KeyedModel.Grammar.Generics

/-!
# Items as values

An item is a struct, which is known in all its parts, or something else, of which the kind and the
name are known. A struct prints from its parts.
-/

namespace KeyedModel.Grammar

open Token (Tree sign word group)

/-- A field of a struct in braces: what stands in front of its name, the name, and the colon with
the type. -/
structure OwnField where
  attributes : List Tree
  visibility : List Tree
  ident : String
  typed : List Tree
  deriving Repr

namespace OwnField

/-- The field as it prints. -/
def trees (f : OwnField) : List Tree :=
  f.attributes ++ f.visibility ++ word f.ident :: f.typed

end OwnField

/-- The fields of a struct. -/
inductive StructBody where
  | named (fields : List (Rule.Listed OwnField))
  | tuple (fields : List Tree)
  | unit
  deriving Repr

/-- A struct. -/
structure StructItem where
  attributes : List Tree
  visibility : List Tree
  name : String
  generics : GenericParams
  whereClause : List Tree
  body : StructBody
  deriving Repr

namespace StructItem

/-- Everything in front of the where clause. -/
def header (s : StructItem) : List Tree :=
  s.attributes ++ s.visibility ++ word "struct" :: word s.name :: s.generics.declared

/-- The fields with names, in order. -/
def ownFields (s : StructItem) : List OwnField :=
  match s.body with
  | .named fields => fields.map (·.element)
  | _ => []

/-- The struct as it prints. -/
def trees (s : StructItem) : List Tree :=
  match s.body with
  | .named fields =>
    s.header ++ s.whereClause ++
      [group .brace (fields.flatMap fun f => f.element.trees ++ f.comma)]
  | .tuple fields => s.header ++ group .paren fields :: (s.whereClause ++ [sign ';'])
  | .unit => s.header ++ s.whereClause ++ [sign ';']

end StructItem

/-- The kinds of items besides structs. -/
inductive ItemKind where
  | enumeration
  | union
  | trait
  | traitAlias
  | function
  | implementation
  | module
  | typeAlias
  | constant
  | static
  | importing
  | macroCall
  | foreignCrate
  | foreignBlock
  /-- An item that is kept as it was written. -/
  | asWritten
  deriving DecidableEq, Repr

/-- The name of a kind of items. -/
def ItemKind.found : ItemKind → String
  | enumeration => "enum"
  | union => "union"
  | trait => "trait"
  | traitAlias => "trait alias"
  | function => "function"
  | implementation => "impl block"
  | module => "module"
  | typeAlias => "type alias"
  | constant => "constant"
  | static => "static"
  | importing => "use declaration"
  | macroCall => "macro invocation"
  | foreignCrate => "extern crate"
  | foreignBlock => "extern block"
  | asWritten => "item"

/-- An item. -/
inductive Item where
  | struct (item : StructItem)
  | other (kind : ItemKind) (name : String)
  deriving Repr

namespace Item

/-- Whether the item is kept as it was written. -/
def isAsWritten : Item → Bool
  | other .asWritten _ => true
  | _ => false

/-- The name that the item declares, as it was written; empty if it declares none. -/
def name : Item → String
  | struct s => s.name
  | other _ name => name

end Item

end KeyedModel.Grammar
