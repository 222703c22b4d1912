import KeyedModel.Generated.Tokens
import KeyedModel.Grammar.Declaring
import KeyedModel.Grammar.Language

/-!
# Assembling generated code

Two things can stop the assembly of the tokens. The names of fields and functions are words made from
texts, which must be identifiers. And every new field of the struct is put together from tokens and
then read as a field, as if it had been written by hand.
-/

namespace KeyedModel

open Token (Tree word group)
open Grammar (StructItem OwnField)

namespace Grammar.Rule

/-- The name and the type of a field. There is a name if a word that is no keyword comes with a colon
behind it; otherwise the type comes at once. -/
def nameAndType : Rule Unit := do
  if (← next .name) && (← second (.op ":")) && !(← second (.op "::")) then
    name
    op ":"
  phrase_ (.type true)

/-- A field outside of a struct. -/
def loneField : Rule Unit := do
  attributes
  visibility
  nameAndType

end Grammar.Rule

namespace Generated

/-- The word with a spelling, which must be an identifier. -/
def wordOf? (spelling : String) : Option Tree :=
  if Text.isIdentifier spelling then some (word spelling) else none

/-- The words with some spellings. -/
def wordsOf? (spellings : List String) : Option (List Tree) := spellings.mapM wordOf?

/-- A new field of the struct, put together and read. -/
def assembleMember? (visibility : List Tree) (m : Member) : Option (List Tree) := do
  let _ ← wordOf? m.ident
  match Grammar.readAll .loneField (member visibility m) with
  | .ok (_, printed) => some printed
  | .error _ => none

/-- The spellings of the names in a constructor. -/
def constructorSpellings (fields : List Field) (c : Constructor) : List String :=
  c.name :: c.params.map Param.name ++ identityName :: fields.map Field.ident

/-- The spellings of the names in the implementation of the interface, and in its descriptors. -/
def interfaceSpellings (fields : List Field) : List String :=
  identityName :: fields.map Field.ident ++ fields.map Field.name

/-- The generated code, if nothing stops its assembly. -/
def assemble? (item : StructItem) (expansion : Expansion) : Option (List Tree) := do
  let added ← (expansion.declarations.filterMap Declaration.member?).mapM
    (assembleMember? item.visibility)
  let _ ← (expansion.constructors.map (constructorSpellings expansion.fields)).mapM wordsOf?
  let _ ← wordsOf? (interfaceSpellings expansion.fields)
  let g := of item expansion
  return item.header ++ item.whereClause ++
    [group .brace (separated (added ++ item.ownFields.map OwnField.trees))] ++
    g.inherentTrees ++ g.interfaceTrees

end Generated

end KeyedModel
