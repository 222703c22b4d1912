import KeyedModel.Attribute
import KeyedModel.Instance
import KeyedModel.SourcedExpr

/-!
# Sample models

A few models that use the attribute in all its ways, with the defaults of the fields that were
written by hand, and a sample of an expression with its source.
-/

namespace KeyedModel

open Token (lex)

/-- The default of a field that was written by hand. -/
inductive DefaultValue where
  | zero
  | emptyList
  deriving DecidableEq, Repr

/-- A model as its source: the arguments of the attribute, the struct, and the defaults of the
fields that were written by hand. -/
structure Sample where
  name : String
  arguments : String
  item : String
  defaults : List DefaultValue
  deriving DecidableEq, Repr

namespace Sample

/-- The sample models. -/
def all : List Sample :=
  [⟨"Test", "field1 = \"Hello\", field2 = \"Test\", field3 = \"Again\"",
      "struct Test \x7b\x7d", []⟩,
    ⟨"Empty", "", "struct Empty;", []⟩,
    ⟨"Post", "\"title\", body = \"Body\"", "struct Post \x7b views: u32, tags: Vec<String> \x7d",
      [.zero, .emptyList]⟩,
    ⟨"Näme", "name = \"display name\"", "struct Näme \x7b\x7d", []⟩,
    ⟨"Tagged", "label = \"Label\"", "struct Tagged<T, const N: usize> \x7b payload: T \x7d",
      [.zero]⟩,
    ⟨"Swap",
      "a = \"b\", b = \"a\", r#type = \"type\", \"r#match\", " ++
        "key = \" Key \", é = \"É\\n\\\"q\\\"\\\\\"",
      "struct r#Swap \x7b\x7d", []⟩]

/-- The sample with a name. -/
def find? (name : String) : Option Sample := all.find? (·.name == name)

/-- The generated code of a sample. -/
def generated? (s : Sample) : Option Generated := do
  let arguments ← lex "arguments" s.arguments
  let item ← lex "item" s.item
  let (item, _) ← (Grammar.readItem item).toOption
  match item with
  | .struct struct =>
    let expansion ← (Expansion.of arguments item).toOption
    (Generated.of? struct expansion).toOption
  | .other _ _ => none

end Sample

/-- The value of a sum of two numbers, and the text of the sum. -/
def sampleSum (a b : Nat) : Nat × String :=
  let source := toString a ++ " + " ++ toString b
  (a + b,
    match (lex "expression" source).map Grammar.readExpr with
    | some (.ok expr) => Token.text expr
    | _ => source)

end KeyedModel
