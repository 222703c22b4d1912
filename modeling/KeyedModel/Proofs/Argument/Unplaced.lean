import KeyedModel.Argument
import KeyedModel.Field.Rules
import KeyedModel.Proofs.Grammar.BlindItems

/-!
# Arguments without places

What an argument is read as, and the field that it describes, does not depend on where the argument
stands; neither does the fault of an argument that describes none.
-/

namespace KeyedModel

open Token (Tree)
open Grammar (ArgumentShape Placed Unplaced extent_unplaced)
open Grammar.Placed (unplaced)
open Grammar.Rule (extent)

set_option synthInstance.maxSize 10000000

/-! ### Reading an argument -/

instance : Placed ArgumentShape where
  unplaced
    | .literal trees => .literal (unplaced trees)
    | .path words => .path (unplaced words)
    | .list words group => .list (unplaced words) (unplaced group)
    | .assigned words isLiteral value => .assigned (unplaced words) isLiteral (unplaced value)

section

variable {trees trees' words words' : List Tree} [htrees : Unplaced trees trees']
  [hwords : Unplaced words words']

instance : Unplaced (ArgumentShape.literal trees) (.literal trees') :=
  ⟨congrArg ArgumentShape.literal htrees.eq⟩

instance : Unplaced (ArgumentShape.path words) (.path words') :=
  ⟨congrArg ArgumentShape.path hwords.eq⟩

instance : Unplaced (ArgumentShape.list words trees) (.list words' trees') :=
  ⟨congrArg₂ ArgumentShape.list hwords.eq htrees.eq⟩

instance {isLiteral isLiteral' : Bool} [h : Unplaced isLiteral isLiteral'] :
    Unplaced (ArgumentShape.assigned words isLiteral trees) (.assigned words' isLiteral' trees') :=
  ⟨by rw [hwords.eq, h.eq, htrees.eq]; rfl⟩

end

namespace Grammar.Rule

instance : argumentPath.Blind := by unfold argumentPath; infer_instance
instance : literalFollows.Blind := by unfold literalFollows; infer_instance
instance : argument.Blind := by unfold argument; infer_instance

end Grammar.Rule

/-! ### What an argument describes -/

instance : Placed TextLiteral := ⟨fun literal => { literal with place := none }⟩
instance : Placed ArgumentError := ⟨fun e => { e with place := none }⟩

instance : Placed Argument where
  unplaced
    | .positional literal => .positional (unplaced literal)
    | .labeled label literal => .labeled label (unplaced literal)

theorem kindOf_unplaced (trees : List Tree) : kindOf (unplaced trees) = kindOf trees := by
  rcases trees with _ | ⟨_ | _ | _ | _, _ | ⟨_ | _ | _ | _, _ | _⟩⟩ <;> rfl

theorem TextLiteral.ofTrees_unplaced (trees : List Tree) :
    ofTrees (unplaced trees) = unplaced (ofTrees trees) := by
  unfold ofTrees
  rw [kindOf_unplaced, extent_unplaced]
  rcases trees with _ | ⟨_ | _ | _ | _, _ | _⟩ <;> cases kindOf _ <;> rfl

/-- An argument is the same but for its places, and so is an error. -/
theorem Argument.ofShape_unplaced (shape : ArgumentShape) :
    ofShape (unplaced shape) = unplaced (ofShape shape) := by
  have herror (fault : ArgumentFault) (trees : List Tree) :
      (.error ⟨fault, extent (unplaced trees)⟩ : Except ArgumentError Argument) =
        unplaced (.error ⟨fault, extent trees⟩ : Except ArgumentError Argument) := by
    rw [extent_unplaced]
    rfl
  have hmap (trees : List Tree) (form : TextLiteral → Argument)
      (hform : ∀ literal, form (unplaced literal) = unplaced (form literal)) :
      (TextLiteral.ofTrees (unplaced trees)).map form =
        unplaced ((TextLiteral.ofTrees trees).map form) := by
    rw [TextLiteral.ofTrees_unplaced]
    cases TextLiteral.ofTrees trees with
    | error e => rfl
    | ok literal => exact congrArg Except.ok (hform literal)
  cases shape with
  | literal trees => exact hmap trees _ fun _ => rfl
  | path words => exact herror _ words
  | list words group =>
    have := herror .list (words ++ group)
    rwa [Grammar.unplaced_append] at this
  | assigned words isLiteral value =>
    rcases words with _ | ⟨t, more⟩
    · exact herror _ []
    cases t with
    | ident label place =>
      cases more with
      | nil =>
        cases isLiteral with
        | true => exact hmap value _ fun _ => rfl
        | false => exact herror _ value
      | cons u more => cases isLiteral <;> exact herror _ (.ident label place :: u :: more)
    | punct c spacing place => exact herror _ (.punct c spacing place :: more)
    | literal text place => exact herror _ (.literal text place :: more)
    | group d opening inner closed => exact herror _ (.group d opening inner closed :: more)

theorem Field.ofArgument_unplaced (argument : Argument) :
    ofArgument (unplaced argument) = ofArgument argument := by
  cases argument <;> rfl

/-- What an argument of this shape describes, wherever it stands. -/
def Grammar.ArgumentShape.described (shape : ArgumentShape) :
    Except ArgumentFault (Except FieldFault Field) :=
  ((Argument.ofShape shape).mapError ArgumentError.fault).map Field.ofArgument

theorem Grammar.ArgumentShape.described_unplaced (shape : ArgumentShape) :
    (unplaced shape).described = shape.described := by
  rw [described, described, Argument.ofShape_unplaced]
  cases Argument.ofShape shape with
  | error e => rfl
  | ok argument => exact congrArg Except.ok (Field.ofArgument_unplaced argument)

end KeyedModel
