import KeyedModel.Grammar.Expression
import KeyedModel.Proofs.Grammar.BlindTypes

/-!
# Patterns and expressions without places

Patterns and expressions are read without places as with them. A number that stands for a position
is printed at the place where it was written, and where a range is refused later is in its shape.
-/

namespace KeyedModel.Grammar

open Token (Tree Place)
open Placed (unplaced)

set_option synthInstance.maxSize 10000000

namespace Rule

/-! ### Generic parameters -/

instance (after : Nat) : (opensGenerics after).Blind := by unfold opensGenerics; infer_instance

/-! ### Patterns -/

/-- What position a number stands for does not depend on where it is. -/
theorem position_unplaced (trees : List Tree) :
    position (unplaced trees) = unplaced (position trees) := by
  have hsigned (sign : Tree) (text : String) (spot : Place) :
      position [unplaced sign, .literal text none] =
        unplaced (position [sign, .literal text spot]) := by
    cases sign <;>
      simp only [position, unplaced_ident, unplaced_punct, unplaced_literal, unplaced_group] <;>
      cases Token.tupleIndex text.toList with
      | ok n => rfl
      | error fault => cases fault <;> rfl
  rcases trees with _ | ⟨first, _ | ⟨second, _ | _⟩⟩
  · rfl
  · cases first with
    | literal text spot =>
      simp only [position, unplaced_cons, unplaced_literal, unplaced_nil]
      cases Token.tupleIndex text.toList <;> rfl
    | _ => rfl
  · cases second with
    | literal text spot => exact hsigned first text spot
    | _ => cases first <;> rfl
  · cases first <;> cases second <;> rfl

instance : member.Blind := by
  unfold member
  refine unplaces_bind inferInstance fun named => unplaces_ite inferInstance inferInstance
    (unplaces_bind inferInstance fun number => unplaces_ite inferInstance
      (unplaces_bind inferInstance fun (_, trees) => ?_) inferInstance)
  simp only [unplaced_pair, position_unplaced]
  cases position trees <;> simp only [unplaced_ok, unplaced_error] <;> infer_instance

instance : rangeLimits.Blind := by unfold rangeLimits; infer_instance

instance {trees trees' : List Tree} [h : Unplaced trees trees'] :
    Unplaced (patternLimits.closedDots trees) (patternLimits.closedDots trees') where
  eq := by
    rw [h.eq]
    rcases trees with _ | ⟨_, _ | ⟨_, _ | ⟨_ | _ | _ | _, _ | _⟩⟩⟩ <;> rfl

instance : patternLimits.Blind := by unfold patternLimits; infer_instance
instance : rangeBound.Blind := by unfold rangeBound; infer_instance
instance : acceptRangeBound.Blind := by unfold acceptRangeBound; infer_instance
instance : rangeTail.Blind := by unfold rangeTail; infer_instance
instance : openRange.Blind := by unfold openRange; infer_instance
instance : fieldPattern.Blind := by unfold fieldPattern; infer_instance
instance : fieldPatterns.Blind := by unfold fieldPatterns; infer_instance
instance : pathPattern.Blind := by unfold pathPattern; infer_instance

instance : sliceElement.Blind := by
  unfold sliceElement
  refine unplaces_bind inferInstance fun shape => ?_
  cases shape <;> simp only [Shape.unplaced_self, Shape.unplaced_openRange] <;> infer_instance

instance : bindingPattern.Blind := by unfold bindingPattern; infer_instance
instance : startsPathPattern.Blind := by unfold startsPathPattern; infer_instance
instance : pattern.Blind := by unfold pattern; infer_instance
instance : alternativeFollows.Blind := by unfold alternativeFollows; infer_instance
instance : patterns.Blind := by unfold patterns; infer_instance

end Rule

instance {shape shape' : Shape} [h : Unplaced shape shape'] :
    Unplaced shape.isRange shape'.isRange where
  eq := by rw [h.eq]; cases shape <;> rfl

namespace Rule

/-! ### Binary operators -/

instance (operators : List (String × Precedence)) : (nextOf operators).Blind := by
  induction operators <;> unfold nextOf <;> infer_instance

instance : nextBinary.Blind := by unfold nextBinary; infer_instance
instance : nextPrecedence.Blind := by unfold nextPrecedence; infer_instance
instance (braces : Bool) : (rangeStops braces).Blind := by unfold rangeStops; infer_instance

instance (closed braces : Bool) : (rangeEnd closed braces).Blind := by
  unfold rangeEnd; infer_instance

instance : castEnd.Blind := by unfold castEnd; infer_instance

instance {left left' : Shape} [Unplaced left left'] (base : Precedence) (braces : Bool) :
    (exprFrom left base braces).Unplaces (exprFrom left' base braces) := by
  unfold exprFrom; infer_instance

instance (precedence : Precedence) (braces : Bool) :
    (rightOperand precedence braces).Blind := by
  unfold rightOperand; infer_instance

/-! ### What follows an atom directly -/

instance : callArguments.Blind := by unfold callArguments; infer_instance

theorem dottedPositions_unplaced (spot : Place) (pieces : List (List Char)) :
    dottedPositions none pieces = unplaced (dottedPositions spot pieces) := by
  fun_induction dottedPositions spot pieces with
  | case1 => rfl
  | case2 => rfl
  | case3 piece hne n hn => simp [dottedPositions, hn]
  | case4 piece hne fault hn => simp [dottedPositions, hn]
  | case5 piece rest h h' n hn ih =>
    simp only [dottedPositions, hn, ih]
    rcases dottedPositions spot rest with e | ⟨more, dangling⟩ <;> simp [Except.map]
  | case6 piece rest h h' fault hn => simp [dottedPositions, hn]

theorem positions_unplaced (trees : List Tree) :
    positions (unplaced trees) = unplaced (positions trees) := by
  rcases trees with _ | ⟨_ | _ | ⟨text, spot⟩ | _, _ | _⟩
  case cons.literal.nil => exact dottedPositions_unplaced spot _
  all_goals rfl

instance : memberAccess.Blind := by
  unfold memberAccess
  refine unplaces_bind inferInstance fun number => unplaces_ite inferInstance
    (unplaces_bind inferInstance fun (_, trees) => ?_) inferInstance
  simp only [unplaced_pair, positions_unplaced]
  cases positions trees <;> simp only [unplaced_ok, unplaced_error] <;> infer_instance

instance {atom atom' : Shape} [Unplaced atom atom'] :
    (trailers atom).Unplaces (trailers atom') := by
  unfold trailers; infer_instance

/-! ### Atoms -/

instance : beginsExpr.Blind := by unfold beginsExpr; infer_instance
instance : fieldValues.Blind := by unfold fieldValues; infer_instance
instance (braces : Bool) : (pathExpr braces).Blind := by unfold pathExpr; infer_instance
instance : bindsClosure.Blind := by unfold bindsClosure; infer_instance
instance : startsClosure.Blind := by unfold startsClosure; infer_instance
instance : closureParameter.Blind := by unfold closureParameter; infer_instance
instance : closureParameters.Blind := by unfold closureParameters; infer_instance
instance (braces : Bool) : (closure braces).Blind := by unfold closure; infer_instance
instance : parenExpr.Blind := by unfold parenExpr; infer_instance
instance : arrayExpr.Blind := by unfold arrayExpr; infer_instance
instance : arm.Blind := by unfold arm; infer_instance
instance : matchBody.Blind := by unfold matchBody; infer_instance
instance : conditional.Blind := by unfold conditional; infer_instance
instance : acceptLoop.Blind := by unfold acceptLoop; infer_instance
instance : labeled.Blind := by unfold labeled; infer_instance
instance : acceptBlockLike.Blind := by unfold acceptBlockLike; infer_instance
instance (braces : Bool) : (breakExpr braces).Blind := by unfold breakExpr; infer_instance
instance : acceptWritten.Blind := by unfold acceptWritten; infer_instance
instance : startsAsync.Blind := by unfold startsAsync; infer_instance
instance : startsPath.Blind := by unfold startsPath; infer_instance
instance (braces : Bool) : (atom braces).Blind := by unfold atom; infer_instance
instance (braces : Bool) : (operand braces).Blind := by
  unfold operand
  have hatom (attributed : Bool) : Blind (do
      let shape ← trailers (← atom braces)
      match shape with
      | .openRange dots =>
        if attributed then .failAt dots .attributeOnRange
        return shape
      | _ => return shape) := by
    refine unplaces_bind inferInstance fun first => unplaces_bind inferInstance fun shape => ?_
    cases shape <;> simp only [Shape.unplaced_self, Shape.unplaced_openRange] <;> infer_instance
  infer_instance

instance (braces : Bool) : (expr braces).Blind := by unfold expr; infer_instance

instance {attributes attributes' : List Tree} [Unplaced attributes attributes'] :
    (boundaryExpr attributes).Unplaces (boundaryExpr attributes') := by
  unfold boundaryExpr; infer_instance

instance : statementExpr.Blind := by unfold statementExpr; infer_instance

end Rule

end KeyedModel.Grammar
