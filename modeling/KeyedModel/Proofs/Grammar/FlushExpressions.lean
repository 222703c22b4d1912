import KeyedModel.Proofs.Grammar.FlushTypes

/-!
# Expressions are printed where they were taken

The first token of an expression is printed first and its last one last, so the extent of what is
printed is the extent of what was taken.
-/

namespace KeyedModel.Grammar

open Token (Tree Place Delimiter)

set_option synthInstance.maxSize 1000000

variable {α : Type} {trees : List Tree} {side : Side}

namespace Rule

variable (braces : Bool) (left : Shape) (precedence : Precedence)

/-! ### At the front -/

instance : attributes.Flush side := by unfold attributes; infer_instance
instance : block.Flush side := by unfold block; infer_instance
instance : attributedBlock.Flush side := by unfold attributedBlock; infer_instance
instance (inExpr : Bool) : (segment inExpr).Flush .front := by unfold segment; infer_instance
instance (inExpr : Bool) : (path inExpr).Flush .front := by unfold path; infer_instance

instance (inExpr : Bool) : (qualifiedPath inExpr).Flush .front := by
  unfold qualifiedPath; infer_instance

instance : valuePath.Flush .front := by unfold valuePath; infer_instance
instance : (pathExpr braces).Flush .front := by unfold pathExpr; infer_instance
instance : acceptBinder.Flush .front := by unfold acceptBinder binder; infer_instance
instance : (closure braces).Flush .front := by unfold closure; infer_instance
instance : parenExpr.Flush side := by unfold parenExpr; infer_instance
instance : arrayExpr.Flush side := by unfold arrayExpr; infer_instance
instance : callArguments.Flush side := by unfold callArguments; infer_instance
instance : conditional.Flush side := by unfold conditional; infer_instance
instance : acceptLoop.Flush .front := by unfold acceptLoop; infer_instance
instance : labeled.Flush .front := by unfold labeled; infer_instance
instance : acceptBlockLike.Flush .front := by unfold acceptBlockLike; infer_instance
instance : acceptWritten.Flush .front := by unfold acceptWritten; infer_instance
instance : (breakExpr braces).Flush .front := by unfold breakExpr; infer_instance
instance : rangeLimits.Flush side := by unfold rangeLimits; infer_instance

instance (closed : Bool) : (rangeEnd closed braces).Flush side := by
  unfold rangeEnd; infer_instance

instance : (atom braces).Flush .front := by unfold atom; infer_instance
instance : (trailers left).Flush .front := by unfold trailers; infer_instance
instance : (operand braces).Flush .front := by unfold operand; infer_instance
instance : (exprFrom left precedence braces).Flush .front := by unfold exprFrom; infer_instance

/-! ### At the back -/

instance : (pathExpr braces).Flush .back := by unfold pathExpr; infer_instance
instance : (closure braces).Flush .back := by unfold closure; infer_instance
instance : matchBody.Flush side := by unfold matchBody; infer_instance
instance : acceptLoop.Flush .back := by unfold acceptLoop; infer_instance
instance : labeled.Flush .back := by unfold labeled; infer_instance
instance : acceptBlockLike.Flush .back := by unfold acceptBlockLike; infer_instance
instance : acceptWritten.Flush .back := by unfold acceptWritten; infer_instance
instance : (breakExpr braces).Flush .back := by unfold breakExpr; infer_instance
instance : (atom braces).Flush .back := by unfold atom; infer_instance

/-- The decimal spelling of a position stands where the number was. -/
theorem position_flush {taken decimal : List Tree} (h : position taken = .ok decimal) :
    side.Flush decimal taken := by
  unfold position at h
  split at h
  · split at h
    · cases h
      exact Side.flush_of_places rfl
    · cases h
  · split at h <;> cases h
  · cases h

instance : member.Flush .back := by
  unfold member
  have hposition : Flush .back (do
      let (_, trees) ← held (token .intLiteral)
      match position trees with
      | .ok decimal => emit decimal
      | .error cause => .failAt (extent trees) cause
      return false) := by
    refine ((carries_held inferInstance).bind fun (_, trees) => ?_).flush
    dsimp only
    split
    · rename_i decimal hdecimal
      exact (carries_emit_of_flush (position_flush hdecimal)).bind fun _ => carries_pure rfl
    · exact ⟨fun _ h => nomatch h⟩
  infer_instance

instance : member.Advances := by unfold member; infer_instance

/-- Positions end where their number was, unless a dot remains. -/
theorem positions_flush {taken printed : List Tree} (h : positions taken = .ok (printed, false)) :
    Side.back.Flush printed taken := by
  unfold positions at h
  split at h
  · exact dottedPositions_last (splitDots_ne_nil _ _) h
  · cases h

instance : memberAccess.Flush .back := by
  unfold memberAccess
  refine flush_bind inferInstance fun isFloat => ?_
  extract_lets named
  have hnamed (u : Unit) : (named u).Flush .back := by unfold named; infer_instance
  have hadvances (u : Unit) : (named u).Advances := by unfold named; infer_instance
  split
  · refine ((carries_held inferInstance).bind fun (_, trees) => ?_).flush
    dsimp only
    split
    · exact FlushBehind.carries
    · rename_i printed dangling hpositions
      cases dangling with
      | true =>
        exact carries_of_advances (inferInstanceAs (Flush .back (emit printed >>= named)))
          (inferInstanceAs (Advances (emit printed >>= named)))
      | false =>
        exact (carries_emit_of_flush (positions_flush hpositions)).bind fun _ => carries_pure rfl
  · infer_instance

instance : (trailers left).Flush .back := by unfold trailers; infer_instance

instance : (operand braces).Flush .back := by
  unfold operand
  have hatom (attributed : Bool) : Flush .back (do
      let shape ← trailers (← atom braces)
      match shape with
      | .openRange dots =>
        if attributed then .failAt dots .attributeOnRange
        return shape
      | _ => return shape) := by
    refine flush_bind inferInstance fun first => flush_bind inferInstance fun shape => ?_
    split <;> infer_instance
  infer_instance

instance : (exprFrom left precedence braces).Flush .back := by unfold exprFrom; infer_instance

/-! ### At both sides -/

instance : (operand braces).Flush side := by cases side <;> infer_instance
instance : (exprFrom left precedence braces).Flush side := by cases side <;> infer_instance
instance : nextPrecedence.Flush side := by unfold nextPrecedence; infer_instance
instance : (rightOperand precedence braces).Flush side := by unfold rightOperand; infer_instance
instance : (expr braces).Flush side := by unfold expr; infer_instance

instance (body : Rule α) : (.foresee body .done : Rule (Option α)).Silent where
  run_ok h := by
    simp only [Rule.run] at h
    split at h <;> cases h <;> exact ⟨rfl, rfl⟩

instance : attributeValue.Flush side := by unfold attributeValue; infer_instance

end Rule

/-- Phrases are printed where they were taken, however deeply they are nested. -/
theorem meaningOf_flush (depth : Nat) : (meaningOf rules depth).Flush := by
  induction depth with
  | zero =>
    refine ⟨?_, meaningOf_goesForward rules 0, meaningOf_advances 0⟩
    intro side n closing trees reply _ h
    cases h
  | succ depth ih =>
    refine ⟨?_, meaningOf_goesForward rules (depth + 1), meaningOf_advances (depth + 1)⟩
    intro side n closing trees reply hn h
    have hrule : (rules n).Flush side := by
      cases n with
      | expr braces => exact inferInstanceAs (Rule.Flush side (.expr braces))
      | operand braces => exact inferInstanceAs (Rule.Flush side (.operand braces))
      | exprFrom left base braces =>
        exact inferInstanceAs (Rule.Flush side (.exprFrom left base braces))
      | rightOperand base braces =>
        exact inferInstanceAs (Rule.Flush side (.rightOperand base braces))
      | type plus =>
        cases side with
        | front => cases hn
        | back => exact inferInstanceAs (Rule.Flush .back (.type plus))
      | genericArguments =>
        cases side with
        | front => cases hn
        | back =>
          exact inferInstanceAs (Rule.Flush .back do
            Rule.genericArguments
            return Shape.plain)
      | _ => cases side <;> cases hn
    exact hrule.run_ok ih h

end KeyedModel.Grammar
