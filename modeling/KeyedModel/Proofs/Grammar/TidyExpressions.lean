import KeyedModel.Proofs.Grammar.Literals
import KeyedModel.Proofs.Grammar.TidyTypes

/-!
# Patterns and expressions keep trees writable

A position after a dot is printed as a decimal number, and three dots as those that include the end;
everything else is printed from what was read. Behind a binary operator an operand takes a token, so
a slash in front of it does not wait any more.
-/

namespace KeyedModel.Grammar

open Token (Tree Place Leaf Writable)

set_option synthInstance.maxSize 10000000

/-- A decimal number can be written down. -/
theorem stands_decimal (n : Nat) : (Leaf.literal (toString n)).Stands := by
  have hchars : (toString n).toList = Nat.toDigits 10 n := by simp [toString]
  have hdigits : ∀ c ∈ Nat.toDigits 10 n, c.isDigit = true := fun c hc =>
    Nat.isDigit_of_mem_toDigits (by decide) (by decide) hc
  have hread : Token.readLiteral (toString n).toList = some [] := by
    rw [hchars]
    cases hdecimal : Nat.toDigits 10 n with
    | nil => exact absurd hdecimal Nat.toDigits_ne_nil
    | cons c more =>
      rw [hdecimal] at hdigits
      have hall : ∀ c ∈ ['"', '\'', 'r', 'b', 'c'], ¬c.isDigit := by decide
      have hfirst : c ∉ ['"', '\'', 'r', 'b', 'c'] := fun hmem =>
        hall c hmem (hdigits c List.mem_cons_self)
      rw [Token.readLiteral_eq, Token.readQuotation_eq_none hfirst]
      exact Token.readNumber_digits (by simp) hdigits
  obtain ⟨text, htext, -, hstands⟩ := Token.stands_of_readLiteral hread
  obtain rfl : toString n = text := String.toList_inj.mp (by simpa using htext)
  exact hstands

namespace Rule

/-! ### Patterns -/

theorem writable_position {trees decimal : List Tree} (h : position trees = .ok decimal) :
    IsWritable decimal := by
  unfold position at h
  split at h
  · split at h
    · cases h
      exact ⟨.literal (stands_decimal _)⟩
    · cases h
  · split at h <;> cases h
  · cases h

instance : member.Tidy := by
  unfold member
  refine tidy_bind inferInstance fun named _ => ?_
  split
  · infer_instance
  refine tidy_bind inferInstance fun number _ => ?_
  split
  · refine tidy_bind inferInstance fun (_, trees) _ => ?_
    dsimp only
    split
    · rename_i decimal hdecimal
      have := writable_position hdecimal
      infer_instance
    · infer_instance
  · infer_instance

instance : rangeLimits.Tidy := by unfold rangeLimits; infer_instance

/-- An equality sign may stand in place of a dot. -/
instance (trees : List Tree) [htrees : IsWritable trees] :
    IsWritable (patternLimits.closedDots trees) := by
  unfold patternLimits.closedDots
  split
  · rename_i first second c spacing spot
    obtain ⟨hfirst, hfits, hrest⟩ := Token.chained_cons.mp htrees.out.chained
    obtain ⟨hsecond, hlast, -⟩ := Token.chained_cons.mp hrest
    have hspelled : (Tree.punct '=' spacing spot).Spelled :=
      ⟨by decide, fun heq => absurd heq (by decide)⟩
    have hfit : second.Fits (.punct '=' spacing spot) := by
      have hbefore := hlast _ rfl
      unfold Tree.Fits at hbefore ⊢
      split at hbefore
      · exact absurd rfl (hbefore.not_punct _ _ _)
      · intro d _ _ heq
        cases heq
        decide
      · trivial
    refine ⟨⟨Token.chained_cons.mpr ⟨hfirst, hfits, ?_⟩, ?_⟩⟩
    · exact Token.chained_cons.mpr ⟨hsecond, by simpa using hfit, hspelled⟩
    · simp [Token.EndsFree, Tree.Free]
  · exact htrees

instance : patternLimits.Tidy := by unfold patternLimits; infer_instance
instance : rangeBound.Tidy := by unfold rangeBound; infer_instance
instance : acceptRangeBound.Tidy := by unfold acceptRangeBound; infer_instance
instance : rangeTail.Tidy := by unfold rangeTail; infer_instance
instance : openRange.Tidy := by unfold openRange; infer_instance
instance : fieldPattern.Tidy := by unfold fieldPattern; infer_instance
instance : fieldPatterns.Tidy := by unfold fieldPatterns; infer_instance
instance : pathPattern.Tidy := by unfold pathPattern; infer_instance

instance : sliceElement.Tidy := by
  unfold sliceElement
  refine tidy_bind inferInstance fun shape _ => ?_
  split <;> infer_instance

instance : bindingPattern.Tidy := by unfold bindingPattern; infer_instance
instance : startsPathPattern.Tidy := by unfold startsPathPattern; infer_instance
instance : pattern.Tidy := by unfold pattern; infer_instance
instance : alternativeFollows.Tidy := by unfold alternativeFollows; infer_instance
instance : patterns.Tidy := by unfold patterns; infer_instance

/-! ### Operators -/

instance (entries : List (String × Precedence)) : (nextOf entries).Tidy := by
  induction entries <;> unfold nextOf <;> infer_instance

instance : nextBinary.Tidy := by unfold nextBinary; infer_instance
instance : nextPrecedence.Tidy := by unfold nextPrecedence; infer_instance
instance (braces : Bool) : (rangeStops braces).Tidy := by unfold rangeStops; infer_instance
instance (closed braces : Bool) : (rangeEnd closed braces).Tidy := by
  unfold rangeEnd; infer_instance
instance : castEnd.Tidy := by unfold castEnd; infer_instance

/-- The operator that comes next is one of the table. -/
theorem tidy_nextBinary_bind {α : Type} [CarriesTrees α]
    {f : Option (String × Precedence) → Rule α}
    (hsome : ∀ entry ∈ binaryOperators, (f (some entry)).Tidy) (hnone : (f none).Tidy) :
    (nextBinary >>= f).Tidy where
  run_ok hmeaning htrees h := by
    obtain ⟨a, b, ha, hb, rfl⟩ := run_bind_eq_ok.mp h
    rw [nextBinary, run_nextOf] at ha
    cases ha
    rw [Reply.after_nil]
    dsimp only at hb
    cases hfound : binaryOperators.find? fun e => (Sight.op e.1).sees _ with
    | none =>
      rw [hfound] at hb
      exact hnone.run_ok hmeaning htrees hb
    | some entry =>
      rw [hfound] at hb
      exact (hsome entry (List.mem_of_find?_eq_some hfound)).run_ok hmeaning htrees hb

/-- No binary operator ends in the mark of a lifetime. -/
theorem quote_not_last {entry : String × Precedence} (h : entry ∈ binaryOperators) :
    ∀ c ∈ entry.1.toList.getLast?, c ≠ '\'' := by
  revert entry
  decide

instance (left : Shape) (base : Precedence) (braces : Bool) : (exprFrom left base braces).Tidy := by
  unfold exprFrom
  refine tidy_iterate (fun left _ => ?_) inferInstance
  split
  · infer_instance
  refine tidy_nextBinary_bind (fun (text, precedence) hentry => ?_) inferInstance
  dsimp only
  split
  · infer_instance
  · have hoperator (goal : Rule (Shape ⊕ Shape)) (htidy : goal.Tidy) (hadvances : goal.Advances) :
        (op text >>= fun _ => goal).Tidy :=
      tidy_op_bind (quote_not_last hentry) htidy hadvances
    split
    · exact tidy_bind inferInstance fun _ _ => hoperator _ inferInstance inferInstance
    · exact hoperator _ inferInstance inferInstance

instance (precedence : Precedence) (braces : Bool) : (rightOperand precedence braces).Tidy := by
  unfold rightOperand; infer_instance

/-! ### Operands -/

instance : callArguments.Tidy := by unfold callArguments; infer_instance

theorem writable_dottedPositions {spot : Place} {pieces : List (List Char)} {trees : List Tree}
    {dangling : Bool} (h : dottedPositions spot pieces = .ok (trees, dangling)) :
    IsWritable trees := by
  have hdot : Writable [Tree.punct '.' .alone spot] := .alone (by decide) (by decide)
  fun_induction dottedPositions spot pieces generalizing trees dangling with
  | case1 | case2 =>
    cases h
    infer_instance
  | case3 piece _ n =>
    cases h
    exact ⟨.literal (stands_decimal n)⟩
  | case4 | case6 => cases h
  | case5 piece rest _ _ n _ ih =>
    cases hrest : dottedPositions spot rest with
    | error cause =>
      rw [hrest] at h
      cases h
    | ok r =>
      rw [hrest] at h
      cases h
      have hnumber : Writable [Tree.literal (toString n) spot] := .literal (stands_decimal n)
      exact ⟨hnumber.append (hdot.append (ih hrest).out)⟩

theorem writable_positions {number trees : List Tree} {dangling : Bool}
    (h : positions number = .ok (trees, dangling)) : IsWritable trees := by
  unfold positions at h
  split at h
  · exact writable_dottedPositions h
  · cases h

instance : memberAccess.Tidy := by
  unfold memberAccess
  refine tidy_bind inferInstance fun isNumber _ => ?_
  split
  · refine tidy_bind inferInstance fun (_, number) _ => ?_
    dsimp only
    split
    · infer_instance
    · rename_i trees dangling htrees
      have := writable_positions htrees
      infer_instance
  · infer_instance

instance (atom : Shape) : (trailers atom).Tidy := by unfold trailers; infer_instance
instance : beginsExpr.Tidy := by unfold beginsExpr; infer_instance
instance : fieldValues.Tidy := by unfold fieldValues; infer_instance
instance (braces : Bool) : (pathExpr braces).Tidy := by unfold pathExpr; infer_instance
instance : bindsClosure.Tidy := by unfold bindsClosure; infer_instance
instance : startsClosure.Tidy := by unfold startsClosure; infer_instance
instance : closureParameter.Tidy := by unfold closureParameter; infer_instance
instance : closureParameters.Tidy := by unfold closureParameters; infer_instance
instance (braces : Bool) : (closure braces).Tidy := by unfold closure; infer_instance
instance : parenExpr.Tidy := by unfold parenExpr; infer_instance
instance : arrayExpr.Tidy := by unfold arrayExpr; infer_instance
instance : arm.Tidy := by unfold arm; infer_instance
instance : matchBody.Tidy := by unfold matchBody; infer_instance
instance : conditional.Tidy := by unfold conditional; infer_instance
instance : acceptLoop.Tidy := by unfold acceptLoop; infer_instance
instance : labeled.Tidy := by unfold labeled; infer_instance
instance : acceptBlockLike.Tidy := by unfold acceptBlockLike; infer_instance
instance (braces : Bool) : (breakExpr braces).Tidy := by unfold breakExpr; infer_instance
instance : acceptWritten.Tidy := by unfold acceptWritten; infer_instance
instance : startsAsync.Tidy := by unfold startsAsync; infer_instance
instance : startsPath.Tidy := by unfold startsPath; infer_instance
instance (braces : Bool) : (atom braces).Tidy := by unfold atom; infer_instance

instance (braces : Bool) : (operand braces).Tidy := by
  unfold operand
  have hatom (attributed : Bool) : Tidy (do
      let shape ← trailers (← atom braces)
      match shape with
      | .openRange dots =>
        if attributed then .failAt dots .attributeOnRange
        return shape
      | _ => return shape) := by
    refine tidy_bind inferInstance fun first _ => tidy_bind inferInstance fun shape _ => ?_
    split <;> infer_instance
  infer_instance

instance (braces : Bool) : (expr braces).Tidy := by unfold expr; infer_instance

instance (attributes : List Tree) [IsWritable attributes] : (boundaryExpr attributes).Tidy := by
  unfold boundaryExpr; infer_instance

instance : statementExpr.Tidy := by unfold statementExpr; infer_instance

end Rule

end KeyedModel.Grammar
