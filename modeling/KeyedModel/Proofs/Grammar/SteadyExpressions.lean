import KeyedModel.Proofs.Grammar.SteadyTypes

/-!
# Patterns and expressions in front of a comma

Patterns and expressions are the arguments of lists, so they are steady in front of a comma as well.
What is read only within a group, as the fields of a pattern are, always has the whole group in front
of it: such rules need to be steady only where nothing follows.
-/

namespace KeyedModel.Grammar

open Token (Tree Place)

set_option synthInstance.maxSize 10000000

variable {listed : Bool}

namespace Rule

/-! ### Patterns -/

instance : member.Steady listed := by
  unfold member
  refine steady_bind inferInstance fun named => ?_
  split
  · infer_instance
  refine steady_bind inferInstance fun number => ?_
  split
  · refine steady_bind inferInstance fun (_, trees) => ?_
    dsimp only
    split <;> infer_instance
  · infer_instance

instance : rangeLimits.Steady listed := by unfold rangeLimits; infer_instance
instance : patternLimits.Steady listed := by unfold patternLimits; infer_instance
instance : (nextAny boundHeads).Steady listed := by unfold boundHeads; infer_instance
instance : rangeBound.Steady listed := by unfold rangeBound; infer_instance
instance : acceptRangeBound.Steady listed := by unfold acceptRangeBound; infer_instance
instance : rangeTail.Steady listed := by unfold rangeTail; infer_instance
instance : openRange.Steady listed := by unfold openRange; infer_instance
instance : fieldPattern.Steady false := by unfold fieldPattern; infer_instance
instance : fieldPatterns.Steady false := by unfold fieldPatterns; infer_instance
instance : pathPattern.Steady listed := by unfold pathPattern; infer_instance

instance : sliceElement.Steady false := by
  unfold sliceElement
  refine steady_bind inferInstance fun shape => ?_
  split <;> infer_instance

instance : bindingPattern.Steady listed := by unfold bindingPattern; infer_instance
instance : startsPathPattern.Steady listed := by
  have hrest : (do
      if (← next (.word "self")) && (← second (.op "::")) then return true
      nextAny [.op "::", .op "<", .word "Self", .word "super", .word "crate"] : Rule Bool).Steady
        listed :=
    steady_second _ _ (fun _ _ => rfl) fun _ _ => inferInstance
  unfold startsPathPattern
  refine steady_seen _ ?_ hrest
  refine steady_sees _ (Nat.le_refl 1) fun _ => steady_sees _ (Nat.le_refl 1) fun _ => ?_
  refine steady_sees _ (Nat.le_refl 1) fun _ => steady_sees _ (Nat.le_refl 1) fun _ => ?_
  exact steady_sees _ (Nat.le_refl 1) fun _ => .of_steady inferInstance

instance : pattern.Steady listed := by unfold pattern; infer_instance
instance : alternativeFollows.Steady listed := by unfold alternativeFollows; infer_instance
instance : patterns.Steady listed := by unfold patterns; infer_instance

/-! ### Operators -/

/-- None of the operators has a comma in it. -/
theorem steady_nextOf {entries : List (String × Precedence)}
    (h : ∀ entry ∈ entries, (Terminal.op entry.1).commaless = true) :
    (nextOf entries).Steady listed := by
  induction entries with
  | nil => unfold nextOf; infer_instance
  | cons entry rest ih =>
    have hentry := Sight.inner_of_commaless (h entry List.mem_cons_self)
    have hrest := ih fun e he => h e (List.mem_cons_of_mem _ he)
    unfold nextOf; infer_instance

instance : nextBinary.Steady listed := steady_nextOf (by decide)
instance : nextPrecedence.Steady listed := by unfold nextPrecedence; infer_instance
instance (braces : Bool) : (rangeStops braces).Steady listed := by unfold rangeStops; infer_instance
instance (closed braces : Bool) : (rangeEnd closed braces).Steady listed := by
  unfold rangeEnd; infer_instance
instance : castEnd.Steady listed := by
  unfold castEnd
  refine steady_nextBut _ _ (.of_fruitless ?_) ?_
  · simp only [if_true]
    infer_instance
  · simp only [Bool.false_eq_true, if_false]
    infer_instance

instance (left : Shape) (base : Precedence) (braces : Bool) : (exprFrom left base braces).Steady listed := by
  unfold exprFrom; infer_instance

instance (precedence : Precedence) (braces : Bool) : (rightOperand precedence braces).Steady listed := by
  unfold rightOperand
  have hround (shape : Shape) : (do
      let following ← nextPrecedence
      if precedence.rank < following.rank || (following == precedence && precedence == .assign) then
        let before ← .remaining .done
        let shape ← phrase (.exprFrom shape following braces)
        let after ← .remaining .done
        return if after == before then .inr shape else .inl shape
      return .inr shape : Rule (Shape ⊕ Shape)).Steady listed := by
    refine steady_bind inferInstance fun following => ?_
    split
    · exact steady_taking (p := phrase (.exprFrom shape following braces))
        (f := fun idle shape => pure (if idle then Sum.inr shape else Sum.inl shape)) inferInstance
        fun _ _ => inferInstance
    · infer_instance
  infer_instance

/-! ### Operands -/

instance : callArguments.Steady listed := by unfold callArguments; infer_instance

instance : memberAccess.Steady listed := by
  unfold memberAccess
  refine steady_bind inferInstance fun isNumber => ?_
  split
  · refine steady_bind inferInstance fun (_, number) => ?_
    dsimp only
    split <;> infer_instance
  · infer_instance

instance (atom : Shape) : (trailers atom).Steady listed := by unfold trailers; infer_instance
instance : beginsExpr.Steady listed := by unfold beginsExpr; infer_instance
instance : fieldValues.Steady false := by unfold fieldValues; infer_instance
instance (braces : Bool) : (pathExpr braces).Steady listed := by unfold pathExpr; infer_instance

instance (after : Nat) : (opensGenerics after).Looks := by unfold opensGenerics; infer_instance

/-- What follows the opening of bound lifetimes is looked at only behind it, and what follows the
first of them only behind that. -/
theorem steadyPast_opensGenerics : (opensGenerics 1).SteadyPast listed 1 := by
  have hthird : (do
      if (← .sees (.op ">") 3 .done) || (← .sees (.op ",") 3 .done) || (← .sees (.op "=") 3 .done)
        then return true
      return (← .sees (.op ":") 3 .done) && !(← .sees (.op "::") 3 .done) : Rule Bool).SteadyPast
        listed 3 := by
    refine steady_sees _ (Nat.le_refl 3) fun _ => steady_sees _ (Nat.le_refl 3) fun _ => ?_
    refine steady_sees _ (Nat.le_refl 3) fun _ => ?_
    split
    · infer_instance
    · refine steady_sees _ (Nat.le_refl 3) fun _ => steady_sees _ (Nat.le_refl 3) fun _ => ?_
      infer_instance
  unfold opensGenerics
  refine steady_seen _ ?_ ?_
  · refine steady_sees _ (Nat.le_refl 2) fun _ => steady_sees _ (Nat.le_refl 2) fun _ => ?_
    refine steady_sees _ (Nat.le_refl 2) fun _ => ?_
    split
    · infer_instance
    refine steady_seen _ ?_ (steady_seen _ hthird ?_)
    · exact steady_sees _ (Nat.le_succ 2) fun _ => hthird
    · exact (inferInstance : (pure false : Rule Bool).SteadyPast listed 2)
  · exact (inferInstance : (pure false : Rule Bool).SteadyPast listed 1)

instance : bindsClosure.Steady listed :=
  steady_seen _ (steady_bind steadyPast_opensGenerics fun _ => inferInstance)
    (steady_unseen (s := pure false) inferInstance)

instance : startsClosure.Steady listed := by
  have hasync : (do
      return (← next (.word "async")) && ((← second (.op "|")) || (← second (.word "move"))) :
        Rule Bool).Steady listed :=
    steady_second_either _ _ _ (fun _ _ _ _ => rfl) fun _ _ _ => inferInstance
  have hconst : (do
      if (← next (.word "const")) && !(← second .brace) then return true
      return (← next (.word "async")) && ((← second (.op "|")) || (← second (.word "move"))) :
        Rule Bool).Steady listed :=
    steady_second _ _ (fun _ _ => rfl) fun _ _ => inferInstance
  unfold startsClosure; infer_instance

instance : closureParameter.Steady listed := by unfold closureParameter; infer_instance
instance : closureParameters.Steady listed := by unfold closureParameters; infer_instance
instance (braces : Bool) : (closure braces).Steady listed := by unfold closure; infer_instance
instance : parenExpr.Steady listed := by unfold parenExpr; infer_instance
instance : arrayExpr.Steady listed := by unfold arrayExpr; infer_instance
instance : arm.Steady false := by unfold arm; infer_instance
instance : matchBody.Steady listed := by unfold matchBody; infer_instance
instance : conditional.Steady listed := by unfold conditional; infer_instance
instance : acceptLoop.Steady listed := by unfold acceptLoop; infer_instance
instance : labeled.Steady listed := by unfold labeled; infer_instance

instance : acceptBlockLike.Steady listed := by
  have htry : (do
      if (← next (.word "try")) && (← second .brace) then
        word "try"
        block
        return true
      if ← next .lifetime then
        labeled
        return true
      if ← bindsClosure then return false
      acceptLoop : Rule Bool).Steady listed :=
    steady_second _ _ (fun _ _ => rfl) fun _ _ => inferInstance
  have hconst : (do
      if (← next (.word "const")) && (← second .brace) then
        word "const"
        attributedBlock
        return true
      if (← next (.word "try")) && (← second .brace) then
        word "try"
        block
        return true
      if ← next .lifetime then
        labeled
        return true
      if ← bindsClosure then return false
      acceptLoop : Rule Bool).Steady listed :=
    steady_second _ _ (fun _ _ => rfl) fun _ _ => inferInstance
  unfold acceptBlockLike; infer_instance

instance (braces : Bool) : (breakExpr braces).Steady listed := by
  unfold breakExpr
  refine steady_bind inferInstance fun _ => steady_seen _ ?_ ?_
  · refine steady_sees _ (Nat.le_refl 1) fun colon => ?_
    cases colon with
    | true =>
      simp only [if_true]
      exact .of_fruitless inferInstance
    | false =>
      simp only [Bool.false_eq_true, if_false]
      exact .of_steady inferInstance
  · simp only [Bool.false_eq_true, if_false]
    infer_instance

instance : acceptWritten.Steady listed := by
  unfold acceptWritten
  exact steady_second _ _ (fun _ _ => rfl) fun _ _ => inferInstance

instance : startsAsync.Steady listed := by
  have hmove : (do
      return (← second (.word "move")) && (← third .brace) : Rule Bool).SteadyPast listed 1 :=
    steady_seen _ (steady_sees _ (Nat.le_refl 2) fun _ => .of_steady inferInstance)
      (steady_unseen (s := pure false) inferInstance)
  unfold startsAsync
  refine steady_seen _ ?_ ?_
  · simp only [Bool.not_true, Bool.false_eq_true, if_false]
    refine steady_sees _ (Nat.le_refl 1) fun _ => ?_
    infer_instance
  · simp only [Bool.not_false, if_true]
    infer_instance

instance : startsPath.Steady listed := by
  have htry : (do
      return (← next (.word "try")) && ((← second (.op "!")) || (← second (.op "::"))) :
        Rule Bool).Steady listed :=
    steady_second_either _ _ _ (fun _ _ _ _ => rfl) fun _ _ _ => inferInstance
  unfold startsPath; infer_instance

instance (braces : Bool) : (atom braces).Steady listed := by unfold atom; infer_instance

instance (braces : Bool) : (operand braces).Steady listed := by
  unfold operand
  have hatom (attributed : Bool) : Steady listed (do
      let shape ← trailers (← atom braces)
      match shape with
      | .openRange dots =>
        if attributed then .failAt dots .attributeOnRange
        return shape
      | _ => return shape) := by
    refine steady_bind inferInstance fun first => steady_bind inferInstance fun shape => ?_
    split <;> infer_instance
  have hborrow : (do
      if (← next (.word "raw")) && ((← second (.word "mut")) || (← second (.word "const"))) then
        word "raw"
        anyWord
      else let _ ← acceptWord "mut"
      phrase_ (.operand braces)
      return .plain : Rule Shape).Steady listed :=
    steady_second_either _ _ _ (fun _ _ _ _ => rfl) fun _ _ _ => inferInstance
  infer_instance

instance (braces : Bool) : (expr braces).Steady listed := by unfold expr; infer_instance

instance (attributes : List Tree) : (boundaryExpr attributes).Steady false := by
  unfold boundaryExpr; infer_instance

instance : statementExpr.Steady false := by unfold statementExpr; infer_instance

end Rule

end KeyedModel.Grammar
