import KeyedModel.Proofs.Grammar.Steady

/-!
# Types in front of a comma

Paths, blocks and types are read the same, whatever stands behind the comma of a list. Some of the
steps look at two tokens: they do so behind a token that cannot be the comma, so they are steady past
that token, and the rules are steady as soon as their parts are.
-/

namespace KeyedModel.Grammar

open Token (Tree Place)

set_option synthInstance.maxSize 10000000

variable {listed : Bool}

namespace Rule

/-! ### Attributes and blocks -/

instance : (nextAny pathWords).Steady listed := by unfold pathWords; infer_instance
instance : plainPath.Steady listed := by unfold plainPath; infer_instance

/-- Whether a literal is all that comes does not change with what stands behind a comma. -/
instance : (do literal; next .nothing : Rule Bool).Foreseen listed where
  value_eq {meaning meaning' closing front tail tail'} htail := by
    have hvalue (meaning : Meaning) (trees : List Tree) :
        ((do literal; next .nothing : Rule Bool).run meaning closing trees).toOption.map
            Reply.value = (Terminal.literal.match? trees).map (·.2.isEmpty) := by
      rw [run_bind, literal, Rule.run]
      cases Terminal.literal.match? trees <;> rfl
    rw [hvalue, hvalue]
    cases hmatch : Terminal.literal.match? (front ++ tail) with
    | some r =>
      obtain ⟨used, more, -, rfl, hused⟩ := Sight.match?_of_append rfl htail.ends hmatch
      rw [List.append_assoc, hused, Option.some.injEq] at hmatch
      rw [List.append_assoc, hused, ← hmatch]
      exact congrArg some htail.isEmpty_eq
    | none =>
      have hnone : Sight.literal.sees (front ++ tail') = false := by
        rw [← Sight.Near.sees_eq htail, Sight.sees, hmatch, Option.isSome_none]
      rw [Option.isSome_eq_false_iff.mp hnone |> Option.isNone_iff_eq_none.mp]

instance : attributeValue.Steady listed := by
  unfold attributeValue
  have hliteral : (do literal; return Shape.literal : Rule Shape).Steady listed := inferInstance
  have hother : (do
      if (← next (.op "#")) && (← second .bracket) then .fail .nestedAttribute
      else phrase (.expr true) : Rule Shape).Steady listed :=
    steady_second _ _ (fun _ _ => rfl) fun _ _ => inferInstance
  infer_instance

instance : attributeBody.Steady false := by unfold attributeBody; infer_instance
instance : attributes.Steady listed := by unfold attributes; infer_instance
instance : innerAttributes.Steady false := by unfold innerAttributes; infer_instance
instance : block.Steady listed := by unfold block; infer_instance
instance : attributedBlock.Steady listed := by unfold attributedBlock; infer_instance
instance : callsMacro.Steady listed := by unfold callsMacro; infer_instance
instance : macroArguments.Steady listed := by unfold macroArguments; infer_instance

/-! ### Paths -/

instance (form : PathForm) : (finish form).Steady listed := by
  unfold finish
  split <;> infer_instance

/-- Generic arguments follow a name directly or behind a separator; what follows their opening is
looked at only there. -/
instance (inExpr : Bool) : (segment inExpr).Steady listed := by
  have harguments (direct marked : Bool) (ahead : Nat)
      (hahead : direct = true ∨ marked = true → (if marked then 3 else 1) ≤ ahead) : (do
        if direct || marked then
          if ← .sees (.op ">") (if marked then 3 else 1) .done then
            let (_, written) ← held (phrase_ .genericArguments)
            return .empty written
          phrase_ .genericArguments
          return .angled
        return .none : Rule Arguments).SteadyPast listed ahead := by
    split
    · rename_i hopen
      exact steady_sees _ (hahead (Bool.or_eq_true_iff.mp hopen)) fun _ => .of_steady inferInstance
    · infer_instance
  have hmarked (direct : Bool) (ahead : Nat) (hdirect : direct = true → 1 ≤ ahead) : (do
      let marked := (← next (.op "::")) && (← third (.op "<"))
      if direct || marked then
        if ← .sees (.op ">") (if marked then 3 else 1) .done then
          let (_, written) ← held (phrase_ .genericArguments)
          return .empty written
        phrase_ .genericArguments
        return .angled
      return .none : Rule Arguments).SteadyPast listed ahead := by
    refine steady_separator (steady_seen _ ?_ ?_) ?_
    · exact harguments direct true 3 fun _ => Nat.le_refl 3
    · exact harguments direct false 2 fun _ => Nat.le_succ 1
    · exact steady_unseen (harguments direct false ahead (by simpa using hdirect))
  have hdirect : (do
      let direct := !inExpr && (← nextBut (.op "<") (.op "<="))
      let marked := (← next (.op "::")) && (← third (.op "<"))
      if direct || marked then
        if ← .sees (.op ">") (if marked then 3 else 1) .done then
          let (_, written) ← held (phrase_ .genericArguments)
          return .empty written
        phrase_ .genericArguments
        return .angled
      return .none : Rule Arguments).Steady listed := by
    refine steady_nextBut _ _ (hmarked _ 1 fun _ => Nat.le_refl 1) (hmarked _ 0 ?_)
    simp
  unfold segment
  infer_instance

instance (inExpr : Bool) (form : PathForm) : (moreSegments inExpr form).Steady listed := by
  unfold moreSegments
  have hround (form : PathForm) : (do
      if (← next (.op "::")) && !(← third .paren) then
        finish form
        op "::"
        return .inl (form.extend (← segment inExpr))
      else return .inr form : Rule (PathForm ⊕ PathForm)).Steady listed :=
    steady_third _ (fun _ _ => rfl) fun _ _ => inferInstance
  infer_instance

instance (inExpr : Bool) : (path inExpr).Steady listed := by unfold path; infer_instance
instance (inExpr : Bool) : (qualifiedPath inExpr).Steady listed := by unfold qualifiedPath; infer_instance
instance : valuePath.Steady listed := by unfold valuePath; infer_instance
instance (plus : Bool) : (returnType plus).Steady listed := by unfold returnType; infer_instance
instance : parenArguments.Steady listed := by unfold parenArguments; infer_instance
instance : parensFollow.Steady listed := by
  have hbehind : (do return (← next (.op "::")) && (← third .paren) : Rule Bool).Steady listed :=
    steady_third _ (fun _ _ => rfl) fun _ _ => inferInstance
  unfold parensFollow; infer_instance

instance : parenTail.Steady listed := by unfold parenTail; infer_instance

/-! ### Bounds -/

instance : lifetimeBounds.Steady listed := by unfold lifetimeBounds; infer_instance

instance : binder.Steady listed := by unfold binder; infer_instance
instance : acceptBinder.Steady listed := by unfold acceptBinder; infer_instance
instance : captures.Steady listed := by unfold captures; infer_instance

instance : traitPath.Steady listed := by unfold traitPath; infer_instance
instance (constants : Bool) : (traitBound constants).Steady listed := by unfold traitBound; infer_instance

instance (capturing constants : Bool) : (bound capturing constants).Steady listed := by
  unfold bound; infer_instance

instance (stops : Rule Bool) [stops.Steady listed] : (boundsUntil stops).Steady listed := by
  unfold boundsUntil; infer_instance

instance (stops : Rule Bool) [stops.Steady listed] : (boundsFilling stops).Steady listed := by
  unfold boundsFilling; infer_instance

instance (constants : Bool) : (boundsGoOn constants).Steady listed := by unfold boundsGoOn; infer_instance

instance (start : Place) (plus capturing constants : Bool) (missing : Cause) :
    (objectBounds start plus capturing constants missing).Steady listed := by
  unfold objectBounds; infer_instance

/-! ### Generic arguments -/

instance : constArgument.Steady listed := by unfold constArgument; infer_instance

instance : genericArgument.Steady listed :=
  steady_second _ _ (fun _ _ => rfl) fun _ _ => inferInstance

instance : genericArguments.Steady listed := by
  unfold genericArguments
  have helement : (do
      let isLifetime := (← next .lifetime) && !(← second (.op "+"))
      let (_, trees) ← held genericArgument
      return (⟨isLifetime, trees⟩ : Printed) : Rule Printed).Steady listed :=
    steady_second _ _ (fun _ _ => rfl) fun _ _ => inferInstance
  infer_instance

/-! ### Types -/

instance : convention.Steady listed := by unfold convention; infer_instance
instance (first : Bool) : (pointerParameter first).Steady false := by
  unfold pointerParameter; infer_instance
instance : variadicFollows.Steady false := by unfold variadicFollows; infer_instance
instance : pointerParameters.Steady false := by unfold pointerParameters; infer_instance
instance : functionPointer.Steady listed := by unfold functionPointer; infer_instance

instance : enclosedType.Steady false := by unfold enclosedType; infer_instance
instance : furtherBounds.Steady listed := by unfold furtherBounds; infer_instance

instance (plus : Bool) : (parenType plus).Steady listed := by
  unfold parenType
  refine steady_bind inferInstance fun (enclosed, trees) => ?_
  cases enclosed <;> infer_instance

instance : typePath.Steady listed := by
  unfold typePath
  have hround (form : PathForm) : (do
      if form.isOpen && (← parensFollow) then
        match ← parenTail with
        | none | some .parenType => return .inl (← moreSegments false form.applied)
        | some _ => return .inl form.applied
      return .inr form : Rule (PathForm ⊕ PathForm)).Steady listed := by
    refine steady_bind inferInstance fun follow => ?_
    split
    · refine steady_bind inferInstance fun given => ?_
      split <;> infer_instance
    · infer_instance
  infer_instance

instance (bound? : Option (List Tree)) (plus : Bool) :
    (pathType bound? plus).Steady listed := by
  unfold pathType; infer_instance

instance : (nextAny bindingHeads).Steady listed := by unfold bindingHeads; infer_instance
instance (plus : Bool) : (boundType plus).Steady listed := by unfold boundType; infer_instance
instance (plus : Bool) : (objectType plus).Steady listed := by unfold objectType; infer_instance
instance : bracketType.Steady listed := by unfold bracketType; infer_instance
instance (plus : Bool) : (type plus).Steady listed := by unfold type; infer_instance

end Rule

end KeyedModel.Grammar
