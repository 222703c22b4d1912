import KeyedModel.Proofs.Grammar.Receivers

/-!
# Items within groups

An expression may hold a block, and a block any item. These are read within groups, where nothing
follows in place of the comma, and all that is left to show is that calls may be nested more deeply.
With that every phrase of the grammar is steady, so meanings are deeper with the depth.
-/

namespace KeyedModel.Grammar

open Token (Tree Place)

set_option synthInstance.maxSize 10000000

namespace Rule

instance (s : Sight) : (next s).Steady false := inferInstanceAs ((sees s 0 .done).Steady false)

instance (sights : List Sight) : (nextAny sights).Steady false := by
  induction sights <;> unfold nextAny <;> infer_instance

/-! ### Generic parameters and where clauses -/

instance (attributes : List Tree) : (lifetimeParam attributes).Steady false := by
  unfold lifetimeParam; infer_instance

instance (attributes : List Tree) : (typeParam attributes).Steady false := by
  unfold typeParam; infer_instance

instance (attributes : List Tree) : (constParam attributes).Steady false := by
  unfold constParam; infer_instance

instance : genericParam.Steady false := by unfold genericParam; infer_instance
instance : genericParams.Steady false := by unfold genericParams; infer_instance
instance : printedGenerics.Steady false := by unfold printedGenerics; infer_instance
instance (after : Nat) : (opensGenerics after).Steady false := by unfold opensGenerics; infer_instance
instance : predicatesEnd.Steady false := by unfold predicatesEnd; infer_instance
instance : predicate.Steady false := by unfold predicate; infer_instance
instance : predicates.Steady false := by unfold predicates; infer_instance
instance : whereClause.Steady false := by unfold whereClause; infer_instance
instance : acceptWhere.Steady false := by unfold acceptWhere; infer_instance

/-! ### Structs -/

instance : plainPath.Callless := by unfold plainPath; infer_instance
instance : convention.Callless := by unfold convention; infer_instance
instance : visibility.Steady false := by unfold visibility; infer_instance

instance (t : Terminal) : (declaredName t).Steady false := by
  unfold declaredName
  refine steady_bind inferInstance fun taken => ?_
  split <;> infer_instance

instance (t : Terminal) : (printedName t).Steady false := by unfold printedName; infer_instance

instance (unnamed : Bool) : (fieldType unnamed).Steady false := by unfold fieldType; infer_instance
instance : namedField.Steady false := by unfold namedField; infer_instance
instance : namedFields.Steady false := by unfold namedFields; infer_instance
instance : fields.Steady false := by unfold fields; infer_instance
instance : tupleFields.Steady false := by unfold tupleFields; infer_instance
instance : keptWhere.Steady false := by unfold keptWhere; infer_instance

instance (attributes visibility : List Tree) : (structItem attributes visibility).Steady false := by
  unfold structItem; infer_instance

/-! ### Functions -/

instance (words : List String) : (signatureFollows.acceptOne words).Callless := by
  induction words <;> unfold signatureFollows.acceptOne <;> infer_instance

instance (safety : List String) : (signatureFollows safety).Steady false := by
  unfold signatureFollows; infer_instance

instance : parameters.Steady false := by
  unfold parameters
  have hround (received? : Option Bool) : (do
      if ← next .nothing then return .inr ()
      attributes
      let form ← if ← acceptOp "..." then pure .variadic else parameter
      match form, received? with
      | .variadic, _ =>
        if !(← next .nothing) then op ","
        return .inr ()
      | .receiver spot, some true => .failAt spot .secondReceiver
      | .receiver spot, some false => .failAt spot .lateReceiver
      | _, _ => pure ()
      if ← next .nothing then return .inr ()
      op ","
      return .inl (some (form matches .receiver _ || received? == some true)) :
        Rule (Option Bool ⊕ Unit)).Steady false := by
    refine steady_bind inferInstance fun ended => ?_
    split
    · infer_instance
    refine steady_bind inferInstance fun _ => steady_bind inferInstance fun variadic => ?_
    dsimp only
    split
    all_goals
      refine steady_bind inferInstance fun form => ?_
      split <;> infer_instance
  infer_instance

instance (safe : Bool) : (signature safe).Steady false := by unfold signature; infer_instance

/-! ### Parts of items -/

instance : macroItem.Steady false := by unfold macroItem; infer_instance

instance (whereBefore whereAfter : Bool) : (typeDeclaration whereBefore whereAfter).Steady false := by
  unfold typeDeclaration; infer_instance

instance : constantName.Steady false := by unfold constantName; infer_instance
instance : constantBody.Steady false := by unfold constantBody; infer_instance
instance : bodyOrEnd.Steady false := by unfold bodyOrEnd; infer_instance
instance : traitItem.Steady false := by unfold traitItem; infer_instance
instance : implItem.Steady false := by unfold implItem; infer_instance
instance : foreignStatic.Steady false := by unfold foreignStatic; infer_instance
instance : foreignItem.Steady false := by unfold foreignItem; infer_instance

instance (item : Rule Unit) [item.Steady false] : (itemBlock item).Steady false := by
  unfold itemBlock; infer_instance

/-! ### Items -/

instance : variant.Steady false := by unfold variant; infer_instance
instance : functionItem.Steady false := by unfold functionItem; infer_instance
instance : foreignCrate.Steady false := by unfold foreignCrate; infer_instance

instance (start : Place) (inherited : Bool) : (foreignBlock start inherited).Steady false := by
  unfold foreignBlock; infer_instance

instance (start : Place) (inherited : Bool) : (foreignItems start inherited).Steady false := by
  unfold foreignItems; infer_instance

instance (roots : Bool) : (useTree roots).Steady false := by unfold useTree; infer_instance
instance : useItem.Steady false := by unfold useItem; infer_instance
instance : staticItem.Steady false := by unfold staticItem; infer_instance
instance : moduleItem.Steady false := by unfold moduleItem; infer_instance
instance : traitBody.Steady false := by unfold traitBody; infer_instance
instance : markedTrait.Steady false := by unfold markedTrait; infer_instance
instance : traitOrAlias.Steady false := by unfold traitOrAlias; infer_instance

instance (inherited : Bool) : (implementation inherited).Steady false := by
  unfold implementation; infer_instance

instance (start : Place) (inherited : Bool) : (unsafeItem start inherited).Steady false := by
  unfold unsafeItem; infer_instance

instance : macroDeclaration.Steady false := by unfold macroDeclaration; infer_instance
instance : macroCall.Steady false := by unfold macroCall; infer_instance

instance (start : Place) (inherited : Bool) : (otherItem start inherited).Steady false := by
  unfold otherItem; infer_instance

instance (attributes : List Tree) : (itemBehind attributes).Steady false := by
  unfold itemBehind; infer_instance

instance : item.Steady false := by unfold item; infer_instance

/-! ### Statements -/

instance : callFollows.Steady false := by unfold callFollows; infer_instance
instance : startsStatic.Steady false := by unfold startsStatic; infer_instance
instance : startsConst.Steady false := by unfold startsConst; infer_instance
instance : startsAsyncItem.Steady false := by unfold startsAsyncItem; infer_instance
instance : startsItem.Steady false := by unfold startsItem; infer_instance
instance : binding.Steady false := by unfold binding; infer_instance
instance : statement.Steady false := by unfold statement; infer_instance
instance : statements.Steady false := by unfold statements; infer_instance

end Rule

/-! ### Phrases -/

theorem steady_rules {listed : Bool} {n : Nonterminal} (hn : listed = true → n.isListed = true) :
    (rules n).Steady listed := by
  cases listed with
  | false => cases n <;> unfold rules <;> infer_instance
  | true =>
    cases n with
    | statementExpr | statements | item | fields | useTree => cases hn rfl
    | _ => unfold rules; infer_instance

/-- Phrases that may be nested more deeply are read as before, whatever stands behind the comma that
follows them. -/
theorem meaningOf_deeper {depth depth' : Nat} (hle : depth ≤ depth') :
    (meaningOf rules depth).Deeper (meaningOf rules depth') := by
  induction depth generalizing depth' with
  | zero =>
    refine ⟨⟨0, rfl⟩, ⟨depth', rfl⟩, ?_⟩
    intro listed n closing front tail tail' back reply _ _ h
    cases h
  | succ depth ih =>
    obtain ⟨depth', rfl⟩ : ∃ n, depth' = n + 1 := ⟨depth' - 1, by omega⟩
    refine ⟨⟨depth + 1, rfl⟩, ⟨depth' + 1, rfl⟩, ?_⟩
    intro listed n closing front tail tail' back reply hn htail h hrest
    exact (steady_rules hn).leads (ih (Nat.le_of_succ_le_succ hle)) htail trivial h hrest

end KeyedModel.Grammar
