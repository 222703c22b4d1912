import KeyedModel.Proofs.Grammar.Flush

/-!
# Types end where they were taken

A type may lose a token at its front, when parentheses are printed once only, but never at its back.
An empty list of generic arguments is held back at the end of a path until it is known that no
parentheses take its place; if they do, they are taken behind it.
-/

namespace KeyedModel.Grammar

open Token (Tree Place Delimiter)

set_option synthInstance.maxSize 1000000

variable {α : Type} {trees : List Tree} {side : Side}

/-! ### Paths -/

/-- The trees that are held back. -/
def Arguments.pending : Arguments → List Tree
  | .empty written => written
  | _ => []

/-- The trees that are held back at the end of the path. -/
def PathForm.pending (form : PathForm) : List Tree := form.last.pending

namespace Rule

variable (inExpr plus : Bool) (form : PathForm)

theorem carries_finish : (finish form).Carries side form.pending fun _ => [] := by
  obtain ⟨qualified, single, bare, last⟩ := form
  cases last with
  | empty written => exact carries_emit written
  | _ => exact carries_pure rfl

/-- An empty list of arguments is held back. -/
theorem carries_segment : (segment inExpr).Carries .back [] Arguments.pending := by
  have harguments : (held (phrase_ .genericArguments) >>= fun
      heldArguments => pure (Arguments.empty heldArguments.2)).Carries .back [] Arguments.pending :=
    (carries_held inferInstance).bind fun _ => carries_pure rfl
  have hflush {r : Rule Unit} {arguments : Arguments} (hr : r.Flush .back)
      (harguments : [] = arguments.pending) :
      (r >>= fun _ => pure arguments).Carries .back [] Arguments.pending :=
    (carries_of_flush hr).bind fun _ => carries_pure harguments
  refine carries_silent.bind fun _ => carries_ite (hflush inferInstance rfl) ?_
  refine carries_silent.bind fun _ => ?_
  refine carries_ite ?_ ?_
  all_goals
    refine (carries_of_flush inferInstance).bind fun _ => ?_
    refine carries_silent.bind fun _ => carries_silent.bind fun _ => carries_silent.bind fun _ => ?_
    refine carries_ite (carries_silent.bind fun _ => ?_) (carries_pure rfl)
    exact carries_ite harguments (hflush inferInstance rfl)

theorem carries_moreSegments :
    (moreSegments inExpr form).Carries .back form.pending PathForm.pending := by
  refine carries_iterate (fun form => ?_) form
  refine carries_silent.bind fun _ => carries_silent.bind fun _ => carries_ite ?_ (carries_pure rfl)
  refine (carries_finish form).bind fun _ => ?_
  refine (carries_of_flush inferInstance).bind fun _ => ?_
  exact (carries_segment inExpr).bind fun next => carries_pure rfl

theorem carries_path : (path inExpr).Carries .back [] PathForm.pending := by
  refine (carries_of_flush inferInstance).bind fun absolute => ?_
  refine (carries_segment inExpr).bind fun first => ?_
  exact carries_moreSegments inExpr (.start false absolute first)

theorem carries_qualifiedPath : (qualifiedPath inExpr).Carries .back [] PathForm.pending := by
  have hround (form : PathForm) :
      Carries .back form.pending (Sum.elim PathForm.pending PathForm.pending) (do
      if ← next (.op "::") then
        finish form
        op "::"
        return (.inl (form.extend (← segment inExpr)) : PathForm ⊕ PathForm)
      else return .inr form) := by
    refine carries_silent.bind fun _ => carries_ite ?_ (carries_pure rfl)
    refine (carries_finish form).bind fun _ => ?_
    refine (carries_of_flush inferInstance).bind fun _ => ?_
    exact (carries_segment inExpr).bind fun next => carries_pure rfl
  refine (carries_of_flush inferInstance).bind fun _ => carries_ite ?_ (carries_path inExpr)
  refine (carries_of_flush inferInstance).bind fun _ => ?_
  have hbehind : ∀ u : Unit, Carries .back [] PathForm.pending (do
      op ">"
      op "::"
      let first ← segment inExpr
      iterate (fun form => do
        if ← next (.op "::") then
          finish form
          op "::"
          return .inl (form.extend (← segment inExpr))
        else return .inr form) (.start true false first)) := by
    intro _
    refine (carries_of_flush inferInstance).bind fun _ => ?_
    refine (carries_of_flush inferInstance).bind fun _ => ?_
    refine (carries_segment inExpr).bind fun first => ?_
    exact carries_iterate hround (.start true false first)
  refine (carries_of_flush inferInstance).bind fun _ => carries_ite ?_ (hbehind ())
  exact (carries_path false).bind fun form => (carries_finish form).bind hbehind

instance : valuePath.Flush .back := by
  refine ((carries_qualifiedPath true).bind fun form => ?_).flush
  exact (carries_finish form).bind fun _ => carries_pure rfl

/-! ### Bounds -/

instance : (returnType plus).Flush .back := by unfold returnType; infer_instance
instance : parenArguments.Flush .back := by unfold parenArguments; infer_instance
instance : parenArguments.Advances := by unfold parenArguments; infer_instance
instance : parenTail.Flush .back := by unfold parenTail; infer_instance
instance : parenTail.Advances := by unfold parenTail; infer_instance
instance : captures.Flush .back := by unfold captures; infer_instance
instance : binder.Flush .back := by unfold binder; infer_instance
instance : acceptBinder.Flush .back := by unfold acceptBinder; infer_instance

instance : traitPath.Flush .back := by
  refine ((carries_path false).bind fun form => ?_).flush
  refine carries_silent.bind fun _ => carries_ite ?_ (carries_finish form)
  exact (carries_of_advances inferInstance inferInstance).bind fun _ => carries_pure rfl

instance : traitPath.Advances := by unfold traitPath; infer_instance

instance (constants : Bool) : (traitBound constants).Flush .back := by
  unfold traitBound; infer_instance

instance (capturing constants : Bool) : (bound capturing constants).Flush .back := by
  unfold bound; infer_instance

instance (start : Place) (capturing constants : Bool) (missing : Cause) :
    (objectBounds start plus capturing constants missing).Flush .back := by
  unfold objectBounds; infer_instance

instance : furtherBounds.Flush .back := by unfold furtherBounds; infer_instance

/-! ### Types -/

instance : convention.Flush .back := by unfold convention; infer_instance
instance : functionPointer.Flush .back := by unfold functionPointer; infer_instance
instance : functionPointer.Advances := by unfold functionPointer; infer_instance

/-- Where a `+` comes, the further bounds take it. -/
theorem furtherBounds_lt {meaning : Meaning} {closing : Place} {reply : Reply Bool}
    (hmeaning : meaning.Flush) (hsees : (Sight.op "+").sees trees = true)
    (h : furtherBounds.run meaning closing trees = .ok reply) :
    reply.rest.length < trees.length := by
  obtain ⟨a, b, ha, hb, rfl⟩ := run_bind_eq_ok.mp h
  obtain ⟨c, d, hc, hd, rfl⟩ := run_bind_eq_ok.mp ha
  have htaken : c.rest.length < trees.length := by
    refine AdvancesWhen.run_lt (p := (· = true)) hmeaning.goesForward hmeaning.advances hc ?_
    obtain ⟨⟨taken, rest⟩, hmatch⟩ := Option.isSome_iff_exists.mp hsees
    rw [acceptOp, run_accept, hmatch] at hc
    cases hc
    rfl
  have hround := (run_suffix hmeaning.goesForward hd).length_le
  have hrest := (run_suffix hmeaning.goesForward hb).length_le
  exact Nat.lt_of_le_of_lt hrest (Nat.lt_of_le_of_lt hround htaken)

/-- Around a bound the parentheses may be printed once, but only if further bounds follow. -/
instance : (parenType plus).Flush .back := by
  refine ((carries_held inferInstance).bind fun (enclosed, trees) => ?_).flush
  cases enclosed with
  | one shape =>
    constructor
    intro meaning closing rest reply hmeaning h
    rw [run_next_bind] at h
    split at h
    · rename_i hmore
      have hsees : (Sight.op "+").sees rest = true := by simp_all
      obtain ⟨a, b, ha, hb, rfl⟩ := run_bind_eq_ok.mp h
      obtain ⟨c, d, hc, hd, rfl⟩ := run_bind_eq_ok.mp hb
      cases ha
      cases hd
      have hlt := furtherBounds_lt hmeaning hsees hc
      have hflush : c.Flush .back rest := Flush.run_ok hmeaning hc
      exact ((hflush.after (.of_silent _ _)).of_after_lt hlt List.suffix_rfl).carries hlt
    · exact ((carries_emit trees).bind fun _ => carries_pure rfl).run_ok hmeaning h
  | _ => exact FlushBehind.carries

instance : typePath.Flush .back := by
  have hround (form : PathForm) :
      Carries .back form.pending (Sum.elim PathForm.pending PathForm.pending) (do
        if form.isOpen && (← parensFollow) then
          match ← parenTail with
          | none | some .parenType => return .inl (← moreSegments false form.applied)
          | some _ => return .inl form.applied
        return .inr form : Rule (PathForm ⊕ PathForm)) := by
    refine carries_silent.bind fun _ => carries_ite ?_ (carries_pure rfl)
    refine (carries_of_advances inferInstance inferInstance).bind fun given => ?_
    have hmore : Carries .back [] (Sum.elim PathForm.pending PathForm.pending) (do
        return .inl (← moreSegments false form.applied) : Rule (PathForm ⊕ PathForm)) :=
      (carries_moreSegments false form.applied).bind fun _ => carries_pure rfl
    match given with
    | none => exact hmore
    | some shape =>
      cases shape
      case parenType => exact hmore
      all_goals exact carries_pure rfl
  refine ((carries_qualifiedPath false).bind fun form => ?_).flush
  refine (carries_iterate hround form).bind fun form => ?_
  exact (carries_finish form).bind fun _ => carries_pure rfl

instance : typePath.Advances := by unfold typePath; infer_instance

instance (bound? : Option (List Tree)) : (pathType bound? plus).Flush .back := by
  refine flush_held_of_advances inferInstance inferInstance fun form trees hne => ?_
  refine carries_ite FlushBehind.carries (carries_silent.bind fun _ => ?_)
  refine carries_ite FlushBehind.carries ((carries_emit_other hne _).bind fun _ => ?_)
  exact FlushBehind.carries

instance (bound? : Option (List Tree)) : (pathType bound? plus).Advances := by
  unfold pathType; infer_instance

instance : (boundType plus).Flush .back := by unfold boundType; infer_instance
instance : (objectType plus).Flush .back := by unfold objectType; infer_instance
instance : bracketType.Flush .back := by unfold bracketType; infer_instance
instance : (type plus).Flush .back := by unfold type; infer_instance
instance : genericArguments.Flush .back := by unfold genericArguments; infer_instance

end Rule

end KeyedModel.Grammar
