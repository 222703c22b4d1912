import KeyedModel.Grammar.Generics
import KeyedModel.Proofs.Grammar.Tidy
import KeyedModel.Proofs.Token.Lexed

/-!
# Attributes, paths, types and parameters keep trees writable

The rules are followed in the order in which they are declared. Those that take values apart are
split by hand, the others are put together from their parts.
-/

namespace KeyedModel.Grammar

open Token (Tree Place Delimiter Writable sign)

set_option synthInstance.maxSize 1000000

namespace Rule

/-! ### Attributes, macro calls and blocks -/

instance : plainPath.Tidy := by unfold plainPath; infer_instance
instance : attributeValue.Tidy := by unfold attributeValue; infer_instance
instance : attributeBody.Tidy := by unfold attributeBody; infer_instance
instance : attributes.Tidy := by unfold attributes; infer_instance
instance : innerAttributes.Tidy := by unfold innerAttributes; infer_instance
instance : block.Tidy := by unfold block; infer_instance
instance : attributedBlock.Tidy := by unfold attributedBlock; infer_instance
instance : callsMacro.Tidy := by unfold callsMacro; infer_instance
instance : macroArguments.Tidy := by unfold macroArguments; infer_instance

end Rule

/-! ### Values of paths -/

instance : CarriesTrees Arguments :=
  ⟨fun arguments => ∀ trees, arguments = .empty trees → Writable trees⟩
instance : CarriesTrees PathForm := ⟨fun form => IsWritable form.last⟩
instance : CarriesTrees Printed := ⟨fun printed => IsWritable printed.trees⟩

instance : IsWritable Arguments.none := ⟨by simp [CarriesTrees.Writable]⟩
instance : IsWritable Arguments.angled := ⟨by simp [CarriesTrees.Writable]⟩
instance : IsWritable Arguments.parenthesized := ⟨by simp [CarriesTrees.Writable]⟩

instance (trees : List Tree) [IsWritable trees] : IsWritable (Arguments.empty trees) where
  out found heq := by
    cases heq
    exact writable trees

instance (isLifetime : Bool) (trees : List Tree) [h : IsWritable trees] :
    IsWritable (⟨isLifetime, trees⟩ : Printed) := ⟨h⟩

section

variable (form : PathForm) (last : Arguments) [IsWritable last]

instance (qualified absolute : Bool) : IsWritable (PathForm.start qualified absolute last) := ⟨‹_›⟩
instance : IsWritable (form.extend last) := ⟨‹_›⟩
instance : IsWritable form.applied := ⟨inferInstanceAs (IsWritable Arguments.parenthesized)⟩

end

namespace Rule

/-- Trees of several elements can be written down behind each other. -/
theorem writable_flatMap {α : Type} {f : α → List Tree} {as : List α}
    (h : ∀ a ∈ as, Writable (f a)) : Writable (as.flatMap f) := by
  induction as with
  | nil => exact .nil
  | cons a rest ih =>
    rw [List.flatMap_cons]
    exact (h a List.mem_cons_self).append (ih fun b hb => h b (List.mem_cons_of_mem _ hb))

/-- Lifetimes can be moved to the front, and given the comma that they lack. -/
instance (elements : List (Listed Printed)) [helements : IsWritable elements] :
    IsWritable (lifetimesFirst elements) := by
  have hprint (keep : Listed Printed → Bool) :
      Writable ((elements.filter keep).flatMap fun e => e.element.trees ++ e.comma) := by
    refine writable_flatMap fun e he => ?_
    obtain ⟨helement, hcomma⟩ := (helements.out e ((List.mem_filter.mp he).1)).out
    exact helement.out.out.append hcomma.out
  have hcomma : Writable [sign ','] := .alone (by decide) (by decide)
  refine ⟨((hprint _).append ?_).append (hprint _)⟩
  split
  · exact hcomma
  · exact .nil

/-! ### Paths -/

instance (form : PathForm) [hform : IsWritable form] : (finish form).Tidy := by
  unfold finish
  split
  · rename_i trees hlast
    have : IsWritable trees := ⟨hform.out.out trees hlast⟩
    infer_instance
  · infer_instance

instance (inExpr : Bool) : (segment inExpr).Tidy := by unfold segment; infer_instance

instance (inExpr : Bool) (form : PathForm) [IsWritable form] : (moreSegments inExpr form).Tidy := by
  unfold moreSegments; infer_instance

instance (inExpr : Bool) : (path inExpr).Tidy := by unfold path; infer_instance
instance (inExpr : Bool) : (qualifiedPath inExpr).Tidy := by unfold qualifiedPath; infer_instance
instance : valuePath.Tidy := by unfold valuePath; infer_instance
instance (plus : Bool) : (returnType plus).Tidy := by unfold returnType; infer_instance
instance : parenArguments.Tidy := by unfold parenArguments; infer_instance
instance : parensFollow.Tidy := by unfold parensFollow; infer_instance
instance : parenTail.Tidy := by unfold parenTail; infer_instance

/-! ### Bounds -/

instance : lifetimeBounds.Tidy := by unfold lifetimeBounds; infer_instance

instance : binder.Tidy := by unfold binder; infer_instance
instance : acceptBinder.Tidy := by unfold acceptBinder; infer_instance
instance : captures.Tidy := by unfold captures; infer_instance

instance : Treeless BoundForm where

instance : traitPath.Tidy := by unfold traitPath; infer_instance
instance (constants : Bool) : (traitBound constants).Tidy := by unfold traitBound; infer_instance

instance (capturing constants : Bool) : (bound capturing constants).Tidy := by
  unfold bound; infer_instance

instance (stops : Rule Bool) [stops.Tidy] : (boundsUntil stops).Tidy := by
  unfold boundsUntil; infer_instance

instance (stops : Rule Bool) [stops.Tidy] : (boundsFilling stops).Tidy := by
  unfold boundsFilling; infer_instance

instance (constants : Bool) : (boundsGoOn constants).Tidy := by unfold boundsGoOn; infer_instance

instance (start : Place) (plus capturing constants : Bool) (missing : Cause) :
    (objectBounds start plus capturing constants missing).Tidy := by
  unfold objectBounds; infer_instance

/-! ### Generic arguments -/

instance {α : Type} [CarriesTrees α] : (unfit : Rule α).Tidy := by unfold unfit; infer_instance
instance : constArgument.Tidy := by unfold constArgument; infer_instance
instance : genericArgument.Tidy := by unfold genericArgument; infer_instance
instance : genericArguments.Tidy := by unfold genericArguments; infer_instance

/-! ### Types -/

instance : convention.Tidy := by unfold convention; infer_instance
instance (first : Bool) : (pointerParameter first).Tidy := by
  unfold pointerParameter; infer_instance
instance : variadicFollows.Tidy := by unfold variadicFollows; infer_instance
instance : pointerParameters.Tidy := by unfold pointerParameters; infer_instance
instance : functionPointer.Tidy := by unfold functionPointer; infer_instance

instance : Treeless Enclosed where

instance : enclosedType.Tidy := by unfold enclosedType; infer_instance
instance : furtherBounds.Tidy := by unfold furtherBounds; infer_instance

/-- The trees of a group can be written down without its delimiters. -/
instance (trees : List Tree) [htrees : IsWritable trees] : IsWritable (unwrapped trees) := by
  unfold unwrapped
  split
  · exact ⟨Writable.group.mp htrees.out⟩
  · exact htrees

instance (plus : Bool) : (parenType plus).Tidy := by
  unfold parenType
  refine tidy_bind inferInstance fun (enclosed, trees) h => ?_
  have htrees : IsWritable trees := h.out.2
  cases enclosed <;> infer_instance

instance : typePath.Tidy := by
  unfold typePath
  refine tidy_bind inferInstance fun start _ => ?_
  refine tidy_bind (tidy_iterate (fun form _ => ?_) inferInstance) fun form _ => inferInstance
  refine tidy_bind inferInstance fun follow _ => ?_
  split
  · refine tidy_bind inferInstance fun given _ => ?_
    split <;> infer_instance
  · infer_instance

instance (bound? : Option (List Tree)) [IsWritable bound?] (plus : Bool) :
    (pathType bound? plus).Tidy := by
  unfold pathType; infer_instance

instance (plus : Bool) : (boundType plus).Tidy := by unfold boundType; infer_instance
instance (plus : Bool) : (objectType plus).Tidy := by unfold objectType; infer_instance
instance : bracketType.Tidy := by unfold bracketType; infer_instance
instance (plus : Bool) : (type plus).Tidy := by unfold type; infer_instance

end Rule

/-! ### Generic parameters and where clauses -/

instance : CarriesTrees GenericParam :=
  ⟨fun param => IsWritable param.name ∧ IsWritable param.declaration ∧ IsWritable param.default⟩

instance (isLifetime : Bool) (name declaration default : List Tree) [IsWritable name]
    [IsWritable declaration] [IsWritable default] :
    IsWritable (⟨isLifetime, name, declaration, default⟩ : GenericParam) := ⟨‹_›, ‹_›, ‹_›⟩

namespace GenericParams

/-- Parameters can be written down in each form in which a parameter can. -/
theorem writable_printWith {form : GenericParam → List Tree} (params : GenericParams)
    [IsWritable params] (hform : ∀ param, IsWritable param → IsWritable (form param)) :
    IsWritable (params.printWith form) := by
  have (l : WritableValue (Rule.Listed GenericParam)) : IsWritable (form l.val.element) :=
    hform _ inferInstance
  have hopen : Writable [sign '<'] := .alone (by decide) (by decide)
  have hclose : Writable [sign '>'] := .alone (by decide) (by decide)
  unfold printWith
  split
  · infer_instance
  · exact ⟨hopen.append ((writable (Rule.lifetimesFirst _)).append hclose)⟩

variable (params : GenericParams) [IsWritable params]

instance : IsWritable params.declared :=
  params.writable_printWith fun _ h => ⟨h.out.2.1.out.append h.out.2.2.out⟩

instance : IsWritable params.withoutDefaults := params.writable_printWith fun _ h => h.out.2.1
instance : IsWritable params.asArguments := params.writable_printWith fun _ h => h.out.1

end GenericParams

namespace Rule

instance (attributes : List Tree) [IsWritable attributes] : (lifetimeParam attributes).Tidy := by
  unfold lifetimeParam; infer_instance

instance (attributes : List Tree) [IsWritable attributes] : (typeParam attributes).Tidy := by
  unfold typeParam; infer_instance

instance (attributes : List Tree) [IsWritable attributes] : (constParam attributes).Tidy := by
  unfold constParam; infer_instance

instance : genericParam.Tidy := by unfold genericParam; infer_instance
instance : genericParams.Tidy := by unfold genericParams; infer_instance
instance : printedGenerics.Tidy := by unfold printedGenerics; infer_instance
instance (after : Nat) : (opensGenerics after).Tidy := by unfold opensGenerics; infer_instance
instance : predicatesEnd.Tidy := by unfold predicatesEnd; infer_instance
instance : predicate.Tidy := by unfold predicate; infer_instance
instance : predicates.Tidy := by unfold predicates; infer_instance
instance : whereClause.Tidy := by unfold whereClause; infer_instance
instance : acceptWhere.Tidy := by unfold acceptWhere; infer_instance

end Rule

end KeyedModel.Grammar
