import KeyedModel.Grammar.Generics
import KeyedModel.Proofs.Grammar.Blind

/-!
# Types without places

Paths, bounds and types are read without places as with them. Of the values that these rules pass
on, a shape may hold the place of some dots, a path the empty list of arguments that is not printed
yet, and a bound the place where it ends.
-/

namespace KeyedModel.Grammar

open Token (Tree Place sign)
open Placed (unplaced)

set_option synthInstance.maxSize 10000000

/-! ### Shapes and phrases -/

/-- No other shape is this one without its places. -/
class Shape.Placeless (shape : Shape) : Prop where
  unplaced_eq_iff : ∀ other : Shape, unplaced other = shape ↔ other = shape

theorem Shape.placeless {shape : Shape} (h : ∀ dots, shape ≠ .openRange dots) :
    shape.Placeless where
  unplaced_eq_iff other := by
    cases other with
    | openRange dots => exact ⟨fun heq => absurd heq.symm (h _), fun heq => absurd heq.symm (h _)⟩
    | _ => rfl

instance : Shape.Placeless .plain := Shape.placeless nofun
instance : Shape.Placeless .literal := Shape.placeless nofun
instance : Shape.Placeless .comparison := Shape.placeless nofun
instance : Shape.Placeless .range := Shape.placeless nofun
instance : Shape.Placeless .blockLike := Shape.placeless nofun
instance : Shape.Placeless .asWritten := Shape.placeless nofun
instance : Shape.Placeless .segment := Shape.placeless nofun
instance : Shape.Placeless .path := Shape.placeless nofun
instance : Shape.Placeless .parenType := Shape.placeless nofun
instance : Shape.Placeless .bound := Shape.placeless nofun
instance : Shape.Placeless .parenBound := Shape.placeless nofun

instance (braced : Bool) : Shape.Placeless (.macroCall braced) := Shape.placeless nofun

@[simp] theorem Shape.unplaced_self (shape : Shape) [h : shape.Placeless] :
    unplaced shape = shape :=
  (h.unplaced_eq_iff shape).mpr rfl

instance (shape : Shape) [shape.Placeless] : Unplaced shape shape := ⟨shape.unplaced_self.symm⟩

@[simp] theorem Shape.unplaced_openRange (dots : Place) :
    unplaced (openRange dots) = .openRange none := rfl

instance {dots dots' : Place} [h : Unplaced dots dots'] :
    Unplaced (Shape.openRange dots) (.openRange dots') :=
  ⟨congrArg Shape.openRange h.eq⟩

section

variable {shape shape' : Shape} [h : Unplaced shape shape']

instance (sought : Shape) [hsought : sought.Placeless] :
    Unplaced (shape == sought) (shape' == sought) where
  eq := by
    rw [h.eq, Bool.eq_iff_iff, beq_iff_eq]
    exact (hsought.unplaced_eq_iff shape).trans beq_iff_eq.symm

instance : Unplaced (([] : List Shape).contains shape) ([].contains shape') := ⟨rfl⟩

instance (sought : Shape) (others : List Shape) [sought.Placeless]
    [hothers : Unplaced (others.contains shape) (others.contains shape')] :
    Unplaced ((sought :: others).contains shape) ((sought :: others).contains shape') :=
  inferInstanceAs (Unplaced (shape == sought || others.contains shape)
    (shape' == sought || others.contains shape'))

instance (sought : Shape) [sought.Placeless] : Unplaced (shape != sought) (shape' != sought) :=
  inferInstanceAs (Unplaced (!(shape == sought)) (!(shape' == sought)))

instance (plus : Bool) : Unplaced (Nonterminal.type plus) (.type plus) := ⟨rfl⟩
instance : Unplaced Nonterminal.genericArguments .genericArguments := ⟨rfl⟩
instance : Unplaced Nonterminal.pattern .pattern := ⟨rfl⟩
instance : Unplaced Nonterminal.patterns .patterns := ⟨rfl⟩
instance (braces : Bool) : Unplaced (Nonterminal.expr braces) (.expr braces) := ⟨rfl⟩
instance (braces : Bool) : Unplaced (Nonterminal.operand braces) (.operand braces) := ⟨rfl⟩
instance : Unplaced Nonterminal.statementExpr .statementExpr := ⟨rfl⟩
instance : Unplaced Nonterminal.statements .statements := ⟨rfl⟩
instance : Unplaced Nonterminal.item .item := ⟨rfl⟩
instance : Unplaced Nonterminal.fields .fields := ⟨rfl⟩
instance (roots : Bool) : Unplaced (Nonterminal.useTree roots) (.useTree roots) := ⟨rfl⟩

instance (precedence : Precedence) (braces : Bool) :
    Unplaced (Nonterminal.rightOperand precedence braces) (.rightOperand precedence braces) := ⟨rfl⟩

instance (base : Precedence) (braces : Bool) :
    Unplaced (Nonterminal.exprFrom shape base braces) (.exprFrom shape' base braces) :=
  ⟨by rw [h.eq]; rfl⟩

end

/-! ### What is known of a path -/

instance : Placed Arguments where
  unplaced
    | .empty written => .empty (unplaced written)
    | arguments => arguments

instance : Placed PathForm := ⟨fun form => { form with last := unplaced form.last }⟩
instance : Placed Printed := ⟨fun printed => { printed with trees := unplaced printed.trees }⟩
instance : Unplaced Arguments.none .none := ⟨rfl⟩
instance : Unplaced Arguments.angled .angled := ⟨rfl⟩

instance {written written' : List Tree} [h : Unplaced written written'] :
    Unplaced (Arguments.empty written) (.empty written') :=
  ⟨congrArg Arguments.empty h.eq⟩

section

variable {form form' : PathForm} {last last' : Arguments} [hform : Unplaced form form']
  [hlast : Unplaced last last']

instance : Unplaced form.qualified form'.qualified := ⟨by rw [hform.eq]; rfl⟩
instance : Unplaced form.bare form'.bare := ⟨by rw [hform.eq]; rfl⟩
instance : Unplaced form.last form'.last := ⟨congrArg PathForm.last hform.eq⟩
instance : Unplaced form.applied form'.applied := ⟨by rw [hform.eq]; rfl⟩

instance (qualified absolute : Bool) :
    Unplaced (PathForm.start qualified absolute last) (.start qualified absolute last') where
  eq := by rw [hlast.eq]; cases last <;> rfl

instance : Unplaced (form.extend last) (form'.extend last') where
  eq := by rw [hform.eq, hlast.eq]; cases last <;> rfl

instance : Unplaced form.isOpen form'.isOpen where
  eq := by
    rw [hform.eq]
    obtain ⟨qualified, single, bare, last⟩ := form
    cases last <;> rfl

instance : Unplaced form.shape form'.shape where
  eq := by
    rw [hform.eq]
    obtain ⟨_ | _, _ | _, bare, last⟩ := form <;> cases last <;> rfl

end

section

variable {printed printed' : Printed} [h : Unplaced printed printed']

instance : Unplaced printed.isLifetime printed'.isLifetime := ⟨by rw [h.eq]; rfl⟩
instance : Unplaced printed.trees printed'.trees := ⟨by rw [h.eq]; rfl⟩

end

namespace Rule

instance (c : Char) : Unplaced (sign c) (sign c) := ⟨rfl⟩

instance {isLifetime : Bool} {trees trees' : List Tree} [h : Unplaced trees trees'] :
    Unplaced (Printed.mk isLifetime trees) ⟨isLifetime, trees'⟩ :=
  ⟨congrArg (Printed.mk isLifetime) h.eq⟩

/-- The elements of a list are put in order by what they are. -/
instance {elements elements' : List (Listed Printed)} [h : Unplaced elements elements'] :
    Unplaced (lifetimesFirst elements) (lifetimesFirst elements') := by
  unfold lifetimesFirst
  infer_instance

/-! ### Attributes and blocks -/

instance : plainPath.Blind := by unfold plainPath; infer_instance
instance : attributeValue.Blind := by unfold attributeValue; infer_instance
instance : attributeBody.Blind := by unfold attributeBody; infer_instance
instance : attributes.Blind := by unfold attributes; infer_instance
instance : innerAttributes.Blind := by unfold innerAttributes; infer_instance
instance : block.Blind := by unfold block; infer_instance
instance : attributedBlock.Blind := by unfold attributedBlock; infer_instance
instance : callsMacro.Blind := by unfold callsMacro; infer_instance
instance : macroArguments.Blind := by unfold macroArguments; infer_instance

/-! ### Paths -/

instance {form form' : PathForm} [h : Unplaced form form'] :
    (finish form).Unplaces (finish form') := by
  rw [h.eq]
  obtain ⟨qualified, single, bare, last⟩ := form
  cases last with
  | empty written => exact inferInstanceAs (Unplaces (emit written) (emit (unplaced written)))
  | _ => exact inferInstanceAs (Unplaces (pure ()) (pure ()))

instance (inExpr : Bool) : (segment inExpr).Blind := by unfold segment; infer_instance

instance (inExpr : Bool) {form form' : PathForm} [Unplaced form form'] :
    (moreSegments inExpr form).Unplaces (moreSegments inExpr form') := by
  unfold moreSegments; infer_instance

instance (inExpr : Bool) : (path inExpr).Blind := by unfold path; infer_instance

instance (inExpr : Bool) : (qualifiedPath inExpr).Blind := by unfold qualifiedPath; infer_instance

instance : valuePath.Blind := by unfold valuePath; infer_instance
instance (plus : Bool) : (returnType plus).Blind := by unfold returnType; infer_instance
instance : parenArguments.Blind := by unfold parenArguments; infer_instance
instance : parensFollow.Blind := by unfold parensFollow; infer_instance
instance : parenTail.Blind := by unfold parenTail; infer_instance
instance : lifetimeBounds.Blind := by unfold lifetimeBounds; infer_instance
instance : binder.Blind := by unfold binder; infer_instance
instance : acceptBinder.Blind := by unfold acceptBinder; infer_instance
instance : captures.Blind := by unfold captures; infer_instance

end Rule

/-! ### Bounds -/

instance : Placed BoundForm where
  unplaced
    | .other _ => .other none
    | form => form

@[simp] theorem BoundForm.unplaced_trait : unplaced trait = trait := rfl
@[simp] theorem BoundForm.unplaced_constant : unplaced constant = constant := rfl
@[simp] theorem BoundForm.unplaced_other (last : Place) : unplaced (other last) = other none := rfl

instance : Unplaced BoundForm.trait .trait := ⟨rfl⟩
instance : Unplaced BoundForm.constant .constant := ⟨rfl⟩

instance {last last' : Place} [h : Unplaced last last'] :
    Unplaced (BoundForm.other last) (.other last') :=
  ⟨congrArg BoundForm.other h.eq⟩

instance {form form' : BoundForm} [h : Unplaced form form'] :
    Unplaced (form == .constant) (form' == .constant) where
  eq := by rw [h.eq]; cases form <;> rfl

namespace Rule

instance : traitPath.Blind := by unfold traitPath; infer_instance

instance (constants : Bool) : (traitBound constants).Blind := by unfold traitBound; infer_instance

instance (capturing constants : Bool) : (bound capturing constants).Blind := by
  unfold bound; infer_instance

instance {stops stops' : Rule Bool} [stops.Unplaces stops'] :
    (boundsUntil stops).Unplaces (boundsUntil stops') := by
  unfold boundsUntil; infer_instance

instance {stops stops' : Rule Bool} [stops.Unplaces stops'] :
    (boundsFilling stops).Unplaces (boundsFilling stops') := by
  unfold boundsFilling; infer_instance

instance (constants : Bool) : (boundsGoOn constants).Blind := by unfold boundsGoOn; infer_instance

instance {start start' : Place} [Unplaced start start'] (plus capturing constants : Bool)
    (missing : Cause) : (objectBounds start plus capturing constants missing).Unplaces
      (objectBounds start' plus capturing constants missing) := by
  unfold objectBounds
  refine unplaces_bind (unplaces_iterate (fun state => unplaces_bind inferInstance fun form => ?_)
    inferInstance) fun withoutTrait => ?_
  · cases state <;> cases form <;>
      simp only [unplaced_none, unplaced_some, BoundForm.unplaced_trait,
        BoundForm.unplaced_constant, BoundForm.unplaced_other] <;>
      infer_instance
  · cases withoutTrait <;> simp only [unplaced_none, unplaced_some] <;> infer_instance

/-! ### Generic arguments -/

instance : constArgument.Blind := by unfold constArgument; infer_instance
instance : genericArgument.Blind := by unfold genericArgument; infer_instance
instance : genericArguments.Blind := by unfold genericArguments; infer_instance

/-! ### Function pointers -/

instance : convention.Blind := by unfold convention; infer_instance

instance (first : Bool) : (pointerParameter first).Blind := by
  unfold pointerParameter; infer_instance

instance : variadicFollows.Blind := by unfold variadicFollows; infer_instance
instance : pointerParameters.Blind := by unfold pointerParameters; infer_instance
instance : functionPointer.Blind := by unfold functionPointer; infer_instance

end Rule

/-! ### Types in parentheses -/

instance : Placed Rule.Enclosed where
  unplaced
    | .one shape => .one (unplaced shape)
    | enclosed => enclosed

namespace Rule

@[simp] theorem Enclosed.unplaced_whole : unplaced whole = whole := rfl
@[simp] theorem Enclosed.unplaced_object : unplaced object = object := rfl
@[simp] theorem Enclosed.unplaced_relaxed : unplaced relaxed = relaxed := rfl

@[simp] theorem Enclosed.unplaced_one (shape : Shape) :
    unplaced (one shape) = one (unplaced shape) := rfl

instance : Unplaced Enclosed.whole .whole := ⟨rfl⟩
instance : Unplaced Enclosed.object .object := ⟨rfl⟩
instance : Unplaced Enclosed.relaxed .relaxed := ⟨rfl⟩

instance {shape shape' : Shape} [h : Unplaced shape shape'] :
    Unplaced (Enclosed.one shape) (.one shape') :=
  ⟨congrArg Enclosed.one h.eq⟩

instance : enclosedType.Blind := by unfold enclosedType; infer_instance
instance : furtherBounds.Blind := by unfold furtherBounds; infer_instance

instance {trees trees' : List Tree} [h : Unplaced trees trees'] :
    Unplaced (unwrapped trees) (unwrapped trees') where
  eq := by
    rw [h.eq]
    rcases trees with _ | ⟨_ | _ | _ | ⟨d, opening, inner, closed⟩, _ | _⟩
    case cons.group.nil => simp [unwrapped]
    all_goals rfl

instance (plus : Bool) : (parenType plus).Blind := by
  unfold parenType
  refine unplaces_bind inferInstance fun (enclosed, trees) => ?_
  cases enclosed <;>
    simp only [unplaced_pair, Enclosed.unplaced_whole, Enclosed.unplaced_object,
      Enclosed.unplaced_relaxed, Enclosed.unplaced_one] <;>
    infer_instance

/-! ### Types that begin with a path -/

/-- Only whether a type in parentheses is given back matters. -/
instance : typePath.Blind := by
  unfold typePath
  refine unplaces_bind inferInstance fun form => unplaces_bind (unplaces_iterate (fun form =>
    unplaces_bind inferInstance fun follows => unplaces_ite inferInstance
      (unplaces_bind inferInstance fun given => ?_) inferInstance) inferInstance) inferInstance
  rcases given with _ | given
  · rw [unplaced_none]
    infer_instance
  · cases given <;>
      simp only [unplaced_some, Shape.unplaced_self, Shape.unplaced_openRange] <;>
      infer_instance

instance {bound? bound?' : Option (List Tree)} [Unplaced bound? bound?'] (plus : Bool) :
    (pathType bound? plus).Unplaces (pathType bound?' plus) := by
  unfold pathType; infer_instance

instance (plus : Bool) : (boundType plus).Blind := by unfold boundType; infer_instance

instance (plus : Bool) : (objectType plus).Blind := by unfold objectType; infer_instance

instance : bracketType.Blind := by unfold bracketType; infer_instance
instance (plus : Bool) : (type plus).Blind := by unfold type; infer_instance

end Rule

end KeyedModel.Grammar
