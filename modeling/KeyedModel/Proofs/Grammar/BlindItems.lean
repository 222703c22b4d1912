import KeyedModel.Grammar.Language
import KeyedModel.Proofs.Grammar.BlindExpressions

/-!
# Items without places

Items and statements are read without places as with them, and so is every phrase of the grammar.
The parts of a struct are kept as tokens, and the word of a receiver has a place as well.
-/

namespace KeyedModel.Grammar

open Token (Tree Place Delimiter sign)
open Placed (unplaced)

set_option synthInstance.maxSize 10000000

/-! ### Items as values -/

instance : Placed GenericParam where
  unplaced p := ⟨p.isLifetime, unplaced p.name, unplaced p.declaration, unplaced p.default⟩

instance : Placed OwnField where
  unplaced f := ⟨unplaced f.attributes, unplaced f.visibility, f.ident, unplaced f.typed⟩

instance : Placed StructBody where
  unplaced
    | .named fields => .named (unplaced fields)
    | .tuple fields => .tuple (unplaced fields)
    | .unit => .unit

instance : Placed StructItem where
  unplaced s := ⟨unplaced s.attributes, unplaced s.visibility, s.name, unplaced s.generics,
    unplaced s.whereClause, unplaced s.body⟩

instance : Placed Item where
  unplaced
    | .struct s => .struct (unplaced s)
    | item => item

instance : Placed Rule.ParameterForm where
  unplaced
    | .receiver _ => .receiver none
    | form => form

instance : Placed Rule.TypeForm := ⟨id⟩
instance : Plain Rule.TypeForm := ⟨fun _ => rfl⟩
instance : Placed StatementEnd := ⟨id⟩
instance : Plain StatementEnd := ⟨fun _ => rfl⟩
instance : Placed Rule.CallSort := ⟨id⟩
instance : Plain Rule.CallSort := ⟨fun _ => rfl⟩
instance (name : String) : Unplaced (Token.word name) (Token.word name) := ⟨rfl⟩

section

variable {p p' : GenericParam} {params params' : GenericParams} {form : GenericParam → List Tree}
  {name name' declaration declaration' default default' : List Tree}

instance [hname : Unplaced name name'] [hdeclaration : Unplaced declaration declaration']
    [hdefault : Unplaced default default'] (isLifetime : Bool) :
    Unplaced (GenericParam.mk isLifetime name declaration default)
      ⟨isLifetime, name', declaration', default'⟩ :=
  ⟨by rw [hname.eq, hdeclaration.eq, hdefault.eq]; rfl⟩

instance [h : Unplaced p p'] : Unplaced p.isLifetime p'.isLifetime := ⟨by rw [h.eq]; rfl⟩
instance [h : Unplaced p p'] : Unplaced p.declaration p'.declaration := ⟨by rw [h.eq]; rfl⟩
instance [h : Unplaced p p'] : Unplaced p.default p'.default := ⟨by rw [h.eq]; rfl⟩

instance [Unplaced params params'] [∀ p, Unplaced (form p) (form (unplaced p))] :
    Unplaced (params.printWith form) (params'.printWith form) := by
  unfold GenericParams.printWith; infer_instance

instance [Unplaced params params'] : Unplaced params.declared params'.declared := by
  unfold GenericParams.declared; infer_instance

end

section

variable {f f' : OwnField} {fields fields' : List (Rule.Listed OwnField)} {body body' : StructBody}
  {generics generics' : GenericParams} {s s' : StructItem}
  {attributes attributes' visibility visibility' typed typed' whereClause whereClause' trees
    trees' : List Tree}

instance [hattributes : Unplaced attributes attributes']
    [hvisibility : Unplaced visibility visibility'] [htyped : Unplaced typed typed'] (ident : String) :
    Unplaced (OwnField.mk attributes visibility ident typed)
      ⟨attributes', visibility', ident, typed'⟩ :=
  ⟨by rw [hattributes.eq, hvisibility.eq, htyped.eq]; rfl⟩

instance [h : Unplaced f f'] : Unplaced f.trees f'.trees := by
  rw [h.eq]
  exact inferInstanceAs (Unplaced (f.attributes ++ f.visibility ++ Token.word f.ident :: f.typed)
    (unplaced f.attributes ++ unplaced f.visibility ++ Token.word f.ident :: unplaced f.typed))

instance [h : Unplaced fields fields'] : Unplaced (StructBody.named fields) (.named fields') :=
  ⟨congrArg StructBody.named h.eq⟩

instance [h : Unplaced trees trees'] : Unplaced (StructBody.tuple trees) (.tuple trees') :=
  ⟨congrArg StructBody.tuple h.eq⟩

instance : Unplaced StructBody.unit .unit := ⟨rfl⟩

instance [hattributes : Unplaced attributes attributes']
    [hvisibility : Unplaced visibility visibility'] [hgenerics : Unplaced generics generics']
    [hwhere : Unplaced whereClause whereClause'] [hbody : Unplaced body body'] (name : String) :
    Unplaced (StructItem.mk attributes visibility name generics whereClause body)
      ⟨attributes', visibility', name, generics', whereClause', body'⟩ :=
  ⟨by rw [hattributes.eq, hvisibility.eq, hgenerics.eq, hwhere.eq, hbody.eq]; rfl⟩

instance [h : Unplaced trees trees'] (d : Delimiter) :
    Unplaced (Token.group d trees) (Token.group d trees') where
  eq := by rw [h.eq, Token.group, Token.group, unplaced_group]

instance [h : Unplaced s s'] : Unplaced s.header s'.header := by
  rw [h.eq]
  exact inferInstanceAs (Unplaced
    (s.attributes ++ s.visibility ++ Token.word "struct" :: Token.word s.name :: s.generics.declared)
    (unplaced s.attributes ++ unplaced s.visibility ++ Token.word "struct" :: Token.word s.name ::
      (unplaced s.generics : GenericParams).declared))

instance [h : Unplaced s s'] : Unplaced s.trees s'.trees := by
  have hheader : Unplaced s.header s'.header := inferInstance
  rw [h.eq] at hheader ⊢
  obtain ⟨attributes, visibility, name, generics, whereClause, body⟩ := s
  unfold StructItem.trees
  cases body with
  | named fields =>
    exact inferInstanceAs (Unplaced
      (_ ++ whereClause ++ [Token.group .brace (fields.flatMap fun f => f.element.trees ++ f.comma)])
      (_ ++ unplaced whereClause ++ [Token.group .brace
        ((unplaced fields).flatMap fun f => f.element.trees ++ f.comma)]))
  | tuple fields =>
    exact inferInstanceAs (Unplaced (_ ++ Token.group .paren fields :: (whereClause ++ [sign ';']))
      (_ ++ Token.group .paren (unplaced fields) :: (unplaced whereClause ++ [sign ';'])))
  | unit =>
    exact inferInstanceAs (Unplaced (_ ++ whereClause ++ [sign ';'])
      (_ ++ unplaced whereClause ++ [sign ';']))

instance [h : Unplaced s s'] : Unplaced (Item.struct s) (.struct s') := ⟨congrArg Item.struct h.eq⟩

end

instance : Placed ItemKind := ⟨id⟩
instance : Plain ItemKind := ⟨fun _ => rfl⟩

instance {kind kind' : ItemKind} [h : Unplaced kind kind'] (name : String) :
    Unplaced (Item.other kind name) (.other kind' name) :=
  ⟨by rw [h.eq]; rfl⟩

instance {item item' : Item} [h : Unplaced item item'] :
    Unplaced item.isAsWritten item'.isAsWritten where
  eq := by rw [h.eq]; cases item <;> rfl

namespace Rule

/-! ### Generic parameters -/

section

variable {attributes attributes' : List Tree} [Unplaced attributes attributes']

instance : (lifetimeParam attributes).Unplaces (lifetimeParam attributes') := by
  unfold lifetimeParam; infer_instance

instance : (typeParam attributes).Unplaces (typeParam attributes') := by
  unfold typeParam; infer_instance

instance : (constParam attributes).Unplaces (constParam attributes') := by
  unfold constParam; infer_instance

end

instance : genericParam.Blind := by unfold genericParam; infer_instance
instance : genericParams.Blind := by unfold genericParams; infer_instance
instance : printedGenerics.Blind := by unfold printedGenerics; infer_instance
instance : predicatesEnd.Blind := by unfold predicatesEnd; infer_instance
instance : predicate.Blind := by unfold predicate; infer_instance
instance : predicates.Blind := by unfold predicates; infer_instance
instance : whereClause.Blind := by unfold whereClause; infer_instance
instance : acceptWhere.Blind := by unfold acceptWhere; infer_instance

/-! ### Visibility -/

instance : visibility.Blind := by unfold visibility; infer_instance

/-! ### Structs -/

instance (t : Terminal) : (declaredName t).Blind := by
  unfold declaredName
  refine unplaces_bind inferInstance fun (used, printed) => ?_
  rcases printed with _ | ⟨_ | _ | _ | _, _ | _⟩ <;>
    simp only [unplaced_pair, unplaced_cons, unplaced_nil, unplaced_ident, unplaced_punct,
      unplaced_literal, unplaced_group] <;>
    infer_instance

instance (t : Terminal) : (printedName t).Blind := by unfold printedName; infer_instance
instance (unnamed : Bool) : (fieldType unnamed).Blind := by unfold fieldType; infer_instance
instance : namedField.Blind := by unfold namedField; infer_instance
instance : namedFields.Blind := by unfold namedFields; infer_instance
instance : fields.Blind := by unfold fields; infer_instance
instance : tupleFields.Blind := by unfold tupleFields; infer_instance
instance : keptWhere.Blind := by unfold keptWhere; infer_instance

instance {attributes attributes' visibility visibility' : List Tree}
    [Unplaced attributes attributes'] [Unplaced visibility visibility'] :
    (structItem attributes visibility).Unplaces (structItem attributes' visibility') := by
  unfold structItem; infer_instance

/-! ### Functions -/

instance (words : List String) : (signatureFollows.acceptOne words).Blind := by
  induction words <;> unfold signatureFollows.acceptOne <;> infer_instance

instance (safety : List String) : (signatureFollows safety).Blind := by
  unfold signatureFollows; infer_instance

@[simp] theorem ParameterForm.unplaced_receiver (spot : Place) :
    unplaced (receiver spot) = receiver none := rfl

@[simp] theorem ParameterForm.unplaced_typed : unplaced typed = typed := rfl
@[simp] theorem ParameterForm.unplaced_variadic : unplaced variadic = variadic := rfl

instance {spot spot' : Place} [h : Unplaced spot spot'] :
    Unplaced (ParameterForm.receiver spot) (.receiver spot') :=
  ⟨congrArg ParameterForm.receiver h.eq⟩

instance : Unplaced ParameterForm.typed .typed := ⟨rfl⟩
instance : Unplaced ParameterForm.variadic .variadic := ⟨rfl⟩
instance : receiver.Blind := by unfold receiver; infer_instance
instance : parameter.Blind := by unfold parameter; infer_instance
instance : parameters.Blind := by
  unfold parameters
  have hround (received? : Option Bool) : Blind (do
      if ← next .nothing then return .inr ()
      attributes
      let form ← if ← acceptOp "..." then pure .variadic else parameter
      match form, received? with
      | .variadic, _ =>
        if !(← next .nothing) then op ","
        return .inr ()
      | .receiver spot, some true => .failAt spot .secondReceiver
      | .receiver spot, some false => .failAt spot .lateReceiver
      | _, _ => pure ()
      if ← next .nothing then return .inr ()
      op ","
      return .inl (some (form matches .receiver _ || received? == some true)) :
        Rule (Option Bool ⊕ Unit)) := by
    refine unplaces_bind inferInstance fun ended => unplaces_ite inferInstance inferInstance
      (unplaces_bind inferInstance fun _ => unplaces_bind inferInstance fun variadic =>
        unplaces_ite inferInstance ?_ ?_)
    all_goals
      refine unplaces_bind inferInstance fun form => ?_
      cases form <;> rcases received? with _ | _ | _ <;>
        simp only [ParameterForm.unplaced_receiver, ParameterForm.unplaced_typed,
          ParameterForm.unplaced_variadic] <;>
        infer_instance
  infer_instance

instance (safe : Bool) : (signature safe).Blind := by unfold signature; infer_instance

/-! ### Other parts -/

instance : macroItem.Blind := by unfold macroItem; infer_instance

instance (whereBefore whereAfter : Bool) : (typeDeclaration whereBefore whereAfter).Blind := by
  unfold typeDeclaration; infer_instance

instance : constantName.Blind := by unfold constantName; infer_instance
instance : constantBody.Blind := by unfold constantBody; infer_instance
instance : bodyOrEnd.Blind := by unfold bodyOrEnd; infer_instance
instance : traitItem.Blind := by unfold traitItem; infer_instance
instance : implItem.Blind := by unfold implItem; infer_instance
instance : foreignStatic.Blind := by unfold foreignStatic; infer_instance
instance : foreignItem.Blind := by unfold foreignItem; infer_instance

instance (item : Rule Unit) [item.Blind] : (itemBlock item).Blind := by
  unfold itemBlock; infer_instance

/-! ### Items -/

instance : variant.Blind := by unfold variant; infer_instance
instance : functionItem.Blind := by unfold functionItem; infer_instance
instance : foreignCrate.Blind := by unfold foreignCrate; infer_instance

instance {start start' : Place} [Unplaced start start'] (inherited : Bool) :
    (foreignBlock start inherited).Unplaces (foreignBlock start' inherited) := by
  unfold foreignBlock; infer_instance

instance {start start' : Place} [Unplaced start start'] (inherited : Bool) :
    (foreignItems start inherited).Unplaces (foreignItems start' inherited) := by
  unfold foreignItems; infer_instance

instance (roots : Bool) : (useTree roots).Blind := by unfold useTree; infer_instance
instance : useItem.Blind := by unfold useItem; infer_instance
instance : staticItem.Blind := by unfold staticItem; infer_instance
instance : moduleItem.Blind := by unfold moduleItem; infer_instance
instance : traitBody.Blind := by unfold traitBody; infer_instance
instance : markedTrait.Blind := by unfold markedTrait; infer_instance
instance : traitOrAlias.Blind := by unfold traitOrAlias; infer_instance
instance (inherited : Bool) : (implementation inherited).Blind := by
  unfold implementation; infer_instance

instance {start start' : Place} [Unplaced start start'] (inherited : Bool) :
    (unsafeItem start inherited).Unplaces (unsafeItem start' inherited) := by
  unfold unsafeItem; infer_instance

instance : macroDeclaration.Blind := by unfold macroDeclaration; infer_instance
instance : macroCall.Blind := by unfold macroCall; infer_instance

instance {start start' : Place} [Unplaced start start'] {inherited inherited' : Bool}
    [h : Unplaced inherited inherited'] :
    (otherItem start inherited).Unplaces (otherItem start' inherited') := by
  rw [show inherited' = inherited from h.eq]
  unfold otherItem
  infer_instance

instance {attributes attributes' : List Tree} [Unplaced attributes attributes'] :
    (itemBehind attributes).Unplaces (itemBehind attributes') := by
  unfold itemBehind; infer_instance

instance : item.Blind := by unfold item; infer_instance

/-! ### Statements -/

instance : callFollows.Blind := by unfold callFollows; infer_instance
instance : startsStatic.Blind := by unfold startsStatic; infer_instance
instance : startsConst.Blind := by unfold startsConst; infer_instance
instance : startsAsyncItem.Blind := by unfold startsAsyncItem; infer_instance
instance : startsItem.Blind := by unfold startsItem; infer_instance
instance {trees trees' : List Tree} [h : Unplaced trees trees'] :
    Unplaced (binding.endsWithBraces trees) (binding.endsWithBraces trees') where
  eq := by
    simp only [binding.endsWithBraces, h.eq,
      show (unplaced trees).getLast? = trees.getLast?.map unplaced from List.getLast?_map]
    rcases trees.getLast? with _ | _ | _ | _ | ⟨_ | _ | _, _, _, _⟩ <;> rfl

instance : binding.Blind := by unfold binding; infer_instance
instance : statement.Blind := by unfold statement; infer_instance
instance : statements.Blind := by unfold statements; infer_instance

end Rule

/-! ### Phrases -/

theorem unplaces_rules (n : Nonterminal) : (rules n).Unplaces (rules (unplaced n)) := by
  cases n with
  | exprFrom left base braces =>
    exact inferInstanceAs
      (Rule.Unplaces (.exprFrom left base braces) (.exprFrom (unplaced left) base braces))
  | _ =>
    simp only [unplaced]
    unfold rules
    infer_instance

/-- Phrases are read without places as they are read with them, however deeply they are nested. -/
theorem meaningOf_blind (depth : Nat) : (meaningOf rules depth).Blind := by
  induction depth with
  | zero => exact fun n closing trees => congrArg Except.error (errorAt_unplaced closing trees _)
  | succ depth ih => exact fun n closing trees => (unplaces_rules n).run_eq ih closing trees

end KeyedModel.Grammar
