import KeyedModel.Proofs.Generated.Visibility
import KeyedModel.Proofs.Grammar.CommaLists

/-!
# Structs that were read

A struct is printed from the parts that were kept of it. This file says what is known of these parts
when the struct was read off a text: its generic parameters and its fields are lists with commas,
and the declaration of a parameter is apart from its default.
-/

namespace KeyedModel.Grammar

open Token (Tree Place sign unplacedAll unplacedAll_append)
open Generated (separated)

set_option synthInstance.maxSize 10000000

variable {meaning : Meaning} {closing : Place} {trees : List Tree}

/-! ### Generic parameters -/

/-- How a generic parameter is declared. Its name is one word or one lifetime; a default is not part
of the declaration, which goes on with bounds or a type behind a colon, if at all. -/
inductive GenericParam.Declared : GenericParam → Prop where
  | lifetime {attributes bounds : List Tree} {mark place : Place} {name : String}
    (hbounds : Led ':' bounds) :
    Declared ⟨true, [.punct '\'' .joint mark, .ident name place],
      attributes ++ [.punct '\'' .joint mark, .ident name place] ++ bounds, []⟩
  | type {attributes bounds default : List Tree} {place : Place} {name : String}
    (hbounds : Led ':' bounds) (hdefault : Led '=' default) :
    Declared ⟨false, [.ident name place], attributes ++ [.ident name place] ++ bounds, default⟩
  | constant {attributes type default : List Tree} {mark place colon : Place} {name : String}
    (hdefault : Led '=' default) :
    Declared ⟨false, [.ident name place],
      attributes ++ [.ident "const" mark] ++ [.ident name place] ++ .punct ':' .alone colon :: type,
      default⟩

/-- The parameters in the order in which they print: lifetimes first. -/
def GenericParams.ordered (params : GenericParams) : List GenericParam :=
  (params.map (·.element)).filter (·.isLifetime) ++
    (params.map (·.element)).filter (!·.isLifetime)

/-- Elements between angle brackets, with commas between them and perhaps behind the last; nothing
if there is none. Places do not count. -/
inductive Angled (elements : List (List Tree)) (printed : List Tree) : Prop where
  | none (helements : elements = []) (hprinted : printed = [])
  | some {trailing : List Tree} (helements : elements ≠ []) (htrailing : trailing ∈ trailings)
    (hprinted : unplacedAll printed =
      sign '<' :: (unplacedAll (separated elements ++ trailing) ++ [sign '>']))

/-- Every parameter stands in the order once. -/
theorem GenericParams.ordered_perm (params : GenericParams) :
    params.ordered.Perm (params.map (·.element)) :=
  List.filter_append_perm _ _

/-- The lifetimes, a comma where one is missing behind them, and the other parameters. -/
theorem lifetimesFirst_params (params : GenericParams) (form : GenericParam → List Tree) :
    Rule.lifetimesFirst (params.map fun p => ⟨⟨p.element.isLifetime, form p.element⟩, p.comma⟩) =
      listed form (params.filter (·.element.isLifetime)) ++
        (if !(params.filter (!·.element.isLifetime)).isEmpty &&
            (params.filter (·.element.isLifetime)).getLast?.any (·.comma.isEmpty)
          then [sign ','] else []) ++
        listed form (params.filter (!·.element.isLifetime)) := by
  simp only [Rule.lifetimesFirst, listed, List.filter_map, List.flatMap_map, List.getLast?_map,
    Option.any_map, List.isEmpty_map, Function.comp_def]

/-- Parameters print in their order, with commas between them and perhaps behind the last. -/
theorem exists_trailing_lifetimesFirst {params : GenericParams} (h : Separated params)
    (form : GenericParam → List Tree) :
    ∃ trailing ∈ trailings,
      unplacedAll (Rule.lifetimesFirst
          (params.map fun p => ⟨⟨p.element.isLifetime, form p.element⟩, p.comma⟩)) =
        unplacedAll (separated (params.ordered.map form) ++ trailing) := by
  have hordered : params.ordered.map form =
      (params.filter (·.element.isLifetime) ++ params.filter (!·.element.isLifetime)).map
        (form ·.element) := by
    simp [GenericParams.ordered, List.filter_map, Function.comp_def]
  rw [lifetimesFirst_params, hordered]
  exact (h.filter _).exists_trailing_append (h.filter _) form

/-- Parameters in one of their forms print between angle brackets. -/
theorem angled_printWith {params : GenericParams} (h : Separated params)
    (form : GenericParam → List Tree) :
    Angled (params.ordered.map form) (params.printWith form) := by
  cases params with
  | nil => exact .none rfl rfl
  | cons p rest =>
    obtain ⟨trailing, hmem, heq⟩ := exists_trailing_lifetimesFirst h form
    refine .some ?_ hmem ?_
    · intro hnil
      have hlength := (GenericParams.ordered_perm (p :: rest)).length_eq
      simp [List.map_eq_nil_iff.mp hnil] at hlength
    · rw [GenericParams.printWith, if_neg (by simp), ← heq, ← List.cons_append, unplacedAll_append]
      rfl

namespace Rule

/-! ### Parameters -/

theorem prints_lifetimeBounds : lifetimeBounds.Prints (Led ':') where
  out h := by
    unfold lifetimeBounds at h
    rw [run_next_bind] at h
    split at h
    · obtain ⟨a, b, ha, hb, rfl⟩ := run_bind_eq_ok.mp h
      obtain ⟨c, hc, rfl⟩ := run_held_eq_ok.mp ha
      obtain ⟨place, hplace⟩ := (prints_op ':' rfl).out hc
      obtain ⟨d, e, hd, he, rfl⟩ := run_bind_eq_ok.mp hb
      obtain ⟨f, hf, rfl⟩ := run_held_eq_ok.mp hd
      dsimp only at he
      split at he
      · obtain ⟨g, k, hg, hk, rfl⟩ := run_bind_eq_ok.mp he
        cases hg
        exact .inr ⟨place, k.printed, by simp [Reply.after, hplace]⟩
      · cases he
        exact .inl rfl
    · cases h
      exact .inl rfl

theorem returns_lifetimeParam (attributes : List Tree) :
    (lifetimeParam attributes).Returns GenericParam.Declared := by
  refine returns_held_bind prints_lifetime fun _ name hname => ?_
  obtain ⟨mark, spelling, place, rfl⟩ := hname
  refine returns_held_bind prints_lifetimeBounds fun _ bounds hbounds => ?_
  exact returns_pure (.lifetime hbounds)

theorem returns_typeParam (attributes : List Tree) :
    (typeParam attributes).Returns GenericParam.Declared := by
  refine returns_held_bind prints_name fun _ name hname => ?_
  obtain ⟨spelling, place, rfl⟩ := hname
  have hrest {bounds : List Tree} (hbounds : Led ':' bounds) :
      Returns GenericParam.Declared (do
        let default ← held (do
          if ← acceptOp "=" then phrase_ (.type true))
        return ⟨false, [.ident spelling place], attributes ++ [.ident spelling place] ++ bounds,
          default.2⟩) :=
    returns_held_bind (prints_acceptOp_bind '=' rfl) fun _ default hdefault =>
      returns_pure (.type hbounds hdefault)
  refine returns_behind fun colonNext => returns_ite ?_ (hrest (.inl rfl))
  refine returns_held_bind (prints_op ':' rfl) fun _ colon hcolon => ?_
  obtain ⟨mark, rfl⟩ := hcolon
  refine returns_behind fun bounds => hrest ?_
  obtain ⟨_, trees⟩ := bounds
  split
  · exact .inl rfl
  · exact .inr ⟨mark, trees, rfl⟩

theorem returns_constParam (attributes : List Tree) :
    (constParam attributes).Returns GenericParam.Declared := by
  refine returns_held_bind (prints_word _) fun _ constant hconstant => ?_
  obtain ⟨mark, rfl⟩ := hconstant
  refine returns_held_bind prints_name fun _ name hname => ?_
  obtain ⟨spelling, place, rfl⟩ := hname
  refine returns_held_bind (prints_op_behind ':' rfl) fun _ typed htyped => ?_
  obtain ⟨colon, type, rfl⟩ := htyped
  refine returns_held_bind (prints_acceptOp_bind '=' rfl) fun _ default hdefault => ?_
  exact returns_pure (.constant hdefault)

theorem returns_genericParam : genericParam.Returns GenericParam.Declared := by
  refine returns_behind fun (_, attributes) => ?_
  refine returns_behind fun _ => returns_ite (returns_lifetimeParam attributes) ?_
  refine returns_behind fun _ => returns_ite (returns_typeParam attributes) ?_
  refine returns_behind fun _ => returns_ite (returns_constParam attributes) ?_
  refine returns_behind fun _ => returns_ite ?_ (returns_expecting _)
  refine returns_held_bind prints_anyWord fun _ name hname => ?_
  obtain ⟨spelling, place, rfl⟩ := hname
  have hdeclared : GenericParam.Declared ⟨false, [.ident spelling place],
      attributes ++ [.ident spelling place] ++ [], []⟩ := .type (.inl rfl) (.inl rfl)
  rw [List.append_nil] at hdeclared
  exact returns_pure hdeclared

/-- Generic parameters that were read. -/
structure AreParams (params : GenericParams) : Prop where
  separated : Separated params
  declared : ∀ p ∈ params, p.element.Declared

theorem returns_genericParams : genericParams.Returns AreParams := by
  refine returns_behind fun _ => returns_ite (returns_silently ?_) ?_
  · refine returns_behind fun _ => ?_
    refine returns_bind (returns_listUntil returns_genericParam) fun params hparams => ?_
    exact returns_behind fun _ => returns_pure ⟨hparams.1, hparams.2⟩
  · exact returns_pure ⟨.all (by simp), by simp⟩

theorem returns_namedFields : namedFields.Returns Separated := by
  have hfields : (listUntil .nothing namedField).Returns _ :=
    returns_listUntil (p := fun _ => True) ⟨fun _ => trivial⟩
  refine returns_silently (returns_within ⟨fun h => ?_⟩)
  exact (hfields.out h).1

end Rule

/-! ### Structs -/

/-- What is known of a struct that was read: its attributes begin with their mark, and its generic
parameters and its fields are lists with commas. -/
structure StructItem.WasRead (s : StructItem) : Prop where
  attributes : Led '#' s.attributes
  generics : Rule.AreParams s.generics
  fields {own : List (Rule.Listed OwnField)} : s.body = .named own → Separated own

namespace Rule

theorem returns_structItem {attributes : List Tree} (hattributes : Led '#' attributes)
    (visibility : List Tree) :
    (structItem attributes visibility).Returns StructItem.WasRead := by
  refine returns_behind fun _ => returns_behind fun name => ?_
  refine returns_bind returns_genericParams fun generics hgenerics => ?_
  have hother (whereClause : List Tree) {body : StructBody} (hbody : ∀ own, body ≠ .named own) :
      StructItem.WasRead ⟨attributes, visibility, name, generics, whereClause, body⟩ :=
    ⟨hattributes, hgenerics, fun h => absurd h (hbody _)⟩
  refine returns_behind fun _ => returns_ite ?_ ?_
  · refine returns_behind fun (_, fields) => returns_behind fun _ => ?_
    refine returns_behind fun whereClause => returns_behind fun _ => ?_
    refine returns_ite ?_ (returns_bind (returns_expecting _) fun _ => False.elim)
    exact returns_behind fun _ => returns_pure (hother whereClause fun _ => StructBody.noConfusion)
  · refine returns_behind fun _ => returns_behind fun whereClause => returns_behind fun _ => ?_
    refine returns_ite ?_ ?_
    · exact returns_bind returns_namedFields fun own hown =>
        returns_pure ⟨hattributes, hgenerics, fun h => StructBody.named.inj h ▸ hown⟩
    · refine returns_behind fun _ => returns_ite ?_ (returns_expecting _)
      exact returns_behind fun _ =>
        returns_pure (hother whereClause fun _ => StructBody.noConfusion)

instance (terminal : Terminal) : (declaredName terminal).PrintsNothing := by
  have hname (v : List Tree × List Tree) : (match v with
      | (_, [.ident name _]) => pure name
      | _ => pure "" : Rule String).PrintsNothing := by
    split <;> infer_instance
  unfold declaredName; infer_instance

instance : genericParams.PrintsNothing := by unfold genericParams; infer_instance
instance : whereClause.PrintsNothing := by unfold whereClause; infer_instance
instance : keptWhere.PrintsNothing := by unfold keptWhere; infer_instance
instance : namedFields.PrintsNothing := by unfold namedFields; infer_instance

instance (attributes visibility : List Tree) : (structItem attributes visibility).PrintsNothing := by
  unfold structItem; infer_instance

end Rule

/-- A struct that is read prints itself, from lists with commas. -/
theorem struct_of_readItem {s : StructItem} {printed : List Tree}
    (h : readItem trees = .ok (.struct s, printed)) : s.WasRead ∧ printed = s.trees := by
  obtain ⟨attributes, visibility, found, hattributes, -, hfound, rfl, rfl⟩ :=
    exists_run_structItem h
  have hsilent : found.printed = [] := Rule.PrintsNothing.out.out hfound
  exact ⟨(Rule.returns_structItem (Rule.prints_attributes.out hattributes) _).out hfound,
    by rw [hsilent, List.nil_append]⟩

end KeyedModel.Grammar
