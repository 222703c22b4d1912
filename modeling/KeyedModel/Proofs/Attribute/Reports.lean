import KeyedModel.Proofs.Argument.Segments
import KeyedModel.Proofs.Attribute.Outcome
import KeyedModel.Proofs.Field.Verdicts

/-!
# What is reported of an argument list

An argument is bad if it has none of the shapes that describe a field, or if it has one and fails a
rule. Every bad argument has an error of its own, found among its tokens. But the rules are applied
only if every argument has the right shape: one argument of another shape hides all that the rules
have to say about the others.
-/

namespace KeyedModel

open Token (Tree Place lex)
open Text (unraw)
open Grammar (ArgumentShape Item StructItem readItem readArguments meaningFor)
open Grammar.Rule (extent)

/-- The errors of an argument list, for a struct with the given fields of its own: one for each
argument of a shape that describes no field, and one for each of the others that fails a rule, in
order. Each is found among the tokens of its argument. -/
structure ListErrors (own : List String) (segments : List Segment)
    (shapeErrors : List ArgumentError) (ruleErrors : List FieldError) : Prop where
  shapes : List.Forall₂ (fun segment e => segment.error? = some e ∧ LocatedIn e.place segment.trees)
    (segments.filter (·.argument?.isNone)) shapeErrors
  rules : ∃ positions : List Nat, positions.Pairwise (· < ·) ∧
    (∀ i, i ∈ positions ↔ ∃ fault, RejectedAt own (segments.filterMap (·.argument?)) i fault) ∧
    List.Forall₂ (fun i e => RejectedAt own (segments.filterMap (·.argument?)) i e.fault ∧
      ∃ segment, (segments.filter (·.argument?.isSome))[i]? = some segment ∧
        LocatedIn e.place segment.trees) positions ruleErrors

/-- What the user is told: errors of shape hide those by the rules. -/
def reported (shapeErrors : List ArgumentError) (ruleErrors : List FieldError) : List Diagnostic :=
  if shapeErrors.isEmpty then ruleErrors.map .ofField else shapeErrors.map .ofArgument

/-! ### Both kinds of errors -/

/-- A text opens as its first part does. -/
theorem opens_append {opening front : String} (h : opening.toList <+: front.toList)
    (back : String) : opening.toList <+: (front ++ back).toList := by
  rw [String.toList_append]
  exact h.trans (List.prefix_append _ _)

/-- How errors of shape are worded. -/
theorem ArgumentFault.message_opening (fault : ArgumentFault) :
    ∃ opening ∈ ["Unexpe", "field l", "expect"], opening.toList <+: fault.message.toList := by
  cases fault with
  | wrongLiteral kind =>
    exact ⟨"Unexpe", by decide, opens_append (opens_append (by decide) _) _⟩
  | compoundLabel => exact ⟨"field l", by decide, by decide⟩
  | wrongValue label => exact ⟨"expect", by decide, opens_append (opens_append (by decide) _) _⟩
  | missingValue => exact ⟨"expect", by decide, by decide⟩
  | list => exact ⟨"Unexpe", by decide, by decide⟩

/-- How errors by a rule are worded. -/
theorem FieldFault.message_opening (fault : FieldFault) :
    ∃ opening ∈ ["backing", "`", "field `", "Duplicate"],
      opening.toList <+: fault.message.toList := by
  cases fault with
  | emptyKey label => exact ⟨"backing", by decide, opens_append (opens_append (by decide) _) _⟩
  | notIdentifier value =>
    refine ⟨"`", by decide, ?_⟩
    exact opens_append (opens_append (opens_append (opens_append (by decide) _) _) _) _
  | reserved => exact ⟨"`", by decide, opens_append (opens_append (by decide) _) _⟩
  | declared name => exact ⟨"field `", by decide, opens_append (opens_append (by decide) _) _⟩
  | repeatedName name =>
    exact ⟨"Duplicate", by decide, opens_append (opens_append (by decide) _) _⟩
  | repeatedKey key => exact ⟨"backing", by decide, opens_append (opens_append (by decide) _) _⟩

/-- An error of shape is worded differently from an error by a rule. -/
theorem ArgumentFault.message_ne (fault : ArgumentFault) (other : FieldFault) :
    fault.message ≠ other.message := by
  intro h
  obtain ⟨opening, hopening, hprefix⟩ := fault.message_opening
  obtain ⟨opening', hopening', hprefix'⟩ := other.message_opening
  rw [h] at hprefix
  have hapart : ∀ a ∈ ["Unexpe", "field l", "expect"],
      ∀ b ∈ ["backing", "`", "field `", "Duplicate"],
        ¬ a.toList <+: b.toList ∧ ¬ b.toList <+: a.toList := by decide
  rcases List.prefix_or_prefix_of_prefix hprefix hprefix' with hleft | hright
  · exact (hapart _ hopening _ hopening').1 hleft
  · exact (hapart _ hopening _ hopening').2 hright

/-- Everything is reported exactly when there are errors of one kind only. -/
theorem all_reported_iff {shapeErrors : List ArgumentError} {ruleErrors : List FieldError} :
    (∀ d ∈ shapeErrors.map Diagnostic.ofArgument ++ ruleErrors.map Diagnostic.ofField,
      d ∈ reported shapeErrors ruleErrors) ↔ shapeErrors = [] ∨ ruleErrors = [] := by
  cases shapeErrors with
  | nil => simp [reported]
  | cons e more =>
    cases ruleErrors with
    | nil => simp [reported]
    | cons f others =>
      simp only [reduceCtorEq, or_false, iff_false]
      intro h
      have hmem := h (.ofField f) (by simp)
      obtain ⟨e', -, heq⟩ := List.mem_map.mp hmem
      exact ArgumentFault.message_ne _ _ (congrArg Diagnostic.message heq)

/-! ### Errors of a divided list -/

section

variable {own : List String} {segments : List Segment}

/-- An argument that is in error has an error of its own. -/
theorem shapeErrors_located
    (hlocated : ∀ segment ∈ segments, ∀ e, segment.error? = some e →
      LocatedIn e.place segment.trees) :
    List.Forall₂ (fun segment e => segment.error? = some e ∧ LocatedIn e.place segment.trees)
      (segments.filter (·.argument?.isNone)) (segments.filterMap Segment.error?) := by
  induction segments with
  | nil => exact .nil
  | cons segment rest ih =>
    have hrest := ih fun s hs => hlocated s (List.mem_cons_of_mem _ hs)
    cases hshape : Argument.ofShape segment.shape with
    | ok a =>
      have hargument : segment.argument? = some a := by
        rw [Segment.argument?, hshape, Except.toOption]
      have herror : segment.error? = none := by rw [Segment.error?, hshape]
      simpa [List.filter_cons, hargument, herror] using hrest
    | error e =>
      have hargument : segment.argument? = none := by
        rw [Segment.argument?, hshape, Except.toOption]
      have herror : segment.error? = some e := by rw [Segment.error?, hshape]
      have hplace := hlocated segment List.mem_cons_self e herror
      simpa [List.filter_cons, hargument, herror] using ⟨hplace, hrest⟩

/-- The arguments that are found are those of the segments that have one. -/
theorem exists_segment_of_found {a : Argument} {i : Nat}
    (h : (segments.filterMap (·.argument?))[i]? = some a) :
    ∃ segment, (segments.filter (·.argument?.isSome))[i]? = some segment ∧
      segment.argument? = some a := by
  induction segments generalizing i with
  | nil => simp at h
  | cons segment rest ih =>
    cases hargument : segment.argument? with
    | none =>
      rw [List.filterMap_cons_none hargument] at h
      simpa [List.filter_cons, hargument] using ih h
    | some b =>
      rw [List.filterMap_cons_some hargument] at h
      rw [List.filter_cons_of_pos (by simp [hargument])]
      cases i with
      | zero => exact ⟨segment, rfl, by simpa [hargument] using h⟩
      | succ i => exact ih (by simpa using h)

/-- Every bad argument of a divided list has an error of its own, found among its tokens. -/
theorem listErrors_of_divided {depth : Nat} {arguments : List Tree}
    (hlexed : ∀ t ∈ arguments, t.All Token.Leaf.Denotes)
    (h : Divided (Grammar.meaningOf Grammar.rules depth) arguments segments) :
    ListErrors own segments (segments.filterMap Segment.error?)
      (errorsOf (judge (own.map unraw) .none (segments.filterMap (·.argument?)))) where
  shapes := shapeErrors_located fun segment hmem e he => h.locatedIn hmem he
  rules := by
    obtain ⟨positions, hsorted, hmem, herrors⟩ :=
      errorsOf_judge own (segments.filterMap (·.argument?))
    refine ⟨positions, hsorted, hmem, herrors.imp ?_⟩
    rintro i e ⟨hrejected, hplace⟩
    obtain ⟨a, ha, hplace⟩ := Option.map_eq_some_iff.mp hplace
    obtain ⟨segment, hsegment, hargument⟩ := exists_segment_of_found ha
    have hmem : segment ∈ segments := (List.mem_filter.mp (List.mem_of_getElem? hsegment)).1
    exact ⟨hrejected, segment, hsegment, hplace ▸ (h.written hlexed hmem hargument).locatedIn⟩

/-- The shapes of a list are gathered into its errors, or else into its arguments. -/
theorem gather_segments (segments : List Segment) :
    gather ((segments.map Segment.shape).map Argument.ofShape) =
      if (segments.filterMap Segment.error?).isEmpty then .ok (segments.filterMap (·.argument?))
      else .error (segments.filterMap Segment.error?) := by
  have herrors : errorsOf ((segments.map Segment.shape).map Argument.ofShape) =
      segments.filterMap Segment.error? := by
    rw [errorsOf, List.map_map, List.filterMap_map]
    refine List.filterMap_congr fun segment _ => ?_
    simp only [Function.comp, Segment.error?]
    cases Argument.ofShape segment.shape <;> rfl
  rw [gather_eq, herrors, List.map_map, List.filterMap_map]
  rfl

end

/-! ### The attribute -/

section

variable {arguments item tokens : List Tree} {s : StructItem} {segments : List Segment}

/-- A refused argument list of a struct that can become a model refuses the attribute. -/
theorem applyAttribute_of_refused {refusal : Refusal}
    (hread : readItem item = .ok (.struct s, tokens)) (htarget : (Item.struct s).target = .model)
    (hlist : Field.ofList (s.ownFields.map (·.ident)) arguments = .error refusal) :
    applyAttribute arguments item = .ok (refused refusal.diagnostics tokens) := by
  have hrequest : Request.of arguments (.struct s) = .error refusal := by
    simp only [Request.of, htarget, Item.ownIdents, hlist, Except.map]
  have hexpansion : Expansion.of arguments (.struct s) = .error refusal := by
    simp only [Expansion.of, hrequest]
  simp only [applyAttribute, hread, Item.apply_of_refused hexpansion]

/-- The attribute is refused with what is reported, if anything is. -/
theorem applyAttribute_of_segments (hread : readItem item = .ok (.struct s, tokens))
    (htarget : (Item.struct s).target = .model)
    (hshapes : readArguments arguments = .ok (segments.map Segment.shape)) :
    let shapeErrors := segments.filterMap Segment.error?
    let ruleErrors := errorsOf (judge ((s.ownFields.map (·.ident)).map unraw) .none
      (segments.filterMap (·.argument?)))
    (reported shapeErrors ruleErrors ≠ [] →
      applyAttribute arguments item = .ok (refused (reported shapeErrors ruleErrors) tokens)) ∧
    (reported shapeErrors ruleErrors = [] → ∃ fields, Accepts arguments s fields) := by
  intro shapeErrors ruleErrors
  have hgather := gather_segments segments
  by_cases hempty : shapeErrors.isEmpty = true
  · -- Every argument has the right shape, so the rules are applied.
    rw [if_pos hempty] at hgather
    have harguments : Argument.ofTrees arguments = .ok (segments.filterMap (·.argument?)) := by
      simp only [Argument.ofTrees, hshapes, hgather]
    rw [reported, if_pos hempty, ne_eq, List.map_eq_nil_iff]
    constructor
    · intro hne
      have hfields := gather_eq_error.mpr ⟨hne, rfl⟩
      have hlist : Field.ofList (s.ownFields.map (·.ident)) arguments =
          .error (.fields ruleErrors) := by
        simp only [Field.ofList, harguments, Field.ofArguments, hfields]
      exact applyAttribute_of_refused hread htarget hlist
    · intro hnil
      obtain ⟨fields, hfields⟩ := errorsOf_eq_nil.mp hnil
      exact ⟨fields, htarget, Field.ofList_eq_ok.mpr ⟨_, harguments, hfields⟩⟩
  · rw [if_neg hempty] at hgather
    have hlist : Field.ofList (s.ownFields.map (·.ident)) arguments =
        .error (.arguments (.arguments shapeErrors)) := by
      simp only [Field.ofList, Argument.ofTrees, hshapes, hgather, shapeErrors]
    rw [reported, if_neg hempty, ne_eq, List.map_eq_nil_iff]
    constructor
    · intro _
      exact applyAttribute_of_refused hread htarget hlist
    · intro hnil
      exact absurd (List.isEmpty_iff.mpr hnil) hempty

end

/-- What is reported of an argument list that follows its grammar, for a struct that can become a
model. Every argument of a shape that describes no field has an error, and so has every other one
that fails a rule; each error is found among the tokens of its argument. The attribute is refused
with the errors of shape if there are any, and otherwise with those by the rules; if there are none
of either kind the list is accepted. So all errors are reported exactly when they are of one kind. -/
theorem applyAttribute_reports {source attr : String} {arguments item tokens : List Tree}
    {s : StructItem} {shapes : List ArgumentShape} (hlex : lex source attr = some arguments)
    (hread : readItem item = .ok (.struct s, tokens)) (htarget : (Item.struct s).target = .model)
    (hshapes : readArguments arguments = .ok shapes) :
    ∃ segments shapeErrors ruleErrors,
      Divided (meaningFor arguments) arguments segments ∧ segments.map Segment.shape = shapes ∧
      ListErrors (s.ownFields.map (·.ident)) segments shapeErrors ruleErrors ∧
      (reported shapeErrors ruleErrors ≠ [] →
        applyAttribute arguments item = .ok (refused (reported shapeErrors ruleErrors) tokens)) ∧
      (reported shapeErrors ruleErrors = [] → ∃ fields, Accepts arguments s fields) ∧
      ((∀ d ∈ shapeErrors.map Diagnostic.ofArgument ++ ruleErrors.map Diagnostic.ofField,
        d ∈ reported shapeErrors ruleErrors) ↔ shapeErrors = [] ∨ ruleErrors = []) := by
  obtain ⟨segments, hdivided, rfl⟩ := divided_of_readArguments hshapes
  obtain ⟨hrefused, haccepted⟩ := applyAttribute_of_segments hread htarget hshapes
  exact ⟨segments, _, _, hdivided, rfl,
    listErrors_of_divided (Token.holdsOfLexed_denotes.lex hlex) hdivided, hrefused, haccepted,
    all_reported_iff⟩

/-! ### A number in front of the identity's name -/

namespace NumberAndIdentity

/-- A place in the first line of the attribute. -/
def spot (start stop : Nat) : Place := some ⟨"attr", ⟨1, start⟩, ⟨1, stop⟩⟩

/-- The argument `42`. -/
def number : Segment := ⟨[.literal "42" (spot 0 2)], .literal [.literal "42" (spot 0 2)]⟩

/-- The argument `id = "x"`. -/
def identity : Segment :=
  ⟨[.ident "id" (spot 4 6), .punct '=' .alone (spot 7 8), .literal "\"x\"" (spot 9 12)],
    .assigned [.ident "id" (spot 4 6)] true [.literal "\"x\"" (spot 9 12)]⟩

/-- The arguments `42, id = "x"`. -/
def arguments : List Tree := number.trees ++ .punct ',' .alone (spot 2 3) :: identity.trees

theorem lex_arguments : lex "attr" "42, id = \"x\"" = some arguments := rfl

theorem readArguments_eq :
    readArguments arguments = .ok ([number, identity].map Segment.shape) := rfl

theorem divided : Divided (meaningFor arguments) arguments [number, identity] :=
  .cons ⟨_, rfl, rfl, rfl⟩ (.last ⟨_, rfl, rfl, rfl⟩)

/-- A unit struct can become a model. -/
theorem exists_item : ∃ item tokens s, lex "item" "struct A;" = some item ∧
    readItem item = .ok (.struct s, tokens) ∧ (Item.struct s).target = .model ∧
      s.ownFields = [] :=
  ⟨_, _, _, rfl, rfl, rfl, rfl⟩

/-- Nothing in the second argument stands where the first one does. -/
theorem not_locatedIn_identity : ¬ LocatedIn (spot 0 2) identity.trees := by
  rintro ⟨part, hne, hpart, hplace⟩
  obtain ⟨t, rest, rfl⟩ := List.exists_cons_of_ne_nil hne
  have hmem : t ∈ identity.trees := hpart.subset List.mem_cons_self
  have hstart : ∀ t ∈ identity.trees, ∃ start stop, t.place = spot (start + 1) stop := by
    simp [identity, spot, Tree.place]
  obtain ⟨start, stop, ht⟩ := hstart t hmem
  rw [extent, List.head?_cons, Option.bind_some, ht] at hplace
  cases hlast : (t :: rest).getLast?.bind Tree.place <;> simp [hlast, spot, Place.to] at hplace

end NumberAndIdentity

section

open NumberAndIdentity

/-- A number hides the rule about the identity's name; both errors there are found where they
belong. -/
theorem applyAttribute_reports_number :
    ∃ item tokens, ∃ s : StructItem, ∃ segments shapeErrors ruleErrors,
      lex "item" "struct A;" = some item ∧
      Divided (meaningFor arguments) arguments segments ∧
      ListErrors (s.ownFields.map (·.ident)) segments shapeErrors ruleErrors ∧
      (reported shapeErrors ruleErrors ≠ [] →
        applyAttribute arguments item = .ok (refused (reported shapeErrors ruleErrors) tokens)) ∧
      ((∀ d ∈ shapeErrors.map Diagnostic.ofArgument ++ ruleErrors.map Diagnostic.ofField,
        d ∈ reported shapeErrors ruleErrors) ↔ shapeErrors = [] ∨ ruleErrors = []) := by
  obtain ⟨item, tokens, s, hitem, hread, htarget, -⟩ := exists_item
  obtain ⟨segments, shapeErrors, ruleErrors, hdivided, -, herrors, hrefused, -, hall⟩ :=
    applyAttribute_reports lex_arguments hread htarget readArguments_eq
  exact ⟨item, tokens, s, segments, shapeErrors, ruleErrors, hitem, hdivided, herrors, hrefused,
    hall⟩

/-- A number hides that the identity's name is taken. -/
theorem not_forall_bad_arguments_reported :
    ¬ ∀ attr text arguments item tokens s segments diagnostics,
      lex "attr" attr = some arguments → lex "item" text = some item →
        readItem item = .ok (.struct s, tokens) → (Item.struct s).target = .model →
          readArguments arguments = .ok (segments.map Segment.shape) →
            Divided (meaningFor arguments) arguments segments →
              applyAttribute arguments item = .ok (refused diagnostics tokens) →
                (∀ segment ∈ segments, segment.argument? = none →
                  ∃ d ∈ diagnostics, LocatedIn d.place segment.trees) ∧
                ∀ i fault, RejectedAt (s.ownFields.map (·.ident))
                    (segments.filterMap (·.argument?)) i fault →
                  ∃ segment, (segments.filter (·.argument?.isSome))[i]? = some segment ∧
                    ∃ d ∈ diagnostics, LocatedIn d.place segment.trees := by
  intro h
  obtain ⟨item, tokens, s, hitem, hread, htarget, hown⟩ := exists_item
  have hout : applyAttribute arguments item =
      .ok (refused [.ofArgument ⟨.wrongLiteral .int, spot 0 2⟩] tokens) :=
    (applyAttribute_of_segments hread htarget readArguments_eq).1 (List.cons_ne_nil _ _)
  obtain ⟨-, hrules⟩ :=
    h _ _ _ _ _ _ _ _ lex_arguments hitem hread htarget readArguments_eq divided hout
  have hdescribed : DescribedAt ([number, identity].filterMap (·.argument?)) 0 ⟨"id", "x"⟩ :=
    ⟨.labeled "id" ⟨"x", spot 9 12⟩, rfl, rfl⟩
  obtain ⟨segment, hsegment, d, hd, hlocated⟩ := hrules 0 .reserved (.reserved hdescribed rfl)
  obtain rfl : identity = segment := Option.some.inj hsegment
  obtain rfl := List.mem_singleton.mp hd
  exact not_locatedIn_identity hlocated

end

end KeyedModel
