import KeyedModel.Proofs.Argument.SpelledOut
import KeyedModel.Proofs.Attribute.Names
import KeyedModel.Proofs.Attribute.Sorting

/-!
# Attributes that are spelled out

A positional argument is short for a labeled one, in every list and for every item: whichever of them
are spelled out, the same fields are accepted, and what is refused is refused with the same messages,
although the arguments behind those stand elsewhere then.
-/

namespace KeyedModel

open Token (Tree Place lex)
open Grammar (ArgumentShape Item StructItem meaningFor readArguments readItem)

variable {own : List String} {arguments arguments' item : List Tree}
  {shapes shapes' : List ArgumentShape}

/-- What the user is told, wherever it is about. -/
def Refusal.messages (refusal : Refusal) : List String := refusal.diagnostics.map (·.message)

/-- Shapes that describe the same are gathered alike. -/
theorem Argument.gather_congr
    (h : shapes'.map (·.described) = shapes.map (·.described)) :
    ((gather (shapes'.map ofShape)).mapError (List.map ArgumentError.fault)).map
        (List.map Field.ofArgument) =
      ((gather (shapes.map ofShape)).mapError (List.map ArgumentError.fault)).map
        (List.map Field.ofArgument) := by
  have hdescribed (shapes : List ArgumentShape) :
      ((gather (shapes.map ofShape)).mapError (List.map ArgumentError.fault)).map
        (List.map Field.ofArgument) = gather (shapes.map (·.described)) := by
    rw [← gather_mapError, ← gather_map, List.map_map, List.map_map]
    rfl
  rw [hdescribed, hdescribed, h]

/-- The messages of a list that follows its grammar are those of the faults of its shapes, if there
are any, and otherwise those of the faults by the rules. -/
theorem Field.messages_ofList (hread : readArguments arguments = .ok shapes) :
    (Field.ofList own arguments).mapError Refusal.messages =
      match (gather (shapes.map Argument.ofShape)).mapError (List.map ArgumentError.fault) with
      | .error faults => .error (faults.map ArgumentFault.message)
      | .ok found => ((Field.ofArguments own found).mapError (List.map FieldError.fault)).mapError
          (List.map FieldFault.message) := by
  simp only [Field.ofList, Argument.ofTrees, hread]
  cases gather (shapes.map Argument.ofShape) with
  | error errors =>
    simp [Except.mapError, Refusal.messages, Refusal.diagnostics, Diagnostic.ofArgumentList,
      Diagnostic.ofArgument]
  | ok found =>
    cases hfields : Field.ofArguments own found <;>
      simp [hfields, Except.mapError, Refusal.messages, Refusal.diagnostics, Diagnostic.ofField]

/-- Lists whose arguments describe the same are judged alike. -/
theorem Field.messages_ofList_congr (hread : readArguments arguments = .ok shapes)
    (hread' : readArguments arguments' = .ok shapes')
    (h : shapes'.map (·.described) = shapes.map (·.described)) (own : List String) :
    (Field.ofList own arguments').mapError Refusal.messages =
      (Field.ofList own arguments).mapError Refusal.messages := by
  have hgather := Argument.gather_congr h
  rw [messages_ofList hread, messages_ofList hread']
  cases hfound : (gather (shapes.map Argument.ofShape)).mapError (List.map ArgumentError.fault) with
  | error faults =>
    cases hfound' : (gather (shapes'.map Argument.ofShape)).mapError
        (List.map ArgumentError.fault) with
    | error faults' =>
      rw [hfound, hfound'] at hgather
      rw [Except.error.inj hgather]
    | ok found' =>
      rw [hfound, hfound'] at hgather
      cases hgather
  | ok found =>
    cases hfound' : (gather (shapes'.map Argument.ofShape)).mapError
        (List.map ArgumentError.fault) with
    | error faults' =>
      rw [hfound, hfound'] at hgather
      cases hgather
    | ok found' =>
      rw [hfound, hfound'] at hgather
      simp only [Field.ofArguments_congr (Except.ok.inj hgather)]

/-- What a refusal says is read off its output up to the places. -/
theorem Diagnostic.messages_refused_congr {diagnostics others : List Diagnostic}
    (h : others.map (·.message) = diagnostics.map (·.message)) (tokens : List Tree) :
    messages (refused others tokens) = messages (refused diagnostics tokens) := by
  have hcount : others.length = diagnostics.length := by simpa using congrArg List.length h
  have hlength (diagnostics : List Diagnostic) : (refused diagnostics tokens).length =
      diagnostics.length + (diagnostics.length * 7 + tokens.length) := by
    induction diagnostics with
    | nil => simp [refused]
    | cons d more ih =>
      have htrees : d.trees.length = 8 := rfl
      simp only [refused, List.flatMap_cons, List.length_append, List.length_cons, htrees] at ih ⊢
      omega
  rw [messages, messages, leading, leading, hlength, hlength, messages_leadingUpTo,
    messages_leadingUpTo, h, hcount]

namespace Argument.ListSpellsOut

variable (h : ListSpellsOut (meaningFor arguments) arguments arguments')
include h

/-- For a list that follows its grammar the fields are the same, or else the messages are. -/
theorem messages_ofList (hread : readArguments arguments = .ok shapes)
    (own : List String) :
    (Field.ofList own arguments').mapError Refusal.messages =
      (Field.ofList own arguments).mapError Refusal.messages := by
  obtain ⟨shapes', hread', hdescribed⟩ := h.exists_shapes hread
  exact Field.messages_ofList_congr hread hread' hdescribed own

/-- The fields that are accepted are the same. -/
theorem ofList_eq_ok {fields : List Field}
    (hfields : Field.ofList own arguments = .ok fields) :
    Field.ofList own arguments' = .ok fields := by
  obtain ⟨found, hfound, -⟩ := Field.ofList_eq_ok.mp hfields
  have hread : ∃ shapes, readArguments arguments = .ok shapes := by
    cases hread : readArguments arguments with
    | ok shapes => exact ⟨shapes, rfl⟩
    | error e => simp [ofTrees, hread] at hfound
  obtain ⟨shapes, hread⟩ := hread
  have hsame := h.messages_ofList hread own
  rw [hfields] at hsame
  cases hfields' : Field.ofList own arguments' with
  | ok fields' =>
    rw [hfields'] at hsame
    rw [Except.ok.inj hsame]
  | error refusal =>
    rw [hfields'] at hsame
    cases hsame

/-- What is refused for the arguments is refused with the same messages. -/
theorem ofList_eq_error (hread : readArguments arguments = .ok shapes)
    {refusal : Refusal} (hrefusal : Field.ofList own arguments = .error refusal) :
    ∃ again, Field.ofList own arguments' = .error again ∧ again.messages = refusal.messages := by
  have hsame := h.messages_ofList hread own
  rw [hrefusal] at hsame
  cases hagain : Field.ofList own arguments' with
  | ok fields =>
    rw [hagain] at hsame
    cases hsame
  | error again =>
    rw [hagain] at hsame
    exact ⟨again, rfl, Except.error.inj hsame⟩

/-- What is put out for the fields that are accepted is the same. -/
theorem apply_of_accepts {s : StructItem} {tokens : List Tree}
    {fields : List Field} (hread : readItem item = .ok (.struct s, tokens))
    (haccepts : Accepts arguments s fields) :
    Accepts arguments' s fields ∧ applyAttribute arguments' item = applyAttribute arguments item := by
  have haccepts' : Accepts arguments' s fields := ⟨haccepts.target, h.ofList_eq_ok haccepts.fields⟩
  refine ⟨haccepts', ?_⟩
  simp only [applyAttribute, hread, Item.apply_of_accepts haccepts, Item.apply_of_accepts haccepts']

/-- Whatever item is refused is refused with the same messages. -/
theorem refuses (hread : readArguments arguments = .ok shapes)
    {diagnostics : List Diagnostic} {tokens : List Tree}
    (hrefuses : Refuses arguments item diagnostics tokens) :
    ∃ others, Refuses arguments' item others tokens ∧
      others.map (·.message) = diagnostics.map (·.message) := by
  cases hrefuses with
  | unread herror => exact ⟨_, .unread herror, rfl⟩
  | unexpanded hitem hof =>
    rcases Expansion.of_eq_error.mp hof with ⟨htarget, hlist⟩ | ⟨found, htarget, rfl⟩
    · obtain ⟨again, hagain, hmessages⟩ := h.ofList_eq_error hread hlist
      exact ⟨_, .unexpanded hitem (Expansion.of_eq_error.mpr (.inl ⟨htarget, hagain⟩)), hmessages⟩
    · exact ⟨_, .unexpanded hitem (Expansion.of_eq_error.mpr (.inr ⟨found, htarget, rfl⟩)), rfl⟩

end Argument.ListSpellsOut

/-- Positional arguments are short for labeled ones. Where some of those that name a field are
spelled out, an accepted list is accepted with the same fields, and the same is put out for the
item. A list that follows its grammar still does, and if the attribute is refused with it, it is
refused with the same messages and the same item behind them. -/
theorem applyAttribute_spelledOut
    (h : Argument.ListSpellsOut (meaningFor arguments) arguments arguments') :
    (∀ own fields, Field.ofList own arguments = .ok fields →
      Field.ofList own arguments' = .ok fields) ∧
    (∀ item s tokens fields, readItem item = .ok (.struct s, tokens) →
      Accepts arguments s fields → Accepts arguments' s fields ∧
        applyAttribute arguments' item = applyAttribute arguments item) ∧
    ∀ shapes, readArguments arguments = .ok shapes →
      (∃ shapes', readArguments arguments' = .ok shapes') ∧
      ∀ item diagnostics tokens, Refuses arguments item diagnostics tokens →
        ∃ others, Refuses arguments' item others tokens ∧
          others.map (·.message) = diagnostics.map (·.message) ∧
          Diagnostic.messages (refused others tokens) =
            Diagnostic.messages (refused diagnostics tokens) := by
  refine ⟨fun own fields => h.ofList_eq_ok, fun item s tokens fields => h.apply_of_accepts,
    fun shapes hread => ⟨?_, fun item diagnostics tokens hrefuses => ?_⟩⟩
  · obtain ⟨shapes', hread', -⟩ := h.exists_shapes hread
    exact ⟨shapes', hread'⟩
  · obtain ⟨others, hothers, hmessages⟩ := h.refuses hread hrefuses
    exact ⟨others, hothers, hmessages, Diagnostic.messages_refused_congr hmessages tokens⟩

/-! ### A string in front of a label -/

namespace TitleAndBody

/-- A place in the first line of the attribute. -/
def spot (start stop : Nat) : Place := some ⟨"attr", ⟨1, start⟩, ⟨1, stop⟩⟩

/-- The argument `"title"`. -/
def title : Segment := ⟨[.literal "\"title\"" (spot 0 7)], .literal [.literal "\"title\"" (spot 0 7)]⟩

/-- The argument `body = "b"`. -/
def body : Segment :=
  ⟨[.ident "body" (spot 9 13), .punct '=' .alone (spot 14 15), .literal "\"b\"" (spot 16 19)],
    .assigned [.ident "body" (spot 9 13)] true [.literal "\"b\"" (spot 16 19)]⟩

/-- The arguments `"title", body = "b"`. -/
def short : List Tree := title.trees ++ .punct ',' .alone (spot 7 8) :: body.trees

/-- The arguments `title = "title", body = "b"`. -/
def long : List Tree :=
  [.ident "title" (spot 0 5), .punct '=' .alone (spot 6 7), .literal "\"title\"" (spot 8 15)] ++
    .punct ',' .alone (spot 15 16) ::
      [.ident "body" (spot 17 21), .punct '=' .alone (spot 22 23), .literal "\"b\"" (spot 24 27)]

theorem listSpellsOut : Argument.ListSpellsOut (meaningFor short) short long := by
  have htitle : title.ReadBefore (meaningFor short) (.punct ',' .alone (spot 7 8) :: body.trees) :=
    ⟨_, rfl, rfl, rfl⟩
  have hbody : body.ReadBefore (meaningFor short) [] := ⟨_, rfl, rfl, rfl⟩
  exact .cons htitle (.labeled rfl (by decide +kernel) rfl) (.last hbody (.kept rfl))

theorem ofList_unit : Field.ofList [] short = .ok [⟨"title", "title"⟩, ⟨"body", "b"⟩] := by
  have h : (Field.ofList [] short).toOption = some [⟨"title", "title"⟩, ⟨"body", "b"⟩] := by
    decide +kernel
  cases hlist : Field.ofList [] short <;> simp_all [Except.toOption]

theorem ofList_titled : ∃ refusal, Field.ofList ["title"] short = .error refusal ∧
    refusal.messages = ["field `title` is already declared on the struct"] := by
  have h : (match Field.ofList ["title"] short with
      | .error refusal => refusal.messages
      | .ok _ => []) = ["field `title` is already declared on the struct"] := by
    decide +kernel
  cases hlist : Field.ofList ["title"] short <;> simp_all

/-- A struct that can become a model. -/
theorem exists_struct {text : String} {own : List String}
    (h : (lex "item" text).bind readStruct = some (own, .model)) :
    ∃ item tokens s, lex "item" text = some item ∧ readItem item = .ok (.struct s, tokens) ∧
      (Item.struct s).target = .model ∧ s.ownFields.map (·.ident) = own := by
  obtain ⟨item, hlex, hread⟩ := Option.bind_eq_some_iff.mp h
  obtain ⟨s, tokens, hitem, hown, htarget⟩ := readStruct_eq_some hread
  exact ⟨item, tokens, s, hlex, hitem, htarget, hown⟩

end TitleAndBody

open TitleAndBody in
/-- A unit struct is accepted with the same fields. A struct that has one of them already is refused
with the same message. -/
theorem applyAttribute_spelledOut_title :
    lex "attr" "\"title\", body = \"b\"" = some short ∧
      lex "attr" "title = \"title\", body = \"b\"" = some long ∧
      (∃ item tokens s fields, lex "item" "struct A;" = some item ∧
        readItem item = .ok (.struct s, tokens) ∧ Accepts short s fields ∧ Accepts long s fields ∧
        applyAttribute long item = applyAttribute short item) ∧
      ∃ item diagnostics others tokens, lex "item" "struct A \x7b title: u8 \x7d" = some item ∧
        Refuses short item diagnostics tokens ∧ Refuses long item others tokens ∧
        others.map (·.message) = ["field `title` is already declared on the struct"] := by
  obtain ⟨-, haccepted, hrefused⟩ := applyAttribute_spelledOut listSpellsOut
  refine ⟨rfl, rfl, ?_, ?_⟩
  · obtain ⟨item, tokens, s, hitem, hread, htarget, hown⟩ :=
      @exists_struct "struct A;" [] (by decide +kernel)
    have haccepts : Accepts short s _ := ⟨htarget, hown ▸ ofList_unit⟩
    obtain ⟨haccepts', happly⟩ := haccepted item s tokens _ hread haccepts
    exact ⟨item, tokens, s, _, hitem, hread, haccepts, haccepts', happly⟩
  · obtain ⟨item, tokens, s, hitem, hread, htarget, hown⟩ :=
      @exists_struct "struct A \x7b title: u8 \x7d" ["title"] (by decide +kernel)
    obtain ⟨refusal, hlist, hmessages⟩ := ofList_titled
    rw [← hown] at hlist
    have hrefuses : Refuses short item refusal.diagnostics tokens :=
      .unexpanded hread (Expansion.of_eq_error.mpr (.inl ⟨htarget, hlist⟩))
    obtain ⟨-, hsame⟩ := hrefused _ rfl
    obtain ⟨others, hothers, hagain, -⟩ := hsame item _ tokens hrefuses
    exact ⟨item, _, others, tokens, hitem, hrefuses, hothers, hagain.trans hmessages⟩

end KeyedModel
