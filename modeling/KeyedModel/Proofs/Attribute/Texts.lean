import KeyedModel.Proofs.Argument.Written
import KeyedModel.Proofs.Field.Rules
import KeyedModel.Proofs.Generated.Literals

/-!
# Texts from the attribute to the output

Whatever is put out, its string literals denote what they are meant to. A key comes unchanged from
the literal in the attribute to every place where the generated code spells it, and a message comes
unchanged to the literal that reports it.
-/

namespace KeyedModel

open Token (Tree lex)
open Token.Tree (denotedAll)
open Grammar (Item)

variable {arguments item : List Tree}

/-- The field of an argument: a label keeps the text of its literal as the key, a string is an
identifier and its own key. -/
def Argument.Describes : Argument → Field → Prop
  | labeled label literal, field => field = ⟨label, literal.value⟩
  | positional literal, field =>
    ∃ ident, identifier? literal.value = some ident ∧ field = ⟨ident, ident⟩

/-- A field that an argument describes by itself is the one it is said to describe. -/
theorem Argument.describes_of_ofArgument {argument : Argument} {field : Field}
    (h : Field.ofArgument argument = .ok field) : argument.Describes field := by
  cases argument with
  | labeled label literal =>
    simp only [Field.ofArgument] at h
    split at h
    · cases h
    · cases h
      rfl
  | positional literal =>
    simp only [Field.ofArgument] at h
    split at h
    · rename_i ident hident
      cases h
      exact ⟨ident, hident, rfl⟩
    · cases h

/-- The fields of an expansion are those that the arguments describe, in their order. -/
theorem Expands.exists_described {g : Generated} (h : Expands arguments item g) :
    ∃ found fields, Argument.ofTrees arguments = .ok found ∧
      List.Forall₂ Argument.Describes found fields ∧
      g = .of g.item (.ofFields g.item.name fields) := by
  obtain ⟨fields, haccepts, hmade⟩ := h.made
  obtain ⟨found, hfound, hfields⟩ := Field.ofList_eq_ok.mp haccepts.fields
  have hdescribed : found.map Field.ofArgument = fields.map .ok :=
    (Field.ofArguments_eq_ok.mp hfields).1
  refine ⟨found, fields, hfound, ?_, (Generated.of?_eq_ok.mp hmade).2⟩
  have hall : List.Forall₂ (fun a f => Field.ofArgument a = .ok f) found fields := by
    rw [← List.forall₂_eq_eq_eq, List.forall₂_map_left_iff, List.forall₂_map_right_iff] at hdescribed
    exact hdescribed
  exact hall.imp fun _ _ => Argument.describes_of_ofArgument

namespace Diagnostic

/-- The one literal of a diagnostic denotes its message. -/
theorem denotedAll_trees (d : Diagnostic) : denotedAll d.trees = [some d.message] := by
  simp [trees, reportingPath, Token.operator, located, Token.jointSign, Token.sign, Token.word,
    Token.group, Token.literal]

/-- A diagnostic is read off the output with its message. -/
theorem message_of_read? (d : Diagnostic) (rest : List Tree) :
    ∃ found, read? (d.trees ++ rest) = some (found, rest) ∧ found.message = d.message := by
  rw [read?_trees, Token.textValue?_quoteLiteral]
  exact ⟨_, rfl, rfl⟩

end Diagnostic

/-- Output whose literals denote what they are meant to. -/
inductive Faithful (arguments item : List Tree) : List Tree → Prop where
  /-- The item is expanded. The keys are the texts that the literals of the attribute denote, or the
  identifiers that they spell, and the generated code spells them. -/
  | expanded {g : Generated} {found : List Argument} {fields : List Field}
    (hexpands : Expands arguments item g) (hwritten : Argument.ListWritten arguments found)
    (hdescribed : List.Forall₂ Argument.Describes found fields) (hspells : g.Spells fields) :
    Faithful arguments item g.trees
  /-- The item is refused. Every diagnostic is read as its message, and the only other literals are
  those of the item. -/
  | refused {diagnostics : List Diagnostic} {tokens : List Tree}
    (hrefuses : Refuses arguments item diagnostics tokens)
    (hread : ∀ d ∈ diagnostics, ∀ rest, ∃ found,
      Diagnostic.read? (d.trees ++ rest) = some (found, rest) ∧ found.message = d.message)
    (hall : denotedAll (refused diagnostics tokens) =
      diagnostics.map (fun d => some d.message) ++ denotedAll tokens) :
    Faithful arguments item (refused diagnostics tokens)

/-- Whatever is put out for an attribute that can be lexed, its literals denote what they are meant
to. -/
theorem applyAttribute_faithful {source attr : String} {output : List Tree}
    (hlex : lex source attr = some arguments) (h : applyAttribute arguments item = .ok output) :
    Faithful arguments item output := by
  rcases applyAttribute_eq_ok.mp h with ⟨g, hexpands, rfl⟩ | ⟨diagnostics, tokens, hrefuses, rfl⟩
  · obtain ⟨found, fields, hfound, hdescribed, hg⟩ := hexpands.exists_described
    have hwritten := (Argument.ofTrees_eq_ok_iff hlex).mp hfound
    have hspells : g.Spells fields := by
      rw [hg]
      exact Generated.spells_of
    exact .expanded hexpands hwritten hdescribed hspells
  · refine .refused hrefuses (fun d _ => d.message_of_read?) ?_
    simp [refused, Diagnostic.denotedAll_trees, List.map_eq_flatMap]

/-- A null character in front of a digit, and a quote, come through. -/
theorem faithful_null_and_quote :
    ∃ arguments item output, lex "attr" "x = \"\\x001\\\"\"" = some arguments ∧
      lex "item" "struct A;" = some item ∧ applyAttribute arguments item = .ok output ∧
      some "\x001\"" ∈ denotedAll output ∧ Faithful arguments item output := by
  let found : Option Bool :=
    (lex "attr" "x = \"\\x001\\\"\"").bind fun arguments =>
      (lex "item" "struct A;").bind fun item =>
        (applyAttribute arguments item).toOption.map fun output =>
          (denotedAll output).contains (some "\x001\"")
  have hfound : found = some true := by decide +kernel
  obtain ⟨arguments, hlex, hfound⟩ := Option.bind_eq_some_iff.mp hfound
  obtain ⟨item, hitem, hfound⟩ := Option.bind_eq_some_iff.mp hfound
  cases houtput : applyAttribute arguments item with
  | error e => simp [houtput, Except.toOption] at hfound
  | ok output =>
    have hmem : some "\x001\"" ∈ denotedAll output := by
      simpa [houtput, Except.toOption] using hfound
    exact ⟨arguments, item, output, hlex, hitem, houtput, hmem,
      applyAttribute_faithful hlex houtput⟩

end KeyedModel
