import KeyedModel.Proofs.Attribute.Outcome
import KeyedModel.Proofs.Field.Identifiers
import KeyedModel.Proofs.Field.Rules

/-!
# Keywords as labels

Generated code needs identifiers that can be declared. Strings that name fields are checked for
that, labels are not: a keyword passes as a label, and then the code cannot be written. This is the
only way in which the attribute has no output.
-/

namespace KeyedModel

open Token (Tree lex)
open Grammar (Item)
open Text (isKeyword)

/-- Of an attribute text that lexes there is no output exactly if everything about it is accepted
and some label is a keyword; the first such label is the identifier that cannot be written. -/
theorem applyAttribute_unwritable_iff {source text ident : String} {arguments item : List Tree}
    (hlex : lex source text = some arguments) :
    applyAttribute arguments item = .error ⟨ident⟩ ↔
      ∃ s tokens found fields, Grammar.readItem item = .ok (.struct s, tokens) ∧
        (Item.struct s).target = .model ∧ Argument.ofTrees arguments = .ok found ∧
        Field.ofArguments (s.ownFields.map (·.ident)) found = .ok fields ∧
        (found.filterMap Argument.label?).find? isKeyword = some ident := by
  have hfirst {found : List Argument} {own : List String} {fields : List Field}
      (hfound : Argument.ofTrees arguments = .ok found)
      (hfields : Field.ofArguments own found = .ok fields) :
      (fields.find? fun f => !Text.isDeclarable f.ident).map Field.ident =
        (found.filterMap Argument.label?).find? isKeyword :=
    find?_undeclarable (Field.ofArguments_eq_ok.mp hfields).1 (isIdentifier_of_label hlex hfound)
  have hof {s : Grammar.StructItem} {fields : List Field} :
      Generated.of? s (.ofFields s.name fields) = .error ⟨ident⟩ ↔
        (fields.find? fun f => !Text.isDeclarable f.ident).map Field.ident = some ident := by
    rw [Generated.of?, Expansion.fields_ofFields]
    cases fields.find? fun f => !Text.isDeclarable f.ident <;> simp
  rw [applyAttribute_eq_error]
  constructor
  · rintro ⟨s, tokens, fields, hread, haccepts, herror⟩
    obtain ⟨found, hfound, hfields⟩ := Field.ofList_eq_ok.mp haccepts.fields
    refine ⟨s, tokens, found, fields, hread, haccepts.target, hfound, hfields, ?_⟩
    rw [← hfirst hfound hfields]
    exact hof.mp herror
  · rintro ⟨s, tokens, found, fields, hread, htarget, hfound, hfields, hkeyword⟩
    have hlist := Field.ofList_eq_ok.mpr ⟨found, hfound, hfields⟩
    refine ⟨s, tokens, fields, hread, ⟨htarget, hlist⟩, hof.mpr ?_⟩
    rw [hfirst hfound hfields]
    exact hkeyword

/-- The label `type` is accepted, and it is a keyword. -/
theorem applyAttribute_type_label :
    ∃ arguments item, lex "attr" "type = \"x\"" = some arguments ∧
      lex "item" "struct A;" = some item ∧ applyAttribute arguments item = .error ⟨"type"⟩ :=
  ⟨(lex "attr" "type = \"x\"").getD [], (lex "item" "struct A;").getD [], rfl, rfl, rfl⟩

/-- The conditions hold for that label. -/
theorem applyAttribute_unwritable_type :
    ∃ arguments item, lex "attr" "type = \"x\"" = some arguments ∧
      lex "item" "struct A;" = some item ∧
      ∃ s tokens found fields, Grammar.readItem item = .ok (.struct s, tokens) ∧
        (Item.struct s).target = .model ∧ Argument.ofTrees arguments = .ok found ∧
        Field.ofArguments (s.ownFields.map (·.ident)) found = .ok fields ∧
        (found.filterMap Argument.label?).find? isKeyword = some "type" := by
  obtain ⟨arguments, item, hlex, hitem, herror⟩ := applyAttribute_type_label
  exact ⟨arguments, item, hlex, hitem, (applyAttribute_unwritable_iff hlex).mp herror⟩

/-- So not every attribute on every item has an output. -/
theorem not_forall_applyAttribute_eq_ok :
    ¬ ∀ attr item arguments tokens, lex "attr" attr = some arguments →
      lex "item" item = some tokens → ∃ output, applyAttribute arguments tokens = .ok output := by
  intro h
  obtain ⟨arguments, item, hlex, hitem, herror⟩ := applyAttribute_type_label
  obtain ⟨output, houtput⟩ := h _ _ arguments item hlex hitem
  rw [herror] at houtput
  cases houtput

end KeyedModel
