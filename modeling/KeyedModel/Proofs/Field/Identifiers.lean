import KeyedModel.Field.Rules
import KeyedModel.Proofs.Argument.Labels
import KeyedModel.Proofs.Token.Words

/-!
# Identifiers of fields

A field is named by a string or by a label. The string is an identifier that is no keyword, so the
field can be declared. A label of a lexed text is an identifier, but nothing keeps it from being a
keyword.
-/

namespace KeyedModel

open Token (Tree lex)
open Text (isDeclarable isIdentifier isKeyword)

variable {arguments : List Argument} {fields : List Field}

/-- The label of an argument. -/
def Argument.label? : Argument → Option String
  | positional _ => none
  | labeled label _ => some label

/-- Whatever a string names can be declared. -/
theorem isDeclarable_of_identifier? {text name : String} (h : identifier? text = some name) :
    isDeclarable name = true := by
  unfold identifier? at h
  split at h
  · rename_i found place hlex
    split at h
    · cases h
    · rename_i hkeyword
      cases h
      have hident := Token.isIdentifier_of_lex hlex List.mem_cons_self
      simp [Text.isDeclarable_eq, hident, hkeyword]
  · cases h

/-- A field without a label can be declared. -/
theorem isDeclarable_of_positional {argument : Argument} {field : Field}
    (h : Field.ofArgument argument = .ok field) (hlabel : argument.label? = none) :
    isDeclarable field.ident = true := by
  cases argument with
  | labeled label literal => cases hlabel
  | positional literal =>
    simp only [Field.ofArgument] at h
    split at h
    · rename_i ident hident
      cases h
      exact isDeclarable_of_identifier? hident
    · cases h

/-- The identifier of a field with a label is the label. -/
theorem ident_of_ofArgument {argument : Argument} {field : Field} {label : String}
    (h : Field.ofArgument argument = .ok field) (hlabel : argument.label? = some label) :
    field.ident = label := by
  cases argument with
  | positional literal => cases hlabel
  | labeled word literal =>
    cases hlabel
    simp only [Field.ofArgument] at h
    split at h
    · cases h
    · cases h
      rfl

/-- If all labels are identifiers, then the first field that cannot be declared is the one with the
first label that is a keyword. -/
theorem find?_undeclarable (h : arguments.map Field.ofArgument = fields.map .ok)
    (hlabels : ∀ label ∈ arguments.filterMap Argument.label?, isIdentifier label = true) :
    (fields.find? fun f => !isDeclarable f.ident).map Field.ident =
      (arguments.filterMap Argument.label?).find? isKeyword := by
  induction arguments generalizing fields with
  | nil =>
    obtain rfl : fields = [] := by simpa using h.symm
    rfl
  | cons argument rest ih =>
    cases fields with
    | nil => simp at h
    | cons field more =>
      obtain ⟨hfield, hmore⟩ := List.cons.inj h
      cases hlabel : argument.label? with
      | none =>
        rw [List.filterMap_cons_none hlabel] at hlabels ⊢
        have hdeclarable := isDeclarable_of_positional hfield hlabel
        rw [List.find?_cons_of_neg (by simp [hdeclarable]), ih hmore hlabels]
      | some label =>
        rw [List.filterMap_cons_some hlabel] at hlabels ⊢
        have hident := hlabels label List.mem_cons_self
        have hdeclarable : isDeclarable field.ident = !isKeyword label := by
          rw [ident_of_ofArgument hfield hlabel, Text.isDeclarable_eq, hident, Bool.true_and]
        cases hkeyword : isKeyword label with
        | true =>
          rw [List.find?_cons_of_pos (by simp [hdeclarable, hkeyword]),
            List.find?_cons_of_pos hkeyword, Option.map_some, ident_of_ofArgument hfield hlabel]
        | false =>
          rw [List.find?_cons_of_neg (by simp [hdeclarable, hkeyword]),
            List.find?_cons_of_neg (by simp [hkeyword])]
          exact ih hmore fun l hl => hlabels l (List.mem_cons_of_mem _ hl)

/-- Labels of a lexed argument list are identifiers. -/
theorem isIdentifier_of_label {source text : String} {trees : List Tree}
    (hlex : lex source text = some trees) (h : Argument.ofTrees trees = .ok arguments) :
    ∀ label ∈ arguments.filterMap Argument.label?, isIdentifier label = true := by
  intro label hlabel
  obtain ⟨argument, hmem, hargument⟩ := List.mem_filterMap.mp hlabel
  cases argument with
  | positional literal => cases hargument
  | labeled word literal =>
    cases hargument
    obtain ⟨place, hword⟩ := Argument.label_mem h hmem
    exact Token.isIdentifier_of_lex hlex hword

end KeyedModel
