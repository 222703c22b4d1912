import KeyedModel.Proofs.Field.Identifiers
import KeyedModel.Proofs.Token.Gaps

/-!
# Strings that spell a field

A string stands for a field if it spells an identifier that can be declared. The identifier need not
be the whole string: gaps may stand around it, and a byte order mark in front of it, and these are
lost. So the key is the string itself exactly if the string is an identifier by itself.
-/

namespace KeyedModel

open Text (isDeclarable isIdentifier isKeyword)
open Token (Gaps lex withoutMark)

variable {text name : String}

/-- The text is the name with gaps around it, perhaps behind a byte order mark. -/
def Spells (text name : String) : Prop :=
  ∃ after, Gaps (withoutMark text.toList) (name.toList ++ after) ∧ Gaps after []

/-- A text is read as an identifier if it spells one that can be declared. -/
theorem identifier?_eq_some :
    identifier? text = some name ↔ isDeclarable name = true ∧ Spells text name := by
  have hlex : (∃ place, lex "" text = some [.ident name place]) ↔ _ := Token.lex_eq_word
  rw [Text.isDeclarable_eq, Bool.and_eq_true, and_right_comm, Spells, ← hlex, identifier?]
  constructor
  · intro h
    split at h
    · rename_i other place htokens
      split at h
      · cases h
      · rename_i hkeyword
        cases h
        exact ⟨⟨place, htokens⟩, by simpa using hkeyword⟩
    · cases h
  · rintro ⟨⟨place, htokens⟩, hkeyword⟩
    simp only [htokens]
    simpa using hkeyword

/-- A name that can be declared spells itself. -/
theorem spells_self (h : isDeclarable name = true) : Spells name name := by
  have hident : isIdentifier name = true := by
    rw [Text.isDeclarable_eq, Bool.and_eq_true] at h
    exact h.1
  obtain ⟨c, more, hname, hstart⟩ := Token.exists_isIdentStart hident
  have hmark : c ≠ Token.byteOrderMark := by
    rintro rfl
    exact absurd hstart (by decide +kernel)
  refine ⟨[], ?_, .none⟩
  rw [List.append_nil, hname, withoutMark, if_neg (by simpa using hmark)]
  exact .none

/-- A string is accepted exactly if it spells a name that can be declared, which is then identifier
and key. Any other string is rejected as no identifier. The identifier and the key are the string
itself exactly if the string can be declared as it is. -/
theorem Field.ofArgument_positional (literal : TextLiteral) :
    (∀ f, Field.ofArgument (.positional literal) = .ok f ↔
      ∃ name, isDeclarable name = true ∧ Spells literal.value name ∧ f = ⟨name, name⟩) ∧
      ((¬ ∃ name, isDeclarable name = true ∧ Spells literal.value name) →
        Field.ofArgument (.positional literal) = .error (.notIdentifier literal.value)) ∧
      (Field.ofArgument (.positional literal) = .ok ⟨literal.value, literal.value⟩ ↔
        isDeclarable literal.value = true) := by
  have haccepts (f : Field) : Field.ofArgument (.positional literal) = .ok f ↔
      ∃ name, isDeclarable name = true ∧ Spells literal.value name ∧ f = ⟨name, name⟩ := by
    simp only [Field.ofArgument, ← and_assoc, ← identifier?_eq_some]
    cases identifier? literal.value with
    | none => simp
    | some name => simp [Field.verbatim, eq_comm]
  refine ⟨haccepts, fun hnone => ?_, ?_⟩
  · have hident : identifier? literal.value = none := by
      rw [Option.eq_none_iff_forall_ne_some]
      exact fun name hname => hnone ⟨name, identifier?_eq_some.mp hname⟩
    simp only [Field.ofArgument, hident]
  · rw [haccepts]
    constructor
    · rintro ⟨name, hname, -, heq⟩
      obtain ⟨rfl, -⟩ := Field.mk.inj heq
      exact hname
    · exact fun h => ⟨literal.value, h, spells_self h, rfl⟩

/-- Blanks around an identifier are lost, so a string is accepted that is none. -/
theorem not_forall_accepted_verbatim :
    ¬ ∀ literal f, Field.ofArgument (.positional literal) = .ok f →
      isDeclarable literal.value = true ∧ f = ⟨literal.value, literal.value⟩ := by
  intro h
  have haccepted : Field.ofArgument (.positional ⟨" a ", none⟩) = .ok ⟨"a", "a"⟩ := by
    decide +kernel
  obtain ⟨hdeclarable, -⟩ := h _ _ haccepted
  exact absurd hdeclarable (by decide)

end KeyedModel
