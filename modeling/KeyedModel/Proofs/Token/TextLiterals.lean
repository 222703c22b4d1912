import KeyedModel.Proofs.Token.Quotation
import KeyedModel.Proofs.Token.Words

/-!
# String literals of a lexed text

A literal token that is spelled like a string was read as one, so it denotes a text: the reader of
tokens and the reader of values agree on where the literal ends and on what is in it.
-/

namespace KeyedModel.Token

/-- The spelling of a string literal begins with a quote or with the mark of a raw literal. -/
theorem literalKind_eq_text {text : String} :
    literalKind text = .text ↔ ∃ rest, text.toList = '"' :: rest ∨ text.toList = 'r' :: rest := by
  constructor
  · intro h
    unfold literalKind at h
    split at h
    · rename_i rest heq
      exact ⟨rest, .inl heq⟩
    · rename_i rest heq
      exact ⟨rest, .inr heq⟩
    iterate 5 cases h
    split at h <;> cases h
  · rintro ⟨rest, h | h⟩ <;> simp [literalKind, h]

/-- A spelling that denotes a text is that of a string literal. -/
theorem literalKind_of_textValue? {text value : String} (h : textValue? text = some value) :
    literalKind text = .text := by
  rw [literalKind_eq_text]
  unfold textValue? at h
  split at h
  · rename_i rest heq
    exact ⟨rest, .inl heq⟩
  · rename_i rest heq
    exact ⟨rest, .inr heq⟩
  · cases h

/-- What stands in front of the rest of a text. -/
theorem takenBefore_append (taken rest : List Char) : takenBefore (taken ++ rest) rest = taken := by
  simp [takenBefore]

/-- The spelling of a quoted literal is its quoted part and the word behind it. -/
theorem takenBefore_dropIdent (quoted after : List Char) :
    ∃ word, takenBefore (quoted ++ after) (dropIdent after) = quoted ++ word := by
  obtain ⟨word, hword⟩ : ∃ word, after = word ++ dropIdent after := by
    unfold dropIdent
    split
    · exact ⟨_, List.takeWhile_append_dropWhile.symm⟩
    · exact ⟨[], rfl⟩
  have hsplit : quoted ++ after = quoted ++ word ++ dropIdent after := by
    rw [List.append_assoc, ← hword]
  exact ⟨word, by rw [hsplit, takenBefore_append]⟩

/-- No number begins with a quote or a letter. -/
theorem readNumber_eq_none {c : Char} {rest : List Char} (hc : baseDigit c = none) (hmark : c ≠ '_') :
    readNumber (c :: rest) = none := by
  have hdigit : c.isDigit = false := by
    unfold baseDigit at hc
    split at hc
    · cases hc
    · simpa using ‹¬c.isDigit = true›
  have hzero : c ≠ '0' := by
    rintro rfl
    cases hc
  simp [readNumber, readFloatDigits, readIntDigits, readBaseDigits, hdigit, hzero, hc, hmark]

/-- A literal that the lexer reads and that is spelled like a string denotes a text. -/
theorem exists_textValue?_of_readLiteral {chars rest : List Char}
    (h : readLiteral chars = some rest)
    (hkind : literalKind (String.ofList (takenBefore chars rest)) = .text) :
    ∃ value, textValue? (String.ofList (takenBefore chars rest)) = some value := by
  rw [literalKind_eq_text, String.toList_ofList] at hkind
  obtain ⟨spelling, hspelling⟩ := hkind
  cases chars with
  | nil => simp [takenBefore] at hspelling
  | cons c more =>
    have hfirst : c = '"' ∨ c = 'r' := by
      unfold takenBefore at hspelling
      rcases hspelling with hspelling | hspelling <;>
        cases hlength : (c :: more).length - rest.length <;> simp_all
    rcases hfirst with rfl | rfl
    · cases hread : readQuoted .text .plain more with
      | none =>
        rw [readLiteral, hread] at h
        cases h.symm.trans (readNumber_eq_none rfl (by decide))
      | some r =>
        obtain ⟨value, after⟩ := r
        obtain ⟨inner, rfl, htail⟩ := readQuoted_append hread
        obtain rfl : dropIdent after = rest := by simpa [readLiteral, hread] using h
        obtain ⟨word, hword⟩ := takenBefore_dropIdent ('"' :: inner) after
        rw [List.cons_append] at hword
        exact ⟨String.ofList value, by simp [hword, textValue?, htail]⟩
    · cases hread : readRawQuoted .text more with
      | none =>
        rw [readLiteral, hread] at h
        cases h.symm.trans (readNumber_eq_none rfl (by decide))
      | some r =>
        obtain ⟨value, after⟩ := r
        obtain ⟨inner, rfl, htail⟩ := readRawQuoted_append hread
        obtain rfl : dropIdent after = rest := by simpa [readLiteral, hread] using h
        obtain ⟨word, hword⟩ := takenBefore_dropIdent ('r' :: inner) after
        rw [List.cons_append] at hword
        exact ⟨String.ofList value, by simp [hword, textValue?, htail]⟩

/-- A literal leaf that the lexer reads and that is spelled like a string denotes a text. -/
theorem exists_textValue?_of_readElement {chars rest : List Char} {text : String}
    (h : readElement chars = some (.leaf (.literal text), rest))
    (hkind : literalKind text = .text) : ∃ value, textValue? text = some value := by
  rcases readElement_eq_leaf h with hmark | hread
  · cases hmark
    exact absurd hkind (by decide)
  · unfold readLeaf at hread
    split at hread
    · rename_i after hliteral
      cases hread
      exact exists_textValue?_of_readLiteral hliteral hkind
    · cases chars with
      | nil => cases hread
      | cons c more =>
        dsimp only at hread
        split at hread
        · split at hread
          · split at hread
            · split at hread <;> cases hread
            · cases hread
          · cases hread
        · split at hread
          · cases hread
          · obtain ⟨r, -, hr⟩ := Option.map_eq_some_iff.mp hread
            cases hr

/-- A leaf that is spelled like a string literal denotes a text. -/
def Leaf.Denotes (leaf : Leaf) : Prop :=
  ∀ text, leaf = .literal text → literalKind text = .text → ∃ value, textValue? text = some value

/-- Every string literal of a lexed text denotes a text. -/
theorem holdsOfLexed_denotes : HoldsOfLexed Leaf.Denotes where
  read := by
    rintro chars _ rest hread text rfl hkind
    exact exists_textValue?_of_readElement hread hkind
  doc := by simp [Leaf.Denotes]
  equals := by simp [Leaf.Denotes]
  hash := by simp [Leaf.Denotes]
  bang := by simp [Leaf.Denotes]
  comment := by
    rintro comment text heq -
    cases heq
    exact ⟨comment, textValue?_quoteLiteral comment⟩

end KeyedModel.Token
