import KeyedModel.Proofs.Token.Leaves

/-!
# Words of a lexed text

Every word that the lexer reads is an identifier, plain or raw. A name that can be declared is such
a word that is no keyword, so for words of a text the two notions differ by the keywords alone.
-/

namespace KeyedModel

open Token (Leaf Tree Place)

namespace Text

/-- No keyword carries the raw mark. -/
theorem isKeyword_of_raw {name : String} {rest : List Char} (h : name.toList = 'r' :: '#' :: rest) :
    isKeyword name = false := by
  have hplain : ∀ w ∈ keywords, w.toList.take 2 ≠ ['r', '#'] := by decide
  rw [isKeyword, ← Bool.not_eq_true, List.contains_iff_mem]
  intro hmem
  exact hplain name hmem (by simp [h])

/-- A name without the raw mark is an identifier when it is a plain one. -/
theorem isIdentifier_of_not_raw {name : String} (h : ∀ rest, name.toList ≠ 'r' :: '#' :: rest) :
    isIdentifier name = isPlainIdent name.toList := by
  unfold isIdentifier
  split
  · rename_i rest hraw
    exact absurd hraw (h rest)
  · rfl

/-- A name can be declared when it is an identifier and no keyword. -/
theorem isDeclarable_eq (name : String) :
    isDeclarable name = (isIdentifier name && !isKeyword name) := by
  by_cases hraw : ∃ rest, name.toList = 'r' :: '#' :: rest
  · obtain ⟨rest, h⟩ := hraw
    simp only [isDeclarable, isIdentifier, h, isKeyword_of_raw h, Bool.not_false, Bool.and_true]
  · have hplain : ∀ rest, name.toList ≠ 'r' :: '#' :: rest := fun rest h => hraw ⟨rest, h⟩
    rw [isIdentifier_of_not_raw hplain, isDeclarable]
    split
    · rename_i rest h
      exact absurd h (hplain rest)
    · rfl

/-- What the hash sign of a raw mark is: no character of an identifier. -/
theorem not_isIdentContinue_hash : isIdentContinue '#' = false := by decide

theorem mem_takeWhile_isIdentContinue {c : Char} {chars : List Char}
    (h : c ∈ chars.takeWhile isIdentContinue) : isIdentContinue c = true := by
  have hall := @List.all_takeWhile _ isIdentContinue chars
  exact List.all_eq_true.mp hall c h

/-- An identifier that is read off a text without the raw mark is plain. -/
theorem isPlainIdent_takeWhile {chars : List Char} (h : Token.startsIdent chars = true) :
    isPlainIdent (chars.takeWhile isIdentContinue) = true := by
  cases chars with
  | nil => cases h
  | cons c rest =>
    have hstart : isIdentStart c = true := h
    rw [List.takeWhile_cons_of_pos (isIdentContinue_of_isIdentStart hstart)]
    simp only [isPlainIdent, hstart, Bool.true_and, List.all_eq_true]
    exact fun d hd => mem_takeWhile_isIdentContinue hd

end Text

namespace Token

open Text

/-- A word that is read is an identifier. -/
theorem isIdentifier_of_readIdent {chars rest : List Char} {name : String}
    (h : readIdent chars = some (name, rest)) : isIdentifier name = true := by
  unfold readIdent at h
  split at h
  · dsimp only at h
    split at h
    · rename_i tail hraw
      obtain ⟨rfl, -⟩ := Prod.mk.inj (Option.some.inj h)
      obtain ⟨hstart, hnever⟩ := Bool.and_eq_true_iff.mp hraw
      simp only [isIdentifier, String.toList_ofList]
      rw [isPlainIdent_takeWhile hstart, hnever, Bool.and_self]
    · cases h
  · split at h
    · rename_i hnot hstart
      obtain ⟨rfl, -⟩ := Prod.mk.inj (Option.some.inj h)
      have hplain := isPlainIdent_takeWhile hstart
      simp only [isIdentifier, String.toList_ofList]
      split
      · rename_i tail heq
        have hmem : '#' ∈ chars.takeWhile isIdentContinue := by simp [heq]
        have hhash := mem_takeWhile_isIdentContinue hmem
        simp [not_isIdentContinue_hash] at hhash
      · exact hplain
    · cases h

/-- A word among the tokens of a text is an identifier. -/
theorem isIdentifier_of_readLeaf {chars rest : List Char} {name : String}
    (h : readLeaf chars = some (.ident name, rest)) : isIdentifier name = true := by
  unfold readLeaf at h
  split at h
  · cases h
  · cases chars with
    | nil => cases h
    | cons c more =>
      dsimp only at h
      split at h
      · split at h
        · split at h
          · split at h <;> cases h
          · cases h
        · cases h
      · split at h
        · cases h
        · obtain ⟨⟨word, after⟩, hread, hword⟩ := Option.map_eq_some_iff.mp h
          cases hword
          exact isIdentifier_of_readIdent hread

/-- Comments are no tokens. -/
theorem docElement_ne_leaf {inner : Bool} {comment rest after : List Char} {leaf : Leaf} :
    docElement inner comment rest ≠ some (.leaf leaf, after) := by
  unfold docElement
  split <;> simp

theorem readLineComment_ne_leaf {chars rest : List Char} {leaf : Leaf} :
    readLineComment chars ≠ some (.leaf leaf, rest) := by
  unfold readLineComment
  dsimp only
  split
  · simp
  · exact docElement_ne_leaf
  · exact docElement_ne_leaf
  · simp

theorem readBlockElement_ne_leaf {chars rest : List Char} {leaf : Leaf} :
    readBlockElement chars ≠ some (.leaf leaf, rest) := by
  unfold readBlockElement
  split
  · simp
  · simp
  · cases readBlock 3 _ with
    | none => simp
    | some r => exact docElement_ne_leaf
  · cases readBlock 3 _ with
    | none => simp
    | some r => exact docElement_ne_leaf
  · simp

/-- A token among the elements of a text is the mark of an error or a token that is read. -/
theorem readElement_eq_leaf {chars rest : List Char} {leaf : Leaf}
    (h : readElement chars = some (.leaf leaf, rest)) :
    leaf = .literal (String.ofList errorMark) ∨ readLeaf chars = some (leaf, rest) := by
  unfold readElement at h
  split at h
  · cases h
  · exact absurd h readLineComment_ne_leaf
  · exact absurd h readBlockElement_ne_leaf
  · split at h
    · cases h
    · split at h
      · cases h
        exact .inl rfl
      · split at h
        iterate 6 cases h
        obtain ⟨⟨word, after⟩, hread, hword⟩ := Option.map_eq_some_iff.mp h
        cases hword
        exact .inr hread

/-- A word among the elements of a text is an identifier. -/
theorem isIdentifier_of_readElement {chars rest : List Char} {name : String}
    (h : readElement chars = some (.leaf (.ident name), rest)) : isIdentifier name = true := by
  rcases readElement_eq_leaf h with hmark | hread
  · cases hmark
  · exact isIdentifier_of_readLeaf hread

/-- Words of a lexed text are identifiers. -/
theorem isIdentifier_of_lex {source text name : String} {trees : List Tree} {place : Place}
    (hlex : lex source text = some trees) (hmem : .ident name place ∈ trees) :
    isIdentifier name = true := by
  have hwords : HoldsOfLexed fun leaf => ∀ name, leaf = .ident name → isIdentifier name = true := {
    read := by
      rintro chars _ rest hread name rfl
      exact isIdentifier_of_readElement hread
    doc := by
      rintro name h
      cases h
      decide
    equals := by simp
    hash := by simp
    bang := by simp
    comment := by simp }
  exact hwords.lex hlex _ hmem name rfl

end Token

end KeyedModel
