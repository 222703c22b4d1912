import KeyedModel.Proofs.Token.Relexing

/-!
# Phrases that are read as tokens

A text made of identifiers, punctuation, blanks and display quotes is read token by token, from its
end to its front: each lemma puts one more piece in front of what is read already. A display quote
is read back as the text that it was made of.
-/

namespace KeyedModel.Token

open Text (isIdentStart isIdentContinue isIdentifier isPlainIdent quoteDisplay escapeDisplay)

variable {c : Char} {chars mid rest tail : List Char} {name : String} {trees : List Tree}

/-- Nothing comes that a word could go on with: no character of a word, and neither a quote nor a
hash sign, in front of which some words begin another token. -/
def WordStops (chars : List Char) : Prop :=
  ∀ c ∈ chars.head?, isIdentContinue c = false ∧ c ∉ ['"', '\'', '#']

theorem WordStops.wordEnded (h : WordStops tail) : WordEnded tail := fun c hc => (h c hc).1

/-- A word that stops there opens no quotation. -/
theorem quoteOpenings_word {word : List Char} (hword : IsWord word) (hstops : WordStops tail) :
    quoteOpenings.any (·.isPrefixOf (word ++ tail)) = false := by
  have hbehind : ∀ opening ∈ quoteOpenings, ∃ d ∈ ['"', '\'', '#'],
      (opening.dropWhile isIdentContinue).head? = some d := by decide
  rw [List.any_eq_false]
  intro opening hmem hpre
  obtain ⟨d, hd, hhead⟩ := hbehind opening hmem
  obtain ⟨more, hdrop⟩ := List.head?_eq_some_iff.mp hhead
  obtain ⟨other, hother⟩ := List.isPrefixOf_iff_prefix.mp hpre
  have htail : tail = d :: more ++ other := by
    rw [← hword.dropWhile_append hstops.wordEnded, ← hother, List.dropWhile_append, hdrop]
    rfl
  exact (hstops d (by simp [htail])).2 hd

/-- A plain identifier is a word. -/
theorem isWord_of_isPlainIdent {word : List Char} (h : isPlainIdent word = true) :
    ∃ c more, word = c :: more ∧ isIdentStart c = true ∧ IsWord word := by
  cases word with
  | nil => cases h
  | cons c more =>
    obtain ⟨hstart, hmore⟩ := Bool.and_eq_true_iff.mp h
    refine ⟨c, more, rfl, hstart, by simpa using hstart, fun d hd => ?_⟩
    rcases List.mem_cons.mp hd with rfl | hd
    · exact Text.isIdentContinue_of_isIdentStart hstart
    · exact List.all_eq_true.mp hmore d hd

/-- A plain identifier is read as a word where it stops. -/
theorem readElement_plain (h : isPlainIdent name.toList = true) (hstops : WordStops tail) :
    readElement (name.toList ++ tail) = some (.leaf (.ident name), tail) := by
  obtain ⟨c, more, hname, hstart, hword⟩ := isWord_of_isPlainIdent h
  have hopens := quoteOpenings_word hword hstops
  have hplain : ∀ other, name.toList ++ tail ≠ 'r' :: '#' :: other := by
    intro other heq
    have hdrop := hword.dropWhile_append hstops.wordEnded
    rw [heq] at hdrop
    have htail : tail = '#' :: other := hdrop.symm
    exact (hstops '#' (by simp [htail])).2 (by simp)
  have hread := readIdent_word hword (by simp [hname]) hstops.wordEnded hplain
  rw [hname] at hopens hread ⊢
  rw [← hname, String.ofList_toList] at hread
  exact readElement_of_readIdent hstart hopens (by rwa [hname] at hread)

/-- An identifier behind the mark of a raw one is read with it where it stops. -/
theorem readElement_raw {word : List Char} (h : isPlainIdent word = true)
    (hnever : Text.neverRaw.contains (String.ofList word) = false)
    (hstops : WordStops tail) :
    readElement ('r' :: '#' :: word ++ tail) =
      some (.leaf (.ident (String.ofList ('r' :: '#' :: word))), tail) := by
  obtain ⟨c, more, rfl, hstart, hword⟩ := isWord_of_isPlainIdent h
  have hopens : quoteOpenings.any (·.isPrefixOf ('r' :: '#' :: c :: (more ++ tail))) = false := by
    have hnot :=
      not_mem_of_isIdentStart hstart (by decide : ∀ d ∈ ['"', '#'], isIdentStart d = false)
    simp only [List.mem_cons, List.not_mem_nil, or_false, not_or] at hnot
    simp [quoteOpenings, List.isPrefixOf, hnot.1, hnot.2, eq_comm (a := '"'), eq_comm (a := '#')]
  have hstarts : startsIdent (c :: more ++ tail) = true := hword.starts c rfl
  refine readElement_of_readIdent (by decide) hopens ?_
  change readIdent ('r' :: '#' :: (c :: more ++ tail)) = _
  rw [readIdent_raw, hword.takeWhile_append hstops.wordEnded,
    hword.dropWhile_append hstops.wordEnded, hstarts, hnever]
  rfl

/-- An identifier is read as a word where it stops. -/
theorem readElement_word (h : isIdentifier name = true) (hstops : WordStops tail) :
    readElement (name.toList ++ tail) = some (.leaf (.ident name), tail) := by
  by_cases hraw : ∃ rest, name.toList = 'r' :: '#' :: rest
  · obtain ⟨rest, hrest⟩ := hraw
    simp only [isIdentifier, hrest, Bool.and_eq_true, Bool.not_eq_true'] at h
    have hread := readElement_raw h.1 h.2 hstops
    rw [← hrest, String.ofList_toList] at hread
    exact hread
  · rw [Text.isIdentifier_of_not_raw fun rest hrest => hraw ⟨rest, hrest⟩] at h
    exact readElement_plain h hstops

/-! ### Display quotes -/

/-- The inside of a display quote is read back up to the closing quote. -/
theorem readQuoted_escapeDisplay (chars rest : List Char) :
    readQuoted .text .plain (escapeDisplay chars ++ '"' :: rest) = some (chars, rest) := by
  induction chars with
  | nil => rfl
  | cons c more ih =>
    rw [escapeDisplay, List.append_assoc]
    by_cases hnull : c = '\x00'
    · subst hnull
      have hread := readQuoted_null false (escapeDisplay more ++ '"' :: rest)
      simp only [Bool.false_eq_true, if_false] at hread
      simp only [beq_self_eq_true, if_true]
      rw [hread, ih]
      rfl
    · simp only [beq_iff_eq, hnull, if_false]
      rw [readQuoted_escapeChar, ih]
      rfl

/-- A display quote denotes the text it was made of. -/
@[simp] theorem textValue?_quoteDisplay (text : String) :
    textValue? (quoteDisplay text) = some text := by
  simp [textValue?, quoteDisplay, readQuoted_escapeDisplay]

/-- A display quote is read as a literal where no word follows it. -/
theorem readElement_quoteDisplay (text : String) (h : startsIdent tail = false) :
    readElement ((quoteDisplay text).toList ++ tail) =
      some (.leaf (.literal (quoteDisplay text)), tail) := by
  have hchars : (quoteDisplay text).toList ++ tail =
      '"' :: (escapeDisplay text.toList ++ '"' :: tail) := by
    simp [quoteDisplay]
  have hread : readLiteral ((quoteDisplay text).toList ++ tail) = some tail := by
    rw [hchars, readLiteral_eq]
    simp [readQuotation, readQuoted_escapeDisplay, dropIdent, h]
  have hleaf : readLeaf ((quoteDisplay text).toList ++ tail) =
      some (.literal (quoteDisplay text), tail) := by
    unfold readLeaf
    rw [hread]
    simp [takenBefore_append]
  have hopens : OpensLeaf '"' := ⟨by decide, by decide⟩
  rw [hchars] at hleaf ⊢
  rw [hopens.readElement_cons, hleaf]
  rfl

/-! ### Phrases -/

/-- One character tells that a word stops. -/
theorem WordStops.cons (h : (isIdentContinue c || ['"', '\'', '#'].contains c) = false) :
    WordStops (c :: chars) := by
  simpa [WordStops] using h

/-- An identifier begins with a letter or an underscore. -/
theorem exists_isIdentStart (h : isIdentifier name = true) :
    ∃ c more, name.toList = c :: more ∧ isIdentStart c = true := by
  by_cases hraw : ∃ rest, name.toList = 'r' :: '#' :: rest
  · obtain ⟨rest, hrest⟩ := hraw
    exact ⟨'r', _, hrest, by decide⟩
  · rw [Text.isIdentifier_of_not_raw fun rest hrest => hraw ⟨rest, hrest⟩] at h
    obtain ⟨c, more, hname, hstart, -⟩ := isWord_of_isPlainIdent h
    exact ⟨c, more, hname, hstart⟩

/-- An identifier begins with no punctuation. -/
theorem startsPunct_word (h : isIdentifier name = true) (chars : List Char) :
    startsPunct (name.toList ++ chars) = false := by
  obtain ⟨c, more, hname, hstart⟩ := exists_isIdentStart h
  rw [hname, List.cons_append]
  exact startsPunct_eq_false (not_mem_of_isIdentStart hstart (by decide))

/-- A parenthesis in front of anything but a slash opens a group. -/
theorem readElement_opening (h : ∀ d ∈ chars.head?, d ≠ '/') :
    readElement ('(' :: chars) = some (.opening .paren, chars) := by
  rw [readElement_paren, if_neg]
  intro hmark
  obtain ⟨more, hmore⟩ := List.isPrefixOf_iff_prefix.mp hmark
  have hchars : chars = '/' :: ("*ERROR*/)".toList ++ more) := (List.cons.inj hmore).2.symm
  exact h '/' (by simp [hchars]) rfl

namespace Reads

/-- A word in front of more. -/
theorem consWord (hrest : Reads trees mid tail) (name : String) (hstops : WordStops mid)
    (h : isIdentifier name = true) : Reads (word name :: trees) (name.toList ++ mid) tail := by
  have hread := readElement_word h hstops
  obtain ⟨c, more, hname, -⟩ := exists_isIdentStart h
  rw [hname, List.cons_append] at hread ⊢
  exact (Reads.leaf hread (length_lt_cons_append _ _ _)).append hrest

/-- A blank in front of more. -/
theorem space (hrest : Reads trees mid tail) : Reads trees (' ' :: mid) tail :=
  (Reads.blank rfl (by simp)).append hrest

/-- A word and a blank in front of more. -/
theorem spaceWord (hrest : Reads trees mid tail) (name : String) (h : isIdentifier name = true) :
    Reads (word name :: trees) (name.toList ++ ' ' :: mid) tail :=
  hrest.space.consWord name (.cons rfl) h

/-- A punctuation character in front of more, if it neither marks a lifetime nor may begin a
comment. -/
theorem consSign (hrest : Reads trees mid tail) (c : Char)
    (hc : (punctuation.contains c && c != '\'' && c != '/') = true) :
    Reads (.punct c (if startsPunct mid then .joint else .alone) none :: trees) (c :: mid) tail := by
  simp only [Bool.and_eq_true, List.contains_iff_mem, bne_iff_ne] at hc
  obtain ⟨⟨hsign, hmark⟩, hslash⟩ := hc
  have hread : readElement (c :: mid) = _ :=
    readElement_punct hsign hmark fun heq => absurd heq hslash
  exact (Reads.leaf hread (by simp)).append hrest

/-- A display quote in front of more. -/
theorem consQuote (hrest : Reads trees mid tail) (h : startsIdent mid = false) (text : String) :
    Reads (literal (quoteDisplay text) :: trees) ((quoteDisplay text).toList ++ mid) tail := by
  have hread := readElement_quoteDisplay text h
  obtain ⟨more, hmore⟩ : ∃ more, (quoteDisplay text).toList = '"' :: more :=
    ⟨_, String.toList_ofList⟩
  rw [hmore, List.cons_append] at hread ⊢
  exact (Reads.leaf hread (length_lt_cons_append _ _ _)).append hrest

end Reads

/-- The tokens of a text, without their places. -/
def tokens? (text : String) : Option (List Tree) := (lex "text" text).map unplacedAll

/-- A text that is read to its end has the tokens that it is read as. -/
theorem tokens?_of_reads {text : String} (hchars : text.toList = c :: chars)
    (hmark : c ≠ byteOrderMark) (h : Reads trees (c :: chars) []) : tokens? text = some trees := by
  obtain ⟨fuel, stop, again, -, hagain, hread⟩ := h "text" _ ⟨1, 0⟩ [] [] le_rfl
  have hlex : lex "text" text = readFrom "text" (c :: chars).length ⟨1, 0⟩ [] [] (c :: chars) := by
    simp [lex, hchars, hmark, cut, readFrom]
  have hlexed : lex "text" text = some again := by
    rw [hlex, hread]
    simp [readFrom, cutWith, nest]
  rw [tokens?, hlexed, Option.map_some, hagain]

end KeyedModel.Token
