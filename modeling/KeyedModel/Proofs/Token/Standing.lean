import KeyedModel.Proofs.Token.Numbers
import KeyedModel.Proofs.Token.TextLiterals

/-!
# Tokens that stand for themselves

A word or a literal that was read off a text can be written elsewhere: in front of a space, a closing
delimiter or the end it is read as the same token again. How a literal is read depends on its own
characters only, and a word that did not open a quotation in its text opens none in front of a break.
-/

namespace KeyedModel.Token

open Text (isIdentStart isIdentContinue)

variable {c : Char} {chars word rest tail : List Char}

/-! ### Quotations -/

/-- A scalar value is read from its own characters only. -/
theorem readScalar_append {digits value : Nat} (h : readScalar digits value chars = some rest) :
    ∃ taken, chars = taken ++ rest ∧
      ∀ tail, readScalar digits value (taken ++ tail) = some tail := by
  induction chars generalizing digits value with
  | nil => cases h
  | cons c more ih =>
    rw [readScalar] at h
    cases hstep : QuoteState.scalarStep .text digits value c with
    | none => simp [hstep] at h
    | some next =>
      obtain ⟨state, denoted⟩ := next
      cases state with
      | scalar digits' value' =>
        rw [hstep] at h
        obtain ⟨taken, rfl, hread⟩ := ih h
        exact ⟨c :: taken, rfl, fun tail => by simp [readScalar, hstep, hread]⟩
      | _ =>
        obtain rfl : more = rest := by simpa [hstep] using h
        exact ⟨[c], rfl, fun tail => by simp [readScalar, hstep]⟩

theorem afterQuote_eq_some : afterQuote chars = some rest ↔ chars = '\'' :: rest := by
  constructor
  · intro h
    unfold afterQuote at h
    split at h
    · rw [Option.some.inj h]
    · cases h
  · rintro rfl
    rfl

/-- A character literal is read from its own characters only. -/
theorem readChar_append (h : readChar chars = some rest) :
    ∃ taken, chars = taken ++ rest ∧ ∀ tail, readChar (taken ++ tail) = some tail := by
  unfold readChar at h
  split at h
  · rename_i a b after
    split at h
    · rename_i hdigits
      obtain rfl := afterQuote_eq_some.mp h
      exact ⟨['\\', 'x', a, b, '\''], rfl, fun tail => by simp [readChar, hdigits, afterQuote]⟩
    · cases h
  · rename_i after
    obtain ⟨close, hscalar, hclose⟩ := Option.bind_eq_some_iff.mp h
    obtain rfl := afterQuote_eq_some.mp hclose
    obtain ⟨taken, rfl, hread⟩ := readScalar_append hscalar
    exact ⟨'\\' :: 'u' :: '{' :: (taken ++ ['\'']), by simp, fun tail => by
      simp [readChar, hread, afterQuote]⟩
  · rename_i escaped after hhex hscalar
    split at h
    · rename_i hshort
      obtain rfl := afterQuote_eq_some.mp h
      have hx : escaped ≠ 'x' := by
        rintro rfl
        cases hshort
      have hu : escaped ≠ 'u' := by
        rintro rfl
        cases hshort
      exact ⟨['\\', escaped, '\''], rfl, fun tail => by simp [readChar, hx, hu, hshort, afterQuote]⟩
    · cases h
  · rename_i c after hhex hscalar hshort
    obtain rfl := afterQuote_eq_some.mp h
    have hc : c ≠ '\\' := by
      rintro rfl
      exact hshort '\'' rest rfl rfl
    exact ⟨[c, '\''], rfl, fun tail => by simp [readChar, hc, afterQuote]⟩
  · cases h

/-- A byte literal is read from its own characters only. -/
theorem readByte_append (h : readByte chars = some rest) :
    ∃ taken, chars = taken ++ rest ∧ ∀ tail, readByte (taken ++ tail) = some tail := by
  unfold readByte at h
  split at h
  · rename_i a b after
    split at h
    · rename_i hdigits
      obtain rfl := afterQuote_eq_some.mp h
      exact ⟨['\\', 'x', a, b, '\''], rfl, fun tail => by simp [readByte, hdigits, afterQuote]⟩
    · cases h
  · rename_i escaped after hhex
    split at h
    · rename_i hshort
      obtain rfl := afterQuote_eq_some.mp h
      have hx : escaped ≠ 'x' := by
        rintro rfl
        cases hshort
      exact ⟨['\\', escaped, '\''], rfl, fun tail => by simp [readByte, hx, hshort, afterQuote]⟩
    · cases h
  · rename_i c after hhex hshort
    split at h
    · rename_i hascii
      obtain rfl := afterQuote_eq_some.mp h
      have hc : c ≠ '\\' := by
        rintro rfl
        exact hshort '\'' rest rfl rfl
      exact ⟨[c, '\''], rfl, fun tail => by simp [readByte, hc, hascii, afterQuote]⟩
    · cases h
  · cases h

/-- Reads a literal that quotes open, up to the last of them. -/
def readQuotation (chars : List Char) : Option (List Char) :=
  match chars with
  | '"' :: rest => (readQuoted .text .plain rest).map (·.2)
  | 'r' :: rest => (readRawQuoted .text rest).map (·.2)
  | 'b' :: '"' :: rest => (readQuoted .bytes .plain rest).map (·.2)
  | 'b' :: 'r' :: rest => (readRawQuoted .bytes rest).map (·.2)
  | 'c' :: '"' :: rest => (readQuoted .terminated .plain rest).map (·.2)
  | 'c' :: 'r' :: rest => (readRawQuoted .terminated rest).map (·.2)
  | 'b' :: '\'' :: rest => readByte rest
  | '\'' :: rest => readChar rest
  | _ => none

theorem readLiteral_eq (chars : List Char) :
    readLiteral chars =
      match readQuotation chars with
      | some rest => some (dropIdent rest)
      | none => readNumber chars := rfl

/-- Behind an opening a literal is read from its own characters only, if what it opens is. -/
theorem readQuotation_opening {α : Type} {front more : List Char}
    {read : List Char → Option (α × List Char)}
    (hlocal : ∀ value after, read more = some (value, after) →
      ∃ taken, more = taken ++ after ∧ ∀ tail, read (taken ++ tail) = some (value, tail))
    (hfront : ∀ other, readQuotation (front ++ other) = (read other).map (·.2))
    (h : (read more).map (·.2) = some rest) :
    ∃ taken, front ++ more = taken ++ rest ∧ ∀ tail, readQuotation (taken ++ tail) = some tail := by
  obtain ⟨⟨value, after⟩, hread, rfl⟩ := Option.map_eq_some_iff.mp h
  obtain ⟨taken, rfl, htail⟩ := hlocal value after hread
  exact ⟨front ++ taken, by simp, fun tail => by simp [hfront, htail]⟩

/-- A literal between quotes is read from its own characters only. -/
theorem readQuotation_append (h : readQuotation chars = some rest) :
    ∃ taken, chars = taken ++ rest ∧ ∀ tail, readQuotation (taken ++ tail) = some tail := by
  have hquoted (kind : QuoteKind) (more value after : List Char) :
      readQuoted kind .plain more = some (value, after) → _ := readQuoted_append
  have hraw (kind : QuoteKind) (more value after : List Char) :
      readRawQuoted kind more = some (value, after) → _ := readRawQuoted_append
  unfold readQuotation at h
  split at h
  · exact readQuotation_opening (hquoted .text _)
      (fun _ => rfl : ∀ _, readQuotation (['"'] ++ _) = _) h
  · exact readQuotation_opening (hraw .text _)
      (fun _ => rfl : ∀ _, readQuotation (['r'] ++ _) = _) h
  · exact readQuotation_opening (hquoted .bytes _)
      (fun _ => rfl : ∀ _, readQuotation (['b', '"'] ++ _) = _) h
  · exact readQuotation_opening (hraw .bytes _)
      (fun _ => rfl : ∀ _, readQuotation (['b', 'r'] ++ _) = _) h
  · exact readQuotation_opening (hquoted .terminated _)
      (fun _ => rfl : ∀ _, readQuotation (['c', '"'] ++ _) = _) h
  · exact readQuotation_opening (hraw .terminated _)
      (fun _ => rfl : ∀ _, readQuotation (['c', 'r'] ++ _) = _) h
  · obtain ⟨taken, rfl, hread⟩ := readByte_append h
    exact ⟨'b' :: '\'' :: taken, rfl, hread⟩
  · obtain ⟨taken, rfl, hread⟩ := readChar_append h
    exact ⟨'\'' :: taken, rfl, hread⟩
  · cases h

/-! ### Literals -/

/-- A quotation begins with a quote or with a letter. -/
theorem readQuotation_eq_none (hfirst : c ∉ ['"', '\'', 'r', 'b', 'c']) :
    readQuotation (c :: chars) = none := by
  simp only [List.mem_cons, List.not_mem_nil, or_false, not_or] at hfirst
  simp [readQuotation, hfirst]

/-- A literal is read from its own characters only, in front of everything that breaks it off. -/
theorem readLiteral_append (h : readLiteral chars = some rest) :
    ∃ taken, chars = taken ++ rest ∧
      ∀ tail, Breaks tail → readLiteral (taken ++ tail) = some tail := by
  rw [readLiteral_eq] at h
  cases hquotation : readQuotation chars with
  | some after =>
    obtain rfl : dropIdent after = rest := by simpa [hquotation] using h
    obtain ⟨taken, rfl, hread⟩ := readQuotation_append hquotation
    obtain ⟨word, hword, hafter⟩ := exists_dropIdent after
    refine ⟨taken ++ word, by rw [List.append_assoc, ← hafter], fun tail htail => ?_⟩
    rw [readLiteral_eq, List.append_assoc, hread]
    simp only [hword.dropIdent_append htail.wordEnded]
  | none =>
    have hnumber : readNumber chars = some rest := by simpa [hquotation] using h
    obtain ⟨taken, rfl, hread⟩ := readNumber_append hnumber
    refine ⟨taken, rfl, fun tail htail => ?_⟩
    cases taken with
    | nil => cases hread [] trivial
    | cons c more =>
      have hdigit := isDigit_of_readNumber (hread tail htail)
      have hfirst : c ∉ ['"', '\'', 'r', 'b', 'c'] := by
        intro hmem
        have hall : ∀ c ∈ ['"', '\'', 'r', 'b', 'c'], c.isDigit = false := by decide
        rw [hall c hmem] at hdigit
        cases hdigit
      rw [readLiteral_eq, List.cons_append, readQuotation_eq_none hfirst]
      exact hread tail htail

/-! ### Elements that are tokens -/

/-- The blank characters, one by one. -/
def blankPoints : List Nat :=
  [0x9, 0xa, 0xb, 0xc, 0xd, 0x20, 0x85, 0xa0, 0x1680, 0x2000, 0x2001, 0x2002, 0x2003, 0x2004,
    0x2005, 0x2006, 0x2007, 0x2008, 0x2009, 0x200a, 0x200e, 0x200f, 0x2028, 0x2029, 0x202f, 0x205f,
    0x3000]

/-- No blank character belongs to a word. -/
theorem isIdentContinue_of_isBlank (h : Text.isBlank c = true) : isIdentContinue c = false := by
  have hall : ∀ n ∈ blankPoints, isIdentContinue (Char.ofNat n) = false := by decide +kernel
  have hranges : ∀ r ∈ Text.blankRanges, ∀ n ∈ List.range' r.1 (r.2 + 1 - r.1), n ∈ blankPoints := by
    decide
  obtain ⟨r, hr, hc⟩ := List.any_eq_true.mp h
  simp only [Bool.and_eq_true, decide_eq_true_eq] at hc
  have hmem : c.toNat ∈ blankPoints :=
    hranges r hr _ (List.mem_range'_1.mpr ⟨hc.1, by omega⟩)
  rw [← Char.ofNat_toNat c]
  exact hall _ hmem

/-- The character begins a token: no blank, no delimiter and no comment. -/
structure OpensLeaf (c : Char) : Prop where
  not_blank : Text.isBlank c = false
  not_mem : c ∉ ['/', '(', ')', '[', ']', '{', '}']

theorem opensLeaf_of_isIdentContinue (h : isIdentContinue c = true) : OpensLeaf c := by
  have hall : ∀ c ∈ ['/', '(', ')', '[', ']', '{', '}'], isIdentContinue c = false := by decide
  refine ⟨?_, fun hmem => ?_⟩
  · rw [← Bool.not_eq_true]
    intro hblank
    rw [isIdentContinue_of_isBlank hblank] at h
    cases h
  · rw [hall c hmem] at h
    cases h

/-- Behind a character that begins a token there is one. -/
theorem OpensLeaf.readElement_cons (h : OpensLeaf c) :
    readElement (c :: chars) = (readLeaf (c :: chars)).map fun r => (.leaf r.1, r.2) := by
  obtain ⟨hblank, hnot⟩ := h
  simp only [List.mem_cons, List.not_mem_nil, or_false, not_or] at hnot
  obtain ⟨hslash, hparen, hclose, hrest⟩ := hnot
  have hmark : errorMark.isPrefixOf (c :: chars) = false := by
    have hne : ('(' == c) = false := beq_eq_false_iff_ne.mpr fun heq => hparen heq.symm
    have hopen : errorMark = '(' :: "/*ERROR*/)".toList := by decide
    rw [hopen, List.isPrefixOf_cons_cons, hne, Bool.false_and]
  unfold readElement
  split
  · exact absurd ‹_› (List.cons_ne_nil _ _)
  · exact absurd (List.cons.inj ‹_›).1 hslash
  · exact absurd (List.cons.inj ‹_›).1 hslash
  · rename_i hcons
    obtain ⟨rfl, rfl⟩ := List.cons.inj hcons
    rw [hblank, hmark]
    simp only [Bool.false_eq_true, if_false]
    split <;> first | rfl | simp at hparen hclose hrest

/-- The characters of a token. -/
def Leaf.spelling : Leaf → List Char
  | .ident name => name.toList
  | .punct c _ => [c]
  | .literal text => text.toList

/-- The token is read for itself in front of everything that breaks it off. -/
def Leaf.Stands (leaf : Leaf) : Prop :=
  ∀ tail, Breaks tail → readElement (leaf.spelling ++ tail) = some (.leaf leaf, tail)

/-- What a literal may begin with. -/
theorem first_of_readLiteral (h : readLiteral (c :: chars) = some rest) :
    c ∈ ['"', '\'', 'r', 'b', 'c'] ∨ c.isDigit = true := by
  by_cases hfirst : c ∈ ['"', '\'', 'r', 'b', 'c']
  · exact .inl hfirst
  · rw [readLiteral_eq, readQuotation_eq_none hfirst] at h
    exact .inr (isDigit_of_readNumber h)

theorem opensLeaf_of_readLiteral (h : readLiteral (c :: chars) = some rest) : OpensLeaf c := by
  rcases first_of_readLiteral h with hmem | hdigit
  · simp only [List.mem_cons, List.not_mem_nil, or_false] at hmem
    rcases hmem with rfl | rfl | rfl | rfl | rfl <;> exact ⟨by decide, by decide⟩
  · exact opensLeaf_of_isIdentContinue (by simp [isIdentContinue, hdigit])

/-- A literal that is read can be written elsewhere. -/
theorem stands_of_readLiteral (h : readLiteral chars = some rest) :
    ∃ text, chars = String.toList text ++ rest ∧ takenBefore chars rest = text.toList ∧
      (Leaf.literal text).Stands := by
  obtain ⟨taken, rfl, hread⟩ := readLiteral_append h
  refine ⟨String.ofList taken, by simp, by simp [takenBefore_append], fun tail htail => ?_⟩
  have hliteral := hread tail htail
  cases taken with
  | nil => cases hread [] trivial
  | cons c more =>
    have hopens := opensLeaf_of_readLiteral hliteral
    rw [Leaf.spelling, String.toList_ofList, List.cons_append, hopens.readElement_cons, readLeaf,
      ← List.cons_append, hliteral]
    simp only [takenBefore_append, Option.map_some]

/-- A parenthesis opens a group, unless it begins the mark of a literal that could not be made. -/
theorem readElement_paren (more : List Char) :
    readElement ('(' :: more) =
      if errorMark.isPrefixOf ('(' :: more) then
        some (.leaf (.literal (String.ofList errorMark)), ('(' :: more).drop errorMark.length)
      else some (.opening .paren, more) := by
  have hblank : Text.isBlank '(' = false := by decide
  unfold readElement
  split
  · exact absurd ‹_› (List.cons_ne_nil _ _)
  · cases (List.cons.inj ‹_›).1
  · cases (List.cons.inj ‹_›).1
  · rename_i hcons
    obtain ⟨rfl, rfl⟩ := List.cons.inj hcons
    rw [hblank]
    rfl

/-- The mark of a literal that could not be made can be written elsewhere. -/
theorem stands_errorMark : (Leaf.literal (String.ofList errorMark)).Stands := by
  intro tail _
  have hopen : ∃ more, errorMark ++ tail = '(' :: more := ⟨_, rfl⟩
  have hpre : errorMark.isPrefixOf (errorMark ++ tail) = true :=
    List.isPrefixOf_iff_prefix.mpr (List.prefix_append _ _)
  have hdrop : (errorMark ++ tail).drop errorMark.length = tail := List.drop_left
  obtain ⟨more, hmore⟩ := hopen
  rw [hmore] at hpre hdrop
  rw [Leaf.spelling, String.toList_ofList, hmore, readElement_paren, if_pos hpre, hdrop]

/-! ### Words -/

/-- A prefix that holds no break is found in front of a break only if it is found without it. -/
theorem isPrefixOf_of_breaks {opening : List Char}
    (hopening : ∀ c ∈ opening, c ∉ [' ', ')', ']', '}'])
    (htail : Breaks tail) (h : opening.isPrefixOf (chars ++ tail) = true) :
    opening.isPrefixOf chars = true := by
  induction opening generalizing chars with
  | nil => simp
  | cons c more ih =>
    have hmore : ∀ c ∈ more, c ∉ [' ', ')', ']', '}'] :=
      fun c hc => hopening c (List.mem_cons_of_mem _ hc)
    cases chars with
    | nil =>
      cases tail with
      | nil => cases h
      | cons d other =>
        obtain ⟨heq, -⟩ : c = d ∧ _ := by simpa [List.isPrefixOf] using h
        exact absurd (heq ▸ htail) (hopening c List.mem_cons_self)
    | cons d other =>
      obtain ⟨rfl, hrest⟩ : c = d ∧ more.isPrefixOf (other ++ tail) = true := by
        simpa [List.isPrefixOf] using h
      simpa [List.isPrefixOf] using ih hmore hrest

/-- A raw literal opens with a quote, or with a hash sign in front of a quote or another one. -/
theorem opens_of_rawOpening {count hashes : Nat} (h : rawOpening count chars = some (hashes, rest)) :
    (∃ more, chars = '"' :: more) ∨ ∃ c more, chars = '#' :: c :: more ∧ c ∈ ['"', '#'] := by
  unfold rawOpening at h
  split at h
  · exact .inl ⟨_, rfl⟩
  · rename_i more
    unfold rawOpening at h
    split at h
    · exact .inr ⟨'"', _, rfl, by simp⟩
    · exact .inr ⟨'#', _, rfl, by simp⟩
    · cases h
  · cases h

theorem opens_of_readRawQuoted {kind : QuoteKind} {value : List Char}
    (h : readRawQuoted kind chars = some (value, rest)) :
    (∃ more, chars = '"' :: more) ∨ ∃ c more, chars = '#' :: c :: more ∧ c ∈ ['"', '#'] := by
  unfold readRawQuoted at h
  split at h
  · exact opens_of_rawOpening ‹_›
  · cases h

/-- What is read between quotes opens with a quote, or like a quotation. -/
theorem opens_of_readQuotation (h : readQuotation (c :: chars) = some rest) :
    c ∈ ['"', '\''] ∨ quoteOpenings.any (·.isPrefixOf (c :: chars)) = true := by
  have hopens (opening : List Char) (hmem : opening ∈ quoteOpenings)
      (hpre : opening.isPrefixOf (c :: chars) = true) :
      c ∈ ['"', '\''] ∨ quoteOpenings.any (·.isPrefixOf (c :: chars)) = true :=
    .inr (List.any_eq_true.mpr ⟨opening, hmem, hpre⟩)
  unfold readQuotation at h
  split at h
  · obtain ⟨rfl, rfl⟩ := List.cons.inj ‹_›
    exact .inl (by simp)
  · obtain ⟨rfl, rfl⟩ := List.cons.inj ‹_›
    obtain ⟨r, hraw, -⟩ := Option.map_eq_some_iff.mp h
    rcases opens_of_readRawQuoted hraw with ⟨more, rfl⟩ | ⟨d, more, rfl, hd⟩
    · exact hopens ['r', '"'] (by decide) rfl
    · simp only [List.mem_cons, List.not_mem_nil, or_false] at hd
      rcases hd with rfl | rfl
      · exact hopens ['r', '#', '"'] (by decide) rfl
      · exact hopens ['r', '#', '#'] (by decide) rfl
  · obtain ⟨rfl, rfl⟩ := List.cons.inj ‹_›
    exact hopens ['b', '"'] (by decide) rfl
  · obtain ⟨rfl, rfl⟩ := List.cons.inj ‹_›
    obtain ⟨r, hraw, -⟩ := Option.map_eq_some_iff.mp h
    rcases opens_of_readRawQuoted hraw with ⟨more, rfl⟩ | ⟨d, more, rfl, -⟩
    · exact hopens ['b', 'r', '"'] (by decide) rfl
    · exact hopens ['b', 'r', '#'] (by decide) rfl
  · obtain ⟨rfl, rfl⟩ := List.cons.inj ‹_›
    exact hopens ['c', '"'] (by decide) rfl
  · obtain ⟨rfl, rfl⟩ := List.cons.inj ‹_›
    obtain ⟨r, hraw, -⟩ := Option.map_eq_some_iff.mp h
    rcases opens_of_readRawQuoted hraw with ⟨more, rfl⟩ | ⟨d, more, rfl, -⟩
    · exact hopens ['c', 'r', '"'] (by decide) rfl
    · exact hopens ['c', 'r', '#'] (by decide) rfl
  · obtain ⟨rfl, rfl⟩ := List.cons.inj ‹_›
    exact hopens ['b', '\''] (by decide) rfl
  · obtain ⟨rfl, rfl⟩ := List.cons.inj ‹_›
    exact .inl (by simp)
  · cases h

theorem readIdent_raw (chars : List Char) :
    readIdent ('r' :: '#' :: chars) =
      if startsIdent chars &&
          !Text.neverRaw.contains (String.ofList (chars.takeWhile isIdentContinue)) then
        some (String.ofList ('r' :: '#' :: chars.takeWhile isIdentContinue),
          chars.dropWhile isIdentContinue)
      else none := rfl

/-- A word without the mark of a raw one is read as an identifier. -/
theorem readIdent_word (hword : IsWord word) (hne : word ≠ []) (hend : WordEnded tail)
    (hraw : ∀ more, word ++ tail ≠ 'r' :: '#' :: more) :
    readIdent (word ++ tail) = some (String.ofList word, tail) := by
  have hstarts : startsIdent (word ++ tail) = true := by
    cases word with
    | nil => exact absurd rfl hne
    | cons c more => exact hword.starts c rfl
  unfold readIdent
  split
  · exact absurd ‹_› (hraw _)
  · rw [if_pos hstarts, hword.takeWhile_append hend, hword.dropWhile_append hend]

/-- An identifier is read from its own characters only, in front of everything that breaks it
off. -/
theorem readIdent_append {name : String} (h : readIdent chars = some (name, rest)) :
    chars = name.toList ++ rest ∧ (∃ c more, name.toList = c :: more ∧ isIdentStart c = true) ∧
      ∀ tail, Breaks tail → readIdent (name.toList ++ tail) = some (name, tail) := by
  unfold readIdent at h
  split at h
  · rename_i more
    dsimp only at h
    split at h
    · rename_i hraw
      obtain ⟨rfl, rfl⟩ := Prod.mk.inj (Option.some.inj h)
      obtain ⟨hstarts, hnever⟩ := Bool.and_eq_true_iff.mp hraw
      obtain ⟨c, left, htake, hword⟩ := isWord_takeWhile hstarts
      refine ⟨by simp, ⟨'r', _, String.toList_ofList, by decide⟩, fun tail htail => ?_⟩
      have hstarts : startsIdent (c :: left ++ tail) = true := hword.starts c rfl
      rw [htake] at hnever ⊢
      rw [String.toList_ofList, List.cons_append, List.cons_append, readIdent_raw,
        hword.takeWhile_append htail.wordEnded, hword.dropWhile_append htail.wordEnded, hstarts,
        hnever]
      rfl
    · cases h
  · rename_i hplain
    split at h
    · rename_i hstarts
      obtain ⟨rfl, rfl⟩ := Prod.mk.inj (Option.some.inj h)
      obtain ⟨c, left, htake, hword⟩ := isWord_takeWhile hstarts
      refine ⟨by simp, ⟨c, left, by rw [htake, String.toList_ofList], hword.starts c rfl⟩, ?_⟩
      intro tail htail
      rw [htake, String.toList_ofList]
      refine readIdent_word hword (by simp) htail.wordEnded fun other heq => ?_
      obtain ⟨rfl, hmore⟩ := List.cons.inj heq
      cases left with
      | nil =>
        obtain rfl : tail = '#' :: other := hmore
        exact absurd htail (by decide : '#' ∉ [' ', ')', ']', '}'])
      | cons d last =>
        obtain ⟨rfl, -⟩ := List.cons.inj hmore
        exact absurd (hword.continues '#' (by simp)) (by decide)
    · cases h

/-- Which texts begin with a word. -/
theorem readLeaf_eq_ident {name : String} :
    readLeaf chars = some (.ident name, rest) ↔
      readLiteral chars = none ∧ startsPunct chars = false ∧
        quoteOpenings.any (·.isPrefixOf chars) = false ∧ readIdent chars = some (name, rest) := by
  constructor
  · intro h
    unfold readLeaf at h
    split at h
    · cases h
    · rename_i hliteral
      refine ⟨hliteral, ?_⟩
      cases chars with
      | nil => cases h
      | cons c more =>
        dsimp only at h
        split at h
        · split at h
          · split at h
            · split at h <;> cases h
            · cases h
          · cases h
        · rename_i hpunct
          split at h
          · cases h
          · rename_i hopens
            obtain ⟨⟨word, after⟩, hread, hword⟩ := Option.map_eq_some_iff.mp h
            cases hword
            exact ⟨by simpa using hpunct, by simpa using hopens, hread⟩
  · rintro ⟨hliteral, hpunct, hopens, hread⟩
    cases chars with
    | nil => cases hread
    | cons c more => simp [readLeaf, hliteral, hpunct, hopens, hread]

theorem startsPunct_eq_false (h : c ∉ punctuation) : startsPunct (c :: chars) = false := by
  unfold startsPunct
  split
  · rfl
  · rfl
  · rename_i hcons
    obtain ⟨rfl, rfl⟩ := List.cons.inj hcons
    simpa using h
  · rfl

theorem not_mem_of_isIdentStart {chars : List Char} (h : isIdentStart c = true)
    (hall : ∀ d ∈ chars, isIdentStart d = false) : c ∉ chars := by
  intro hmem
  rw [hall c hmem] at h
  cases h

/-- What begins a word begins no literal where no quotation opens. -/
theorem readLiteral_eq_none (hstart : isIdentStart c = true)
    (hopens : quoteOpenings.any (·.isPrefixOf (c :: chars)) = false) :
    readLiteral (c :: chars) = none := by
  rw [readLiteral_eq]
  cases hquotation : readQuotation (c :: chars) with
  | some after =>
    rcases opens_of_readQuotation hquotation with hmem | hopen
    · exact absurd hmem (not_mem_of_isIdentStart hstart (by decide))
    · rw [hopen] at hopens
      cases hopens
  | none =>
    cases hnumber : readNumber (c :: chars) with
    | some after =>
      have hdigit := isDigit_of_readNumber hnumber
      rw [isDigit_eq_false hstart] at hdigit
      cases hdigit
    | none => rfl

/-- A word is a token where no quotation opens. -/
theorem readElement_of_readIdent {name : String} (hstart : isIdentStart c = true)
    (hopens : quoteOpenings.any (·.isPrefixOf (c :: chars)) = false)
    (hread : readIdent (c :: chars) = some (name, rest)) :
    readElement (c :: chars) = some (.leaf (.ident name), rest) := by
  have hpunct : startsPunct (c :: chars) = false :=
    startsPunct_eq_false (not_mem_of_isIdentStart hstart (by decide))
  have hleaf := readLeaf_eq_ident.mpr ⟨readLiteral_eq_none hstart hopens, hpunct, hopens, hread⟩
  have hopens : OpensLeaf c :=
    opensLeaf_of_isIdentContinue (Text.isIdentContinue_of_isIdentStart hstart)
  rw [hopens.readElement_cons, hleaf]
  rfl

/-- A word that is read can be written elsewhere. -/
theorem stands_of_readLeaf_ident {name : String} (h : readLeaf chars = some (.ident name, rest)) :
    chars = name.toList ++ rest ∧ (Leaf.ident name).Stands := by
  obtain ⟨-, -, hopens, hread⟩ := readLeaf_eq_ident.mp h
  obtain ⟨rfl, ⟨c, more, hname, hstart⟩, hlocal⟩ := readIdent_append hread
  refine ⟨rfl, fun tail htail => ?_⟩
  have hnot : quoteOpenings.any (·.isPrefixOf (name.toList ++ tail)) = false := by
    rw [List.any_eq_false] at hopens ⊢
    intro opening hmem hpre
    have hnone : ∀ opening ∈ quoteOpenings, ∀ c ∈ opening, c ∉ [' ', ')', ']', '}'] := by decide
    have hfound := List.isPrefixOf_iff_prefix.mp (isPrefixOf_of_breaks (hnone _ hmem) htail hpre)
    exact hopens opening hmem
      (List.isPrefixOf_iff_prefix.mpr (hfound.trans (List.prefix_append _ _)))
  have hword := hlocal tail htail
  rw [hname, List.cons_append] at hnot hword
  rw [Leaf.spelling, hname, List.cons_append]
  exact readElement_of_readIdent hstart hnot hword

/-- A literal that is read as a token was read as a literal. -/
theorem readLeaf_eq_literal {text : String} (h : readLeaf chars = some (.literal text, rest)) :
    readLiteral chars = some rest ∧ text = String.ofList (takenBefore chars rest) := by
  unfold readLeaf at h
  split at h
  · rename_i after hliteral
    cases h
    exact ⟨hliteral, rfl⟩
  · cases chars with
    | nil => cases h
    | cons c more =>
      dsimp only at h
      split at h
      · split at h
        · split at h
          · split at h <;> cases h
          · cases h
        · cases h
      · split at h
        · cases h
        · obtain ⟨r, -, hr⟩ := Option.map_eq_some_iff.mp h
          cases hr

/-- Words and literals of a text can be written elsewhere. -/
theorem stands_of_readElement {leaf : Leaf} (hleaf : ∀ c spacing, leaf ≠ .punct c spacing)
    (h : readElement chars = some (.leaf leaf, rest)) : leaf.Stands := by
  rcases readElement_eq_leaf h with rfl | hread
  · exact stands_errorMark
  · cases leaf with
    | ident name => exact (stands_of_readLeaf_ident hread).2
    | punct c spacing => exact absurd rfl (hleaf c spacing)
    | literal text =>
      obtain ⟨hliteral, rfl⟩ := readLeaf_eq_literal hread
      obtain ⟨text, -, htaken, hstands⟩ := stands_of_readLiteral hliteral
      rw [htaken, String.ofList_toList]
      exact hstands

end KeyedModel.Token
