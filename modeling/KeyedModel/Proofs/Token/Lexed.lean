import KeyedModel.Proofs.Token.Writable

/-!
# A text that was read can be written down

The lexer marks a punctuation character as joint when another one follows, and as the mark of a
lifetime when a name does. In both cases the next element of the text is a token that may stand
there, so the trees of a text are chained.
-/

namespace KeyedModel.Token

open Text (isIdentStart isIdentContinue)

variable {c : Char} {chars rest : List Char} {t : Tree}

/-! ### Punctuation -/

theorem Leaf.print_at (leaf : Leaf) (place : Place) : (leaf.at place).print = leaf.spelling := by
  cases leaf <;> simp [Leaf.at, Tree.print, Leaf.spelling]

/-- Only the mark of a lifetime begins literals and is punctuation. -/
theorem readLiteral_punct (h : c ∈ punctuation) (hquote : c ≠ '\'') :
    readLiteral (c :: chars) = none := by
  have hall : ∀ c ∈ punctuation, c ≠ '\'' → c ∉ ['"', '\'', 'r', 'b', 'c'] ∧ c.isDigit = false := by
    decide
  obtain ⟨hfirst, hdigit⟩ := hall c h hquote
  rw [readLiteral_eq, readQuotation_eq_none hfirst]
  cases hnumber : readNumber (c :: chars) with
  | none => rfl
  | some after => rw [isDigit_of_readNumber hnumber] at hdigit; cases hdigit

/-- What a punctuation character is read as, by what follows it. -/
theorem readLeaf_eq_punct {d : Char} {spacing : Spacing}
    (h : readLeaf (c :: chars) = some (.punct d spacing, rest)) :
    d = c ∧ rest = chars ∧ startsPunct (c :: chars) = true ∧ readLiteral (c :: chars) = none ∧
      ((c ≠ '\'' ∧ (spacing = .joint → startsPunct chars = true)) ∨
        (c = '\'' ∧ spacing = .joint ∧
          ∃ name after, readIdent chars = some (name, after) ∧ endsLifetime chars after = true)) := by
  unfold readLeaf at h
  split at h
  · cases h
  · rename_i hliteral
    dsimp only at h
    split at h
    · rename_i hpunct
      split at h
      · rename_i hmark
        split at h
        · rename_i name after hname
          split at h
          · rename_i hends
            cases h
            exact ⟨rfl, rfl, hpunct, hliteral,
              .inr ⟨eq_of_beq hmark, rfl, name, after, hname, hends⟩⟩
          · cases h
        · cases h
      · rename_i hmark
        cases h
        refine ⟨rfl, rfl, hpunct, hliteral, .inl ⟨by simpa using hmark, fun hjoint => ?_⟩⟩
        by_contra hnot
        simp [hnot] at hjoint
    · split at h
      · cases h
      · obtain ⟨r, -, hr⟩ := Option.map_eq_some_iff.mp h
        cases hr

/-! ### Lifetimes -/

/-- The words that open a quotation. -/
def quoteWords : List (List Char) := [['r'], ['b'], ['c'], ['b', 'r'], ['c', 'r']]

/-- What opens a quotation behind the mark of a lifetime is a word, and no character literal. -/
structure QuoteWord (word : List Char) : Prop where
  isWord : IsWord word
  ne_nil : word ≠ []
  not_char : ∀ more, readChar (word ++ '"' :: more) = none

theorem quoteWord_of_mem {word : List Char} (h : word ∈ quoteWords) : QuoteWord word := by
  have hall : ∀ word ∈ quoteWords, word ≠ [] ∧ (∀ c ∈ word.head?, isIdentStart c = true) ∧
      ∀ c ∈ word, isIdentContinue c = true := by decide
  obtain ⟨hne, hstarts, hcontinues⟩ := hall word h
  refine ⟨⟨hstarts, hcontinues⟩, hne, fun more => ?_⟩
  simp only [quoteWords, List.mem_cons, List.not_mem_nil, or_false] at h
  rcases h with rfl | rfl | rfl | rfl | rfl <;> rfl

/-- The word is read as an identifier, up to a character that cannot make it a raw one. -/
theorem QuoteWord.readIdent_append {word : List Char} (h : QuoteWord word) {mark : Char}
    (hmark : isIdentContinue mark = false) (hraw : mark = '#' → word ≠ ['r']) (more : List Char) :
    readIdent (word ++ mark :: more) = some (String.ofList word, mark :: more) := by
  refine readIdent_word h.isWord h.ne_nil (by simpa [WordEnded] using hmark) fun other heq => ?_
  obtain _ | ⟨c, _ | ⟨d, last⟩⟩ := word
  · exact h.ne_nil rfl
  · obtain ⟨rfl, hmore⟩ := List.cons.inj heq
    exact hraw (List.cons.inj hmore).1 rfl
  · obtain ⟨rfl, hmore⟩ := List.cons.inj heq
    obtain ⟨rfl, -⟩ := List.cons.inj hmore
    exact absurd (h.isWord.continues '#' (by simp)) (by decide)

/-- A literal that may follow the mark of a lifetime is a word directly in front of a quote. -/
theorem exists_quoteWord {after found : List Char} {name : String}
    (hquotation : readQuotation chars = some after) (hchar : readChar (chars ++ rest) = none)
    (hname : readIdent (chars ++ rest) = some (name, found))
    (hends : endsLifetime (chars ++ rest) found = true) :
    ∃ word ∈ quoteWords, ∃ more, chars = word ++ '"' :: more := by
  -- a hash sign behind a word other than `r` ends no lifetime
  have hhash {word more : List Char} (hword : word ∈ [['b', 'r'], ['c', 'r']])
      (heq : chars = word ++ '#' :: more) : False := by
    have hmem : word ∈ quoteWords ∧ word ≠ ['r'] := by
      have hall : ∀ word ∈ [['b', 'r'], ['c', 'r']], word ∈ quoteWords ∧ word ≠ ['r'] := by decide
      exact hall word hword
    have hread := (quoteWord_of_mem hmem.1).readIdent_append
      (by decide : isIdentContinue '#' = false) (fun _ => hmem.2) (more ++ rest)
    rw [heq, List.append_assoc, List.cons_append] at hname hends
    obtain ⟨-, rfl⟩ := Prod.mk.inj (Option.some.inj (hread.symm.trans hname))
    simp only [List.mem_cons, List.not_mem_nil, or_false] at hword
    rcases hword with rfl | rfl <;> cases hends
  unfold readQuotation at hquotation
  split at hquotation
  · cases hname
  · obtain ⟨r, hread, -⟩ := Option.map_eq_some_iff.mp hquotation
    rcases opens_of_readRawQuoted hread with ⟨more, rfl⟩ | ⟨d, more, rfl, hd⟩
    · exact ⟨['r'], by simp [quoteWords], more, rfl⟩
    · have hstarts : startsIdent (d :: (more ++ rest)) = false := by
        simp only [List.mem_cons, List.not_mem_nil, or_false] at hd
        rcases hd with rfl | rfl <;> rfl
      rw [List.cons_append, List.cons_append, List.cons_append, readIdent_raw, hstarts] at hname
      cases hname
  · exact ⟨['b'], by simp [quoteWords], _, rfl⟩
  · obtain ⟨r, hread, -⟩ := Option.map_eq_some_iff.mp hquotation
    rcases opens_of_readRawQuoted hread with ⟨more, rfl⟩ | ⟨d, more, rfl, -⟩
    · exact ⟨['b', 'r'], by simp [quoteWords], more, rfl⟩
    · exact (hhash (by simp) (rfl : _ = ['b', 'r'] ++ _)).elim
  · exact ⟨['c'], by simp [quoteWords], _, rfl⟩
  · obtain ⟨r, hread, -⟩ := Option.map_eq_some_iff.mp hquotation
    rcases opens_of_readRawQuoted hread with ⟨more, rfl⟩ | ⟨d, more, rfl, -⟩
    · exact ⟨['c', 'r'], by simp [quoteWords], more, rfl⟩
    · exact (hhash (by simp) (rfl : _ = ['c', 'r'] ++ _)).elim
  · cases hchar
  · cases hname
  · cases hquotation

/-- The mark of a lifetime is read as such. -/
theorem readElement_quote {name : String} {found : List Char} (hchar : readChar chars = none)
    (hname : readIdent chars = some (name, found)) (hends : endsLifetime chars found = true) :
    readElement ('\'' :: chars) = some (.leaf (.punct '\'' .joint), chars) := by
  have hopens : OpensLeaf '\'' := ⟨by decide, by decide⟩
  have hnumber : readNumber ('\'' :: chars) = none := by
    cases hnumber : readNumber ('\'' :: chars) with
    | none => rfl
    | some after => cases isDigit_of_readNumber hnumber
  have hliteral : readLiteral ('\'' :: chars) = none := by
    rw [readLiteral_eq, show readQuotation ('\'' :: chars) = readChar chars from rfl, hchar, hnumber]
  have hpunct : startsPunct ('\'' :: chars) = true := rfl
  rw [hopens.readElement_cons, readLeaf, hliteral]
  simp [hpunct, hname, hends]

/-- A character literal needs a quote behind its character. -/
theorem readChar_eq_none (hc : c ≠ '\\') :
    readChar (c :: chars) = none ↔ ∀ other, chars ≠ '\'' :: other := by
  have hread : readChar (c :: chars) = afterQuote chars := by simp [readChar, hc]
  rw [hread, Option.eq_none_iff_forall_ne_some]
  simp [afterQuote_eq_some]

theorem endsLifetime_of_breaks {named tail : List Char} (h : Breaks tail) :
    endsLifetime named tail = true := by
  unfold endsLifetime
  split
  · exact absurd h (by decide : '\'' ∉ [' ', ')', ']', '}'])
  · exact absurd h (by decide : '#' ∉ [' ', ')', ']', '}'])
  · rfl

/-- Behind the mark of a lifetime a token can be written elsewhere as it was written there. -/
theorem namesLifetime_of_readLeaf {leaf : Leaf} {name : String} {found : List Char}
    (hleaf : readLeaf chars = some (leaf, rest)) (hchar : readChar chars = none)
    (hname : readIdent chars = some (name, found)) (hends : endsLifetime chars found = true)
    (place : Place) : (leaf.at place).NamesLifetime := by
  obtain ⟨hchars, ⟨c, more, hspelling, hstart⟩, hlocal⟩ := readIdent_append hname
  have hcons : chars = c :: (more ++ found) := by rw [hchars, hspelling, List.cons_append]
  have hslash : c ≠ '\\' := by
    rintro rfl
    cases hstart
  cases leaf with
  | punct d spacing =>
    rw [hcons] at hleaf
    obtain ⟨-, -, hpunct, -⟩ := readLeaf_eq_punct hleaf
    rw [startsPunct_eq_false (not_mem_of_isIdentStart hstart (by decide))] at hpunct
    cases hpunct
  | ident word =>
    obtain ⟨-, -, -, hread⟩ := readLeaf_eq_ident.mp hleaf
    obtain ⟨rfl, rfl⟩ := Prod.mk.inj (Option.some.inj (hread.symm.trans hname))
    refine ⟨by simp [Leaf.at], fun tail htail => ?_⟩
    rw [Leaf.print_at, Leaf.spelling]
    refine readElement_quote ?_ (hlocal tail htail) (endsLifetime_of_breaks htail)
    rw [hcons, readChar_eq_none hslash] at hchar
    rw [hspelling, List.cons_append, readChar_eq_none hslash]
    intro other heq
    cases more with
    | nil =>
      obtain rfl : tail = '\'' :: other := heq
      exact absurd htail (by decide : '\'' ∉ [' ', ')', ']', '}'])
    | cons d last =>
      obtain ⟨rfl, -⟩ := List.cons.inj heq
      exact hchar (last ++ rest) rfl
  | literal text =>
    obtain ⟨hliteral, htext⟩ := readLeaf_eq_literal hleaf
    refine ⟨by simp [Leaf.at], fun tail htail => ?_⟩
    rw [Leaf.print_at, Leaf.spelling, htext, String.toList_ofList]
    cases hquotation : readQuotation chars with
    | none =>
      rw [readLiteral_eq, hquotation, hcons] at hliteral
      have hdigit := isDigit_of_readNumber hliteral
      rw [isDigit_eq_false hstart] at hdigit
      cases hdigit
    | some after =>
      obtain rfl : dropIdent after = rest := by simpa [readLiteral_eq, hquotation] using hliteral
      obtain ⟨taken, htaken, hread⟩ := readQuotation_append hquotation
      obtain ⟨word, -, hafter⟩ := exists_dropIdent after
      have hsplit : chars = taken ++ word ++ dropIdent after := by
        rw [List.append_assoc, ← hafter, htaken]
      have hquoted := hread word
      rw [hsplit] at hchar hname hends
      obtain ⟨opening, hopening, inner, hinner⟩ :=
        exists_quoteWord hquoted hchar hname hends
      have hopens := quoteWord_of_mem hopening
      have hnew :
          takenBefore chars (dropIdent after) ++ tail = opening ++ '"' :: (inner ++ tail) := by
        rw [hsplit, takenBefore_append, hinner, List.append_assoc, List.cons_append]
      rw [hnew]
      exact readElement_quote (hopens.not_char _)
        (hopens.readIdent_append (by decide) (by simp) _) rfl

/-! ### Elements in a row -/

/-- The token may stand in front of the elements: nothing need follow it, or what follows may. -/
def Leads (t : Tree) (rest : List Located) : Prop :=
  t.Free ∨ ∃ next span more, rest = ⟨.leaf next, span⟩ :: more ∧ ∀ place, t.Fits (next.at place)

/-- Every token of the elements is spelled and may stand where it is. -/
def Linked : List Located → Prop
  | [] => True
  | l :: rest =>
    (∀ leaf place, l.element = .leaf leaf → (leaf.at place).Spelled ∧ Leads (leaf.at place) rest) ∧
      Linked rest

theorem mem_punctuation (h : startsPunct (c :: chars) = true) : c ∈ punctuation := by
  by_contra hnot
  rw [startsPunct_eq_false hnot] at h
  cases h

/-- A text that can be cut has an element at its front. -/
theorem exists_element {source : String} {fuel : Nat} {start : Position} {located : List Located}
    (h : cutWith source fuel start (c :: chars) = some located) :
    ∃ element after span more, readElement (c :: chars) = some (element, after) ∧
      located = ⟨element, span⟩ :: more := by
  cases fuel with
  | zero => cases h
  | succ fuel =>
    simp only [cutWith] at h
    split at h
    · cases h
    · rename_i element after hread
      obtain ⟨more, -, rfl⟩ := Option.map_eq_some_iff.mp h
      exact ⟨element, after, _, more, hread, rfl⟩

/-- Where a token can begin, a text that can be cut has one. -/
theorem exists_leaf {source : String} {fuel : Nat} {start : Position} {located : List Located}
    (h : cutWith source fuel start (c :: chars) = some located) (hopens : OpensLeaf c) :
    ∃ leaf after span more, readLeaf (c :: chars) = some (leaf, after) ∧
      located = ⟨.leaf leaf, span⟩ :: more := by
  obtain ⟨element, after, span, more, hread, rfl⟩ := exists_element h
  rw [hopens.readElement_cons] at hread
  obtain ⟨⟨leaf, found⟩, hleaf, heq⟩ := Option.map_eq_some_iff.mp hread
  obtain ⟨rfl, rfl⟩ := Prod.mk.inj heq
  exact ⟨leaf, found, span, more, hleaf, rfl⟩

/-- A punctuation character of a text is spelled and may stand in front of what follows it. -/
theorem leads_of_punct {source : String} {fuel : Nat} {start : Position} {located : List Located}
    {spacing : Spacing} {place : Place} (hread : readLeaf chars = some (.punct c spacing, rest))
    (hcut : cutWith source fuel start rest = some located) :
    (Tree.punct c spacing place).Spelled ∧ Leads (.punct c spacing place) located := by
  cases chars with
  | nil => cases hread
  | cons d more =>
    obtain ⟨rfl, rfl, hpunct, hliteral, hkind⟩ := readLeaf_eq_punct hread
    have hmem := mem_punctuation hpunct
    rcases hkind with ⟨hquote, hjoint⟩ | ⟨rfl, rfl, name, found, hname, hends⟩
    · refine ⟨⟨hmem, fun heq => absurd heq hquote⟩, ?_⟩
      by_cases hfree : c = '/' → spacing = .alone
      · exact .inl ⟨hquote, hfree⟩
      · obtain ⟨rfl, hspacing⟩ := Classical.not_imp.mp hfree
        obtain rfl : spacing = .joint := by
          cases spacing with
          | alone => exact absurd rfl hspacing
          | joint => rfl
        have hnext := hjoint rfl
        cases rest with
        | nil => cases hnext
        | cons e last =>
          have hslash : e ∉ ['/', '*'] := by
            intro hmem
            simp only [List.mem_cons, List.not_mem_nil, or_false] at hmem
            rcases hmem with rfl | rfl <;> cases hpunct
          have hopens : OpensLeaf e := by
            have hall : ∀ e ∈ punctuation, e ∉ ['/', '*'] → Text.isBlank e = false ∧
              e ∉ ['/', '(', ')', '[', ']', '{', '}'] := by decide
            obtain ⟨hblank, hnot⟩ := hall e (mem_punctuation hnext) hslash
            exact ⟨hblank, hnot⟩
          obtain ⟨leaf, after, span, more, hleaf, rfl⟩ := exists_leaf hcut hopens
          refine .inr ⟨leaf, span, more, rfl, fun q f spacing p heq => ?_⟩
          cases leaf with
          | punct g s =>
            obtain ⟨rfl, -⟩ := readLeaf_eq_punct hleaf
            cases heq
            exact hslash
          | ident name => cases heq
          | literal text => cases heq
    · refine ⟨⟨hmem, fun _ => rfl⟩, ?_⟩
      have hchar : readChar rest = none := by
        rw [readLiteral_eq] at hliteral
        cases hchar : readChar rest with
        | none => rfl
        | some after =>
          rw [show readQuotation ('\'' :: rest) = readChar rest from rfl, hchar] at hliteral
          cases hliteral
      obtain ⟨hrest, ⟨d, left, hspelling, hstart⟩, -⟩ := readIdent_append hname
      rw [hspelling, List.cons_append] at hrest
      have hopens := opensLeaf_of_isIdentContinue (Text.isIdentContinue_of_isIdentStart hstart)
      rw [hrest] at hcut
      obtain ⟨leaf, after, span, more, hleaf, rfl⟩ := exists_leaf hcut hopens
      rw [← hrest] at hleaf
      exact .inr ⟨leaf, span, more, rfl,
        fun q => namesLifetime_of_readLeaf hleaf hchar hname hends q⟩

/-- The elements of a text are linked. -/
theorem linked_of_cut {source : String} {fuel : Nat} {start : Position} {located : List Located}
    (h : cutWith source fuel start chars = some located) : Linked located := by
  induction fuel generalizing start chars located with
  | zero =>
    cases chars with
    | nil => cases h; trivial
    | cons c rest => cases h
  | succ fuel ih =>
    cases chars with
    | nil => cases h; trivial
    | cons c rest =>
      simp only [cutWith] at h
      split at h
      · cases h
      · rename_i element after hread
        obtain ⟨more, hmore, rfl⟩ := Option.map_eq_some_iff.mp h
        refine ⟨fun leaf place hleaf => ?_, ih hmore⟩
        obtain rfl : element = .leaf leaf := hleaf
        cases leaf with
        | ident name => exact ⟨stands_of_readElement (by simp) hread, .inl trivial⟩
        | literal text => exact ⟨stands_of_readElement (by simp) hread, .inl trivial⟩
        | punct d spacing =>
          rcases readElement_eq_leaf hread with hmark | hread
          · cases hmark
          · exact leads_of_punct hread hmore

/-! ### Nesting -/

/-- The text of a documentation comment is written as a literal. -/
theorem stands_quoteLiteral (text : String) : (Leaf.literal (Text.quoteLiteral text)).Stands := by
  have hread : readLiteral (Text.quoteLiteral text).toList = some [] := by
    rw [readLiteral_eq, Text.quoteLiteral, String.toList_ofList]
    simp [readQuotation, readQuoted_escapeLiteral, dropIdent, startsIdent]
  obtain ⟨spelled, hspelled, -, hstands⟩ := stands_of_readLiteral hread
  obtain rfl : spelled = Text.quoteLiteral text := by
    rw [List.append_nil] at hspelled
    exact (String.toList_inj.mp hspelled).symm
  exact hstands

theorem stands_word {name : String} (h : readElement name.toList = some (.leaf (.ident name), [])) :
    (Leaf.ident name).Stands :=
  stands_of_readElement (by simp) h

/-- The attribute for a documentation comment can be written down. -/
theorem writable_docAttribute (inner : Bool) (comment : List Char) (place : Place) :
    Writable (docAttribute inner comment place) := by
  have hhash : Writable [.punct '#' .alone place] := .alone (by decide) (by decide)
  have hbang : Writable [.punct '!' .alone place] := .alone (by decide) (by decide)
  have hequals : Writable [.punct '=' .alone place] := .alone (by decide) (by decide)
  have hdoc : Writable [.ident "doc" place] := .ident (stands_word (by decide))
  have hcomment : Writable [.literal (Text.quoteLiteral (String.ofList comment)) place] :=
    .literal (stands_quoteLiteral _)
  have hbody : Writable [.group .bracket place [.ident "doc" place, .punct '=' .alone place,
      .literal (Text.quoteLiteral (String.ofList comment)) place] place] :=
    Writable.group.mpr (hdoc.append (hequals.append hcomment))
  cases inner with
  | false => exact hhash.append hbody
  | true => exact hhash.append (hbang.append hbody)

/-- Nesting linked elements gives trees that can be written down. -/
theorem writable_of_nest {located : List Located} {stack : List OpenGroup} {done trees : List Tree}
    (hnest : nest stack done located = some trees) (hlinked : Linked located)
    (hstack : ∀ g ∈ stack, Writable g.before.reverse) (hdone : Chained done.reverse)
    (hleads : ∀ t ∈ done.head?, Leads t located) : Writable trees := by
  induction located generalizing stack done with
  | nil =>
    simp only [nest] at hnest
    split at hnest
    · cases hnest
      refine ⟨hdone, fun t ht => ?_⟩
      rw [List.getLast?_reverse] at ht
      rcases hleads t ht with hfree | ⟨next, span, more, heq, -⟩
      · exact hfree
      · cases heq
    · cases hnest
  | cons l rest ih =>
    obtain ⟨element, span⟩ := l
    obtain ⟨hleaf, hrest⟩ := hlinked
    -- only a token may stand behind a mark that waits for one
    have hwritable (hne : ∀ leaf, element ≠ .leaf leaf) : Writable done.reverse := by
      refine ⟨hdone, fun t ht => ?_⟩
      rw [List.getLast?_reverse] at ht
      rcases hleads t ht with hfree | ⟨next, span', more, heq, -⟩
      · exact hfree
      · exact absurd (congrArg Located.element (List.cons.inj heq).1) (hne next)
    have hends {found : List Tree} (h : Writable found.reverse) : ∀ t ∈ found.head?, Leads t rest :=
      fun t ht => .inl (h.endsFree t (by rwa [List.getLast?_reverse]))
    cases element with
    | blank =>
      have hbefore := hwritable (by simp)
      exact ih hnest hrest hstack hdone (hends hbefore)
    | doc inner comment =>
      have hafter : Writable ((docAttribute inner comment (some span)).reverse ++ done).reverse := by
        rw [List.reverse_append, List.reverse_reverse]
        exact (hwritable (by simp)).append (writable_docAttribute inner comment _)
      exact ih hnest hrest hstack hafter.chained (hends hafter)
    | leaf leaf =>
      obtain ⟨hspelled, hlead⟩ := hleaf leaf (some span) rfl
      refine ih hnest hrest hstack ?_ (by simpa using hlead)
      rw [List.reverse_cons]
      refine chained_append.mpr ⟨hdone, hspelled, fun t ht next hnext => ?_⟩
      rw [List.getLast?_reverse] at ht
      obtain rfl : leaf.at (some span) = next := by simpa using hnext
      rcases hleads t ht with hfree | ⟨found, span', more, heq, hfits⟩
      · exact hfree.fits _
      · cases heq
        exact hfits _
    | opening delimiter =>
      have hbefore := hwritable (by simp)
      refine ih hnest hrest (fun g hg => ?_) trivial (by simp)
      rcases List.mem_cons.mp hg with rfl | hg
      · exact hbefore
      · exact hstack g hg
    | closing delimiter =>
      have hinner := hwritable (by simp)
      cases stack with
      | nil => cases hnest
      | cons top stack =>
        simp only [nest] at hnest
        split at hnest
        · have hafter : Writable
              (.group delimiter top.place done.reverse (some span) ::
                top.before : List Tree).reverse := by
            rw [List.reverse_cons]
            exact (hstack top List.mem_cons_self).append (Writable.group.mpr hinner)
          exact ih hnest hrest (fun g hg => hstack g (List.mem_cons_of_mem _ hg)) hafter.chained
            (hends hafter)
        · cases hnest

/-- The trees of a text can be written down. -/
theorem writable_of_lex {source text : String} {trees : List Tree}
    (h : lex source text = some trees) : Writable trees := by
  unfold lex at h
  split at h
  · cases h
    exact .nil
  · split at h <;>
    · obtain ⟨located, hcut, hnest⟩ := Option.bind_eq_some_iff.mp h
      exact writable_of_nest hnest (linked_of_cut hcut) (by simp) trivial (by simp)

end KeyedModel.Token
