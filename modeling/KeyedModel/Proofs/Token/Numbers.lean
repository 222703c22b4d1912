import KeyedModel.Token.Number
import Mathlib.Data.List.TakeWhile

/-!
# Numbers are read from their own characters

A number may be cut out of its text: in front of a space, a closing delimiter or the end, the same
characters are read as the same number. Reading looks ahead behind a decimal point and behind the
letter of an exponent, so it must be shown that a number does not become longer.
-/

namespace KeyedModel.Token

open Text (isIdentStart isIdentContinue isIdentContinue_of_isIdentStart)

variable {c : Char} {chars word rest tail : List Char}

/-! ### Finite checks

What is claimed of the characters in a list is checked for these, never for all characters. -/

instance (priority := 10000) decidableForallMemList {α : Type} {p : α → Prop} [DecidablePred p]
    (l : List α) : Decidable (∀ a ∈ l, p a) :=
  List.decidableBAll p l

instance (priority := 10000) decidableExistsMemList {α : Type} {p : α → Prop} [DecidablePred p]
    (l : List α) : Decidable (∃ a ∈ l, p a) :=
  List.decidableBEx p l

instance (priority := 10000) decidableForallMemOption {α : Type} {p : α → Prop} [DecidablePred p] :
    (o : Option α) → Decidable (∀ a ∈ o, p a)
  | none => .isTrue fun _ h => nomatch h
  | some a => decidable_of_iff (p a) (by simp)

/-! ### Where a token ends -/

/-- Nothing comes that could belong to a token: the end, a space or a closing delimiter. -/
def Breaks : List Char → Prop
  | [] => True
  | c :: _ => c ∈ [' ', ')', ']', '}']

/-- No character comes that could continue a word. -/
def WordEnded (chars : List Char) : Prop := ∀ c ∈ chars.head?, isIdentContinue c = false

/-- No digit and no underscore comes. -/
def DigitsEnded (chars : List Char) : Prop := ∀ c ∈ chars.head?, (c.isDigit || c == '_') = false

/-- The characters are read as one word, if there are any. -/
structure IsWord (word : List Char) : Prop where
  starts : ∀ c ∈ word.head?, isIdentStart c = true
  continues : ∀ c ∈ word, isIdentContinue c = true

theorem isIdentStart_eq_false (h : isIdentContinue c = false) : isIdentStart c = false := by
  rw [← Bool.not_eq_true]
  intro hs
  rw [isIdentContinue_of_isIdentStart hs] at h
  cases h

theorem isDigit_eq_false (h : isIdentStart c = true) : c.isDigit = false := by
  rw [← Bool.not_eq_true]
  intro hdigit
  simp only [Char.isDigit, Bool.and_eq_true, decide_eq_true_eq, ge_iff_le,
    UInt32.le_iff_toNat_le] at hdigit
  have hsmall : c.toNat < 58 := Nat.lt_succ_of_le hdigit.2
  have hlarge : 48 ≤ c.toNat := hdigit.1
  have hall : ∀ n, 48 ≤ n → n < 58 → isIdentStart (Char.ofNat n) = false := by decide
  rw [← Char.ofNat_toNat c, hall _ hlarge hsmall] at h
  cases h

theorem digitsEnded_of_wordEnded (h : WordEnded chars) : DigitsEnded chars := by
  intro c hc
  have hcontinue := h c hc
  simp only [isIdentContinue, isIdentStart, Bool.or_eq_false_iff] at hcontinue
  simp [hcontinue]

theorem Breaks.wordEnded (h : Breaks tail) : WordEnded tail := by
  cases tail with
  | nil => simp [WordEnded]
  | cons c more =>
    have hall : ∀ c ∈ [' ', ')', ']', '}'], isIdentContinue c = false := by decide
    simpa [WordEnded] using hall c h

theorem not_letter_of_isIdentContinue (h : isIdentContinue c = false) :
    ¬('a' ≤ c ∧ c ≤ 'z') ∧ ¬('A' ≤ c ∧ c ≤ 'Z') := by
  have hstart : isIdentStart c = false := isIdentStart_eq_false h
  have halpha : c.isAlpha = false := (Bool.or_eq_false_iff.mp (Bool.or_eq_false_iff.mp hstart).1).2
  have hcase : c.isUpper = false ∧ c.isLower = false := Bool.or_eq_false_iff.mp halpha
  refine ⟨fun hlower => ?_, fun hupper => ?_⟩
  · have hmem : c.isLower = true := Bool.and_eq_true_iff.mpr
      ⟨decide_eq_true hlower.1, decide_eq_true hlower.2⟩
    exact absurd hmem (by simp [hcase.2])
  · have hmem : c.isUpper = true := decide_eq_true hupper
    exact absurd hmem (by simp [hcase.1])

/-- Letters that are digits of some base are characters of a word, as all digits are. -/
theorem baseDigit_eq_none (h : isIdentContinue c = false) : baseDigit c = none := by
  have hdigit : c.isDigit = false := (Bool.or_eq_false_iff.mp (Bool.or_eq_false_iff.mp h).1).2
  have hletter := not_letter_of_isIdentContinue h
  have hsmall : ¬('a' ≤ c ∧ c ≤ 'f') := fun hc =>
    hletter.1 ⟨hc.1, Char.le_trans hc.2 (by decide : 'f' ≤ 'z')⟩
  have hlarge : ¬('A' ≤ c ∧ c ≤ 'F') := fun hc =>
    hletter.2 ⟨hc.1, Char.le_trans hc.2 (by decide : 'F' ≤ 'Z')⟩
  simp [baseDigit, hdigit, hsmall, hlarge]

theorem wordBreak_eq_some : wordBreak chars = some rest ↔ chars = rest ∧ WordEnded chars := by
  cases chars with
  | nil => simp [wordBreak, WordEnded]
  | cons c more => cases hc : isIdentContinue c <;> simp [wordBreak, WordEnded, hc]

/-- What is taken where a word begins is one. -/
theorem isWord_takeWhile (h : startsIdent chars = true) :
    ∃ c more, chars.takeWhile isIdentContinue = c :: more ∧ IsWord (c :: more) := by
  cases chars with
  | nil => cases h
  | cons c more =>
    have hs : isIdentStart c = true := h
    refine ⟨c, more.takeWhile isIdentContinue, ?_, ⟨fun d hd => ?_, fun d hd => ?_⟩⟩
    · rw [List.takeWhile_cons_of_pos (isIdentContinue_of_isIdentStart hs)]
    · cases hd
      exact hs
    · rcases List.mem_cons.mp hd with rfl | hd
      · exact isIdentContinue_of_isIdentStart hs
      · exact List.mem_takeWhile_imp hd

/-- What is dropped as a word is one. -/
theorem exists_dropIdent (chars : List Char) :
    ∃ word, IsWord word ∧ chars = word ++ dropIdent chars := by
  unfold dropIdent
  split
  · obtain ⟨c, more, htake, hword⟩ := isWord_takeWhile ‹_›
    exact ⟨c :: more, hword, by rw [← htake, List.takeWhile_append_dropWhile]⟩
  · exact ⟨[], ⟨by simp, by simp⟩, rfl⟩

theorem exists_word (h : wordBreak (dropIdent chars) = some rest) :
    ∃ word, IsWord word ∧ chars = word ++ rest ∧ WordEnded rest := by
  rw [wordBreak_eq_some] at h
  obtain ⟨rfl, hend⟩ := h
  obtain ⟨word, hword, heq⟩ := exists_dropIdent chars
  exact ⟨word, hword, heq, hend⟩

theorem WordEnded.takeWhile_eq (h : WordEnded tail) : tail.takeWhile isIdentContinue = [] := by
  cases tail with
  | nil => rfl
  | cons c more => simp [h c rfl]

/-- What is left begins with an element that stays. -/
theorem stays_of_mem_head?_dropWhile {α : Type} {p : α → Bool} {list : List α} :
    ∀ a ∈ (list.dropWhile p).head?, p a = false := by
  intro a ha
  have hhead := List.head?_dropWhile_not p list
  rw [Option.mem_def.mp ha] at hhead
  simpa using hhead

/-- Elements are dropped up to the first one that stays. -/
theorem dropWhile_append_of_stays {α : Type} {p : α → Bool} {front rest : List α}
    (hfront : ∀ a ∈ front, p a = true) (hrest : ∀ a ∈ rest.head?, p a = false) :
    (front ++ rest).dropWhile p = rest := by
  rw [List.dropWhile_append_of_pos hfront]
  cases rest with
  | nil => rfl
  | cons a more => exact List.dropWhile_cons_of_neg (by simp [hrest a rfl])

/-- A word is taken whole in front of everything that ends it. -/
theorem IsWord.takeWhile_append (h : IsWord word) (hend : WordEnded tail) :
    (word ++ tail).takeWhile isIdentContinue = word := by
  rw [List.takeWhile_append_of_pos h.continues, hend.takeWhile_eq, List.append_nil]

theorem IsWord.dropWhile_append (h : IsWord word) (hend : WordEnded tail) :
    (word ++ tail).dropWhile isIdentContinue = tail :=
  dropWhile_append_of_stays h.continues hend

/-- A word is dropped in front of everything that ends it. -/
theorem IsWord.dropIdent_append (h : IsWord word) (hend : WordEnded tail) :
    dropIdent (word ++ tail) = tail := by
  unfold dropIdent
  split
  · exact h.dropWhile_append hend
  · cases word with
    | nil => rfl
    | cons c more => exact absurd (h.starts c rfl) ‹_›

theorem IsWord.wordBreak_append (h : IsWord word) (hend : WordEnded tail) :
    wordBreak (dropIdent (word ++ tail)) = some tail := by
  rw [h.dropIdent_append hend, wordBreak_eq_some]
  exact ⟨rfl, hend⟩

/-! ### Digits -/

/-- The digits that are dropped are dropped in front of everything that is none. -/
theorem exists_digits (chars : List Char) :
    ∃ digits, chars = digits ++ dropDigits chars ∧
      ∀ tail, DigitsEnded tail → dropDigits (digits ++ tail) = tail := by
  refine ⟨chars.takeWhile fun c => c.isDigit || c == '_', by simp [dropDigits], ?_⟩
  intro tail hend
  have hall : ∀ c ∈ chars.takeWhile fun c => c.isDigit || c == '_', (c.isDigit || c == '_') = true :=
    fun c hc => by simpa using List.mem_takeWhile_imp hc
  exact dropWhile_append_of_stays hall hend

theorem digitsEnded_dropDigits (chars : List Char) : DigitsEnded (dropDigits chars) :=
  stays_of_mem_head?_dropWhile

/-- Behind a word it does not matter for digits what ends the word. -/
theorem DigitsEnded.swap (h : DigitsEnded (word ++ rest)) (hend : WordEnded tail) :
    DigitsEnded (word ++ tail) := by
  cases word with
  | nil => exact digitsEnded_of_wordEnded hend
  | cons c more => exact h

/-! ### Exponents -/

section Exponent

attribute [local simp] readExponent

/-- Without an exponent the reader of exponents gives what it is told to. -/
theorem readExponent_eq_or (fallback : Option (List Char)) (signed valued : Bool)
    (chars : List Char) :
    readExponent fallback signed valued chars =
      (readExponent none signed valued chars).or fallback := by
  induction chars generalizing signed valued with
  | nil => cases valued <;> simp
  | cons c more ih =>
    simp only [readExponent]
    split
    · cases valued <;> cases signed <;> simp [ih true false]
    · split
      · exact ih signed true
      · split
        · exact ih signed valued
        · cases valued <;> simp

/-- An exponent that has digits ends where no digit comes. -/
theorem readExponent_stop {fallback : Option (List Char)} {signed : Bool}
    (h : DigitsEnded chars) : readExponent fallback signed true chars = some chars := by
  cases chars with
  | nil => rfl
  | cons c more =>
    obtain ⟨hdigit, hmark⟩ := Bool.or_eq_false_iff.mp (h c rfl)
    simp [hdigit, hmark]

/-- One step of the reader of exponents: it stops, or it goes on behind the character. -/
theorem readExponent_cons_eq_some {signed valued : Bool} {more found : List Char}
    (h : readExponent none signed valued (c :: more) = some found) :
    (valued = true ∧ DigitsEnded (c :: more) ∧ found = c :: more) ∨
      ∃ signed' valued', readExponent none signed' valued' more = some found ∧
        ∀ other, readExponent none signed valued (c :: other) =
          readExponent none signed' valued' other := by
  by_cases hsign : (c == '+' || c == '-') = true
  · have hdigit : ∀ c, (c == '+' || c == '-') = true → (c.isDigit || c == '_') = false := by
      intro c hc
      rcases Bool.or_eq_true_iff.mp hc with hc | hc <;> rw [eq_of_beq hc] <;> decide
    cases valued with
    | true =>
      simp only [readExponent, hsign, if_true, Option.some.injEq] at h
      exact .inl ⟨rfl, by simpa [DigitsEnded] using hdigit c hsign, h.symm⟩
    | false =>
      cases signed with
      | true => simp [hsign] at h
      | false =>
        simp only [readExponent, hsign, if_true, Bool.false_eq_true, if_false] at h
        exact .inr ⟨true, false, h, fun other => by simp [hsign]⟩
  by_cases hdigit : c.isDigit = true
  · simp only [readExponent, hsign, hdigit, if_true] at h
    exact .inr ⟨signed, true, h, fun other => by simp [hsign, hdigit]⟩
  by_cases hmark : (c == '_') = true
  · simp only [readExponent, hsign, hdigit, hmark, if_true] at h
    exact .inr ⟨signed, valued, h, fun other => by simp [hsign, hdigit, hmark]⟩
  cases valued with
  | false => simp [hsign, hdigit, hmark] at h
  | true =>
    have hfound : c :: more = found := by simpa [hsign, hdigit, hmark] using h
    exact .inl ⟨rfl, by simpa [DigitsEnded, hdigit] using hmark, hfound.symm⟩

/-- An exponent is read from its own characters only. -/
theorem readExponent_append {signed valued : Bool} (hword : IsWord word)
    (h : readExponent none signed valued chars = some (word ++ rest)) :
    ∃ taken, chars = taken ++ (word ++ rest) ∧
      ∀ tail, WordEnded tail →
        readExponent none signed valued (taken ++ (word ++ tail)) = some (word ++ tail) := by
  induction chars generalizing signed valued with
  | nil =>
    cases valued with
    | false => cases h
    | true =>
      obtain ⟨rfl, rfl⟩ := List.append_eq_nil_iff.mp (Option.some.inj h).symm
      exact ⟨[], rfl, fun tail htail => readExponent_stop (digitsEnded_of_wordEnded htail)⟩
  | cons c more ih =>
    rcases readExponent_cons_eq_some h with ⟨rfl, hend, hfound⟩ | ⟨signed', valued', hmore, hstep⟩
    · rw [← hfound] at hend
      exact ⟨[], hfound.symm, fun tail htail => readExponent_stop (hend.swap htail)⟩
    · obtain ⟨taken, rfl, hread⟩ := ih hmore
      exact ⟨c :: taken, rfl, fun tail htail => by
        rw [List.cons_append, hstep, hread tail htail]⟩

/-- In a word an exponent is found or missed whatever ends the word, a sign apart. -/
theorem readExponent_word {signed valued : Bool} {found : List Char}
    (hword : ∀ c ∈ word, isIdentContinue c = true) (hrest : WordEnded rest) (htail : Breaks tail)
    (h : readExponent none signed valued (word ++ tail) = some found) :
    ∃ taken more, word = taken ++ more ∧ found = more ++ tail ∧
      readExponent none signed valued (word ++ rest) = some (more ++ rest) := by
  induction word generalizing signed valued with
  | nil =>
    cases valued with
    | false =>
      cases tail with
      | nil => cases h
      | cons c more =>
        have hall : ∀ c ∈ [' ', ')', ']', '}'], (c == '+' || c == '-') = false ∧
          c.isDigit = false ∧ (c == '_') = false := by decide
        obtain ⟨hsign, hdigit, hmark⟩ := hall c htail
        simp [hsign, hdigit, hmark] at h
    | true =>
      have hstop : readExponent none signed true tail = some tail :=
        readExponent_stop (digitsEnded_of_wordEnded htail.wordEnded)
      rw [List.nil_append, hstop, Option.some.injEq] at h
      exact ⟨[], [], rfl, h.symm, readExponent_stop (digitsEnded_of_wordEnded hrest)⟩
  | cons c more ih =>
    rcases readExponent_cons_eq_some h with ⟨rfl, hend, rfl⟩ | ⟨signed', valued', hmore, hstep⟩
    · exact ⟨[], c :: more, rfl, rfl, readExponent_stop hend⟩
    · obtain ⟨taken, left, rfl, rfl, hread⟩ :=
        ih (fun d hd => hword d (List.mem_cons_of_mem _ hd)) hmore
      exact ⟨c :: taken, left, rfl, rfl, by rw [List.cons_append, hstep, hread]⟩

end Exponent

/-- Reads an exponent with its letter. -/
def exponent? : List Char → Option (List Char)
  | 'e' :: last => readExponent none false false last
  | 'E' :: last => readExponent none false false last
  | _ => none

theorem exponent?_eq_none (hsmall : ∀ last, chars ≠ 'e' :: last)
    (hlarge : ∀ last, chars ≠ 'E' :: last) : exponent? chars = none := by
  unfold exponent?
  split
  · exact absurd rfl (hsmall _)
  · exact absurd rfl (hlarge _)
  · rfl

/-- An exponent with its letter is read from its own characters only. -/
theorem exponent?_append (hword : IsWord word) (h : exponent? chars = some (word ++ rest)) :
    ∃ mark taken, chars = mark :: taken ++ (word ++ rest) ∧
      ∀ tail, WordEnded tail → exponent? (mark :: taken ++ (word ++ tail)) = some (word ++ tail) := by
  unfold exponent? at h
  split at h
  · obtain ⟨taken, rfl, hread⟩ := readExponent_append hword h
    exact ⟨'e', taken, rfl, hread⟩
  · obtain ⟨taken, rfl, hread⟩ := readExponent_append hword h
    exact ⟨'E', taken, rfl, hread⟩
  · cases h

theorem exponent?_of_breaks (h : Breaks tail) : exponent? tail = none := by
  have hall : ∀ c ∈ [' ', ')', ']', '}'], c ≠ 'e' ∧ c ≠ 'E' := by decide
  refine exponent?_eq_none ?_ ?_
  · rintro last rfl
    exact (hall 'e' h).1 rfl
  · rintro last rfl
    exact (hall 'E' h).2 rfl

/-- A word begins with an exponent or does not, whatever ends the word. -/
theorem exponent?_word {found : List Char} (hword : IsWord word) (hrest : WordEnded rest)
    (htail : Breaks tail) (h : exponent? (word ++ tail) = some found) :
    ∃ taken more, word = taken ++ more ∧ found = more ++ tail ∧
      exponent? (word ++ rest) = some (more ++ rest) := by
  cases word with
  | nil =>
    rw [List.nil_append, exponent?_of_breaks htail] at h
    cases h
  | cons c more =>
    have hmore : ∀ d ∈ more, isIdentContinue d = true :=
      fun d hd => hword.continues d (List.mem_cons_of_mem _ hd)
    rw [List.cons_append] at h ⊢
    unfold exponent? at h
    split at h
    · rename_i last heq
      obtain ⟨rfl, rfl⟩ := List.cons.inj heq
      obtain ⟨taken, left, rfl, rfl, hread⟩ := readExponent_word hmore hrest htail h
      exact ⟨'e' :: taken, left, rfl, rfl, hread⟩
    · rename_i last heq
      obtain ⟨rfl, rfl⟩ := List.cons.inj heq
      obtain ⟨taken, left, rfl, rfl, hread⟩ := readExponent_word hmore hrest htail h
      exact ⟨'E' :: taken, left, rfl, rfl, hread⟩
    · cases h

/-! ### Numbers with a decimal point or an exponent -/

/-- Whether what stands behind a decimal point makes it none. -/
def spoilsPoint (after : List Char) : Bool := after.head? == some '.' || startsIdent after

/-- Behind its first digits a number goes on with a decimal point or with an exponent. -/
theorem readFloatDigits_cons (hc : c.isDigit = true) :
    readFloatDigits (c :: chars) =
      match dropDigits chars with
      | '.' :: after =>
        if spoilsPoint after then none
        else (exponent? (dropDigits after)).or (some (dropDigits after))
      | more => exponent? more := by
  rw [readFloatDigits, if_pos hc]
  generalize dropDigits chars = more
  split
  · rename_i after
    change (if spoilsPoint after then none else _) = if spoilsPoint after then none else _
    split
    · rfl
    · generalize dropDigits after = last
      split
      · exact readExponent_eq_or _ _ _ _
      · exact readExponent_eq_or _ _ _ _
      · rename_i hsmall hlarge
        rw [exponent?_eq_none hsmall hlarge]
        rfl
  · rfl
  · rfl
  · rename_i hpoint hsmall hlarge
    split
    · rename_i after
      exact absurd rfl (hpoint after)
    · exact (exponent?_eq_none hsmall hlarge).symm

theorem spoilsPoint_eq_false (h : Breaks tail) : spoilsPoint tail = false := by
  cases tail with
  | nil => rfl
  | cons c more =>
    have hall : ∀ c ∈ [' ', ')', ']', '}'], c ≠ '.' := by decide
    have hstart := isIdentStart_eq_false (h.wordEnded c rfl)
    simp [spoilsPoint, startsIdent, hstart, hall c h]

theorem spoilsPoint_append (h : chars ≠ []) (rest tail : List Char) :
    spoilsPoint (chars ++ tail) = spoilsPoint (chars ++ rest) := by
  cases chars with
  | nil => exact absurd rfl h
  | cons c more => rfl

/-- What follows a decimal point is read from its own characters only, and leaves it one. -/
theorem readFraction_append {after : List Char} (hword : IsWord word) (hrest : WordEnded rest)
    (hpoint : spoilsPoint after = false)
    (h : (exponent? (dropDigits after)).or (some (dropDigits after)) = some (word ++ rest)) :
    ∃ taken, after = taken ++ (word ++ rest) ∧ ∀ tail, Breaks tail →
      spoilsPoint (taken ++ (word ++ tail)) = false ∧
        (exponent? (dropDigits (taken ++ (word ++ tail)))).or
          (some (dropDigits (taken ++ (word ++ tail)))) = some (word ++ tail) := by
  obtain ⟨digits, hafter, hdrop⟩ := exists_digits after
  have hended := digitsEnded_dropDigits after
  cases hexponent : exponent? (dropDigits after) with
  | some found =>
    obtain rfl : found = word ++ rest := by simpa [hexponent] using h
    obtain ⟨mark, taken, heq, hread⟩ := exponent?_append hword hexponent
    rw [heq] at hafter hended
    have hfront : digits ++ mark :: taken ≠ [] := by simp
    refine ⟨digits ++ mark :: taken, by simp [hafter], fun tail htail => ⟨?_, ?_⟩⟩
    · rw [spoilsPoint_append hfront (word ++ rest), ← hpoint, hafter]
      simp
    · have hdigits := hdrop (mark :: taken ++ (word ++ tail)) hended
      rw [List.append_assoc, hdigits, hread tail htail.wordEnded]
      rfl
  | none =>
    have heq : dropDigits after = word ++ rest := by simpa [hexponent] using h
    rw [heq] at hafter hended hexponent
    refine ⟨digits, hafter, fun tail htail => ⟨?_, ?_⟩⟩
    · by_cases hfront : digits ++ word = []
      · obtain ⟨rfl, rfl⟩ := List.append_eq_nil_iff.mp hfront
        exact spoilsPoint_eq_false htail
      · rw [← List.append_assoc, spoilsPoint_append hfront rest, ← hpoint, hafter]
        simp
    · have hmissed : exponent? (word ++ tail) = none := by
        rw [Option.eq_none_iff_forall_ne_some]
        intro found hfound
        obtain ⟨taken, more, -, -, hsource⟩ := exponent?_word hword hrest htail hfound
        simp [hexponent] at hsource
      rw [hdrop _ (hended.swap htail.wordEnded), hmissed]
      rfl

/-- A number with a decimal point or an exponent is read from its own characters only. -/
theorem readFloatDigits_append (hword : IsWord word) (hrest : WordEnded rest)
    (h : readFloatDigits chars = some (word ++ rest)) :
    ∃ taken, chars = taken ++ (word ++ rest) ∧
      ∀ tail, Breaks tail → readFloatDigits (taken ++ (word ++ tail)) = some (word ++ tail) := by
  cases chars with
  | nil => cases h
  | cons c more =>
    by_cases hc : c.isDigit = true
    · rw [readFloatDigits_cons hc] at h
      obtain ⟨digits, hmore, hdrop⟩ := exists_digits more
      have hended := digitsEnded_dropDigits more
      split at h
      · rename_i after hpoint
        split at h
        · cases h
        · rename_i hspoils
          rw [hpoint] at hmore
          obtain ⟨taken, rfl, hread⟩ := readFraction_append hword hrest (by simpa using hspoils) h
          refine ⟨c :: (digits ++ '.' :: taken), by simp [hmore], fun tail htail => ?_⟩
          obtain ⟨hkeeps, hread⟩ := hread tail htail
          have hdigits := hdrop ('.' :: (taken ++ (word ++ tail))) (by simp [DigitsEnded])
          have hnew : c :: (digits ++ '.' :: taken) ++ (word ++ tail) =
              c :: (digits ++ '.' :: (taken ++ (word ++ tail))) := by simp
          rw [hnew, readFloatDigits_cons hc, hdigits]
          change (if spoilsPoint _ then none else _) = _
          rw [hkeeps]
          exact hread
      · rename_i hpoint
        obtain ⟨mark, taken, heq, hread⟩ := exponent?_append hword h
        rw [heq] at hmore hended hpoint
        refine ⟨c :: (digits ++ mark :: taken), by simp [hmore], fun tail htail => ?_⟩
        have hdigits := hdrop (mark :: taken ++ (word ++ tail)) hended
        have hnew : c :: (digits ++ mark :: taken) ++ (word ++ tail) =
            c :: (digits ++ (mark :: taken ++ (word ++ tail))) := by simp
        rw [hnew, readFloatDigits_cons hc, hdigits]
        split
        · rename_i after heq
          obtain ⟨rfl, -⟩ := List.cons.inj heq
          exact absurd rfl (hpoint _)
        · exact hread tail htail.wordEnded
    · simp [readFloatDigits, hc] at h

/-! ### Whole numbers -/

section BaseDigits

attribute [local simp] readBaseDigits

/-- One step of the reader of digits: it stops, or it goes on behind the character. -/
theorem readBaseDigits_cons_eq_some {base : Nat} {seen : Bool} {more found : List Char}
    (h : readBaseDigits base seen (c :: more) = some found) :
    (seen = true ∧ found = c :: more ∧
        ∀ other, readBaseDigits base seen (c :: other) = some (c :: other)) ∨
      ∃ seen', readBaseDigits base seen' more = some found ∧
        ∀ other, readBaseDigits base seen (c :: other) = readBaseDigits base seen' other := by
  simp only [readBaseDigits] at h ⊢
  split at h
  · split at h
    · cases h
    · rename_i hmark hfirst
      exact .inr ⟨seen, h, fun other => by rw [if_pos hmark, if_neg hfirst]⟩
  · rename_i hmark
    simp only [if_neg hmark]
    split at h
    · split at h
      · rename_i hsmall
        exact .inr ⟨true, h, fun other => if_pos hsmall⟩
      · rename_i hlarge
        simp only [if_neg hlarge]
        split at h
        · cases h
        · rename_i hletter
          simp only [if_neg hletter]
          cases seen with
          | false => cases h
          | true => exact .inl ⟨rfl, (Option.some.inj h).symm, fun other => rfl⟩
    · cases seen with
      | false => cases h
      | true => exact .inl ⟨rfl, (Option.some.inj h).symm, fun other => rfl⟩

/-- Digits end where no character of a word comes. -/
theorem readBaseDigits_stop {base : Nat} (h : WordEnded chars) :
    readBaseDigits base true chars = some chars := by
  cases chars with
  | nil => rfl
  | cons c more =>
    have hc := h c rfl
    have hmark : (c == '_') = false :=
      (Bool.or_eq_false_iff.mp (digitsEnded_of_wordEnded h c rfl)).2
    simp [hmark, baseDigit_eq_none hc]

/-- The digits of a base are read from their own characters only. -/
theorem readBaseDigits_append {base : Nat} {seen : Bool} (hrest : WordEnded rest)
    (h : readBaseDigits base seen chars = some (word ++ rest)) :
    ∃ taken, chars = taken ++ (word ++ rest) ∧
      ∀ tail, WordEnded tail →
        readBaseDigits base seen (taken ++ (word ++ tail)) = some (word ++ tail) := by
  induction chars generalizing seen with
  | nil =>
    cases seen with
    | false => cases h
    | true =>
      obtain ⟨rfl, rfl⟩ := List.append_eq_nil_iff.mp (Option.some.inj h).symm
      exact ⟨[], rfl, fun tail htail => readBaseDigits_stop htail⟩
  | cons c more ih =>
    rcases readBaseDigits_cons_eq_some h with ⟨rfl, hfound, hstop⟩ | ⟨seen', hmore, hstep⟩
    · refine ⟨[], hfound.symm, fun tail htail => ?_⟩
      cases word with
      | nil => exact readBaseDigits_stop htail
      | cons d left =>
        obtain ⟨rfl, -⟩ := List.cons.inj hfound
        exact hstop _
    · obtain ⟨taken, rfl, hread⟩ := ih hmore
      exact ⟨c :: taken, rfl, fun tail htail => by
        rw [List.cons_append, hstep, hread tail htail]⟩

/-- Decimal digits are the characters with a value below ten. -/
theorem baseDigit_lt_ten {d : Nat} (h : baseDigit c = some d) : d < 10 ↔ c.isDigit = true := by
  unfold baseDigit at h
  split at h
  · rename_i hdigit
    cases h
    simp only [hdigit, iff_true]
    simp only [Char.isDigit, Bool.and_eq_true, decide_eq_true_eq, ge_iff_le,
      UInt32.le_iff_toNat_le] at hdigit
    have h9 : '9'.val.toNat = 57 := rfl
    have h0 : '0'.toNat = 48 := rfl
    have hc : c.toNat = c.val.toNat := rfl
    omega
  · rename_i hdigit
    simp only [hdigit, Bool.false_eq_true, iff_false]
    split at h
    · cases h
      omega
    · split at h
      · cases h
        omega
      · cases h

/-- Decimal digits that have begun go on as digits and underscores. -/
theorem readBaseDigits_ten (chars : List Char) :
    readBaseDigits 10 true chars = some (dropDigits chars) := by
  induction chars with
  | nil => rfl
  | cons c more ih =>
    by_cases hmark : (c == '_') = true
    · simpa [dropDigits, hmark] using ih
    cases hvalue : baseDigit c with
    | none =>
      have hdigit : c.isDigit = false := by
        rw [← Bool.not_eq_true]
        intro hdigit
        simp [baseDigit, hdigit] at hvalue
      simp [dropDigits, hmark, hvalue, hdigit]
    | some d =>
      have hten := baseDigit_lt_ten hvalue
      by_cases hdigit : c.isDigit = true
      · simpa [dropDigits, hmark, hvalue, hdigit, hten.mpr hdigit] using ih
      · simp [dropDigits, hmark, hvalue, hdigit, hten]

/-- Decimal digits begin with a digit. -/
theorem readBaseDigits_ten_cons :
    readBaseDigits 10 false (c :: chars) = if c.isDigit then some (dropDigits chars) else none := by
  by_cases hmark : (c == '_') = true
  · obtain rfl := eq_of_beq hmark
    rfl
  cases hvalue : baseDigit c with
  | none =>
    have hdigit : c.isDigit = false := by
      rw [← Bool.not_eq_true]
      intro hdigit
      simp [baseDigit, hdigit] at hvalue
    simp [hmark, hvalue, hdigit]
  | some d =>
    have hten := baseDigit_lt_ten hvalue
    by_cases hdigit : c.isDigit = true
    · simp [hmark, hvalue, hdigit, hten.mpr hdigit, readBaseDigits_ten]
    · simp [hmark, hvalue, hdigit, hten]

end BaseDigits

/-- A zero and a letter that marks a base stand in front of the digits. -/
def IsBased (chars : List Char) : Prop :=
  ∃ mark more, mark ∈ ['x', 'o', 'b'] ∧ chars = '0' :: mark :: more

theorem readIntDigits_of_based {mark : Char} (h : mark ∈ ['x', 'o', 'b']) :
    ∃ base, ∀ chars, readIntDigits ('0' :: mark :: chars) = readBaseDigits base false chars := by
  simp only [List.mem_cons, List.not_mem_nil, or_false] at h
  rcases h with rfl | rfl | rfl
  · exact ⟨16, fun _ => rfl⟩
  · exact ⟨8, fun _ => rfl⟩
  · exact ⟨2, fun _ => rfl⟩

theorem readIntDigits_of_not_based (h : ¬IsBased chars) :
    readIntDigits chars = readBaseDigits 10 false chars := by
  unfold readIntDigits
  split
  · exact absurd ⟨'x', _, by simp, rfl⟩ h
  · exact absurd ⟨'o', _, by simp, rfl⟩ h
  · exact absurd ⟨'b', _, by simp, rfl⟩ h
  · rfl

/-- A number with a decimal point or an exponent, and the word that may end it. -/
def readFloat (chars : List Char) : Option (List Char) :=
  (readFloatDigits chars).bind fun rest => wordBreak (dropIdent rest)

/-- A whole number that a mark of its base begins is no other number. -/
theorem readFloat_based {mark : Char} (h : mark ∈ ['x', 'o', 'b']) :
    readFloat ('0' :: mark :: chars) = none := by
  have hnone : readFloatDigits ('0' :: mark :: chars) = none := by
    rw [readFloatDigits_cons (by decide)]
    simp only [List.mem_cons, List.not_mem_nil, or_false] at h
    rcases h with rfl | rfl | rfl <;> simp [dropDigits, exponent?]
  rw [readFloat, hnone]
  rfl

/-- What a word behind digits makes of them: an exponent, or nothing. -/
theorem readFloatDigits_word {digits : List Char} {d : Char} (hc : c.isDigit = true)
    (hd : d ≠ '.') (hdrop : dropDigits (digits ++ d :: chars) = d :: chars) :
    readFloatDigits (c :: (digits ++ d :: chars)) = exponent? (d :: chars) := by
  rw [readFloatDigits_cons hc, hdrop]
  split
  · rename_i heq
    exact absurd (List.cons.inj heq).1 hd
  · rfl

/-- A decimal number that is no other number in its text is none in front of a break. -/
theorem readFloat_decimal {digits : List Char} (hword : IsWord word) (hrest : WordEnded rest)
    (htail : Breaks tail) (hc : c.isDigit = true) (hended : DigitsEnded (word ++ rest))
    (hdrop : ∀ tail, DigitsEnded tail → dropDigits (digits ++ tail) = tail)
    (hfloat : readFloat (c :: (digits ++ (word ++ rest))) = none) :
    readFloat (c :: (digits ++ (word ++ tail))) = none := by
  have hnew := hdrop _ (hended.swap htail.wordEnded)
  cases word with
  | nil =>
    have hnone : readFloatDigits (c :: (digits ++ tail)) = none := by
      rw [readFloatDigits_cons hc, show dropDigits (digits ++ tail) = tail from hnew]
      split
      · have hdot : ∀ c ∈ [' ', ')', ']', '}'], c ≠ '.' := by decide
        exact absurd rfl (hdot _ htail)
      · exact exponent?_of_breaks htail
    rw [List.nil_append, readFloat, hnone]
    rfl
  | cons d left =>
    have hdot : d ≠ '.' := by
      rintro rfl
      exact absurd (hword.starts _ rfl) (by decide)
    have hold : dropDigits (digits ++ d :: (left ++ rest)) = d :: (left ++ rest) := hdrop _ hended
    have hnew : dropDigits (digits ++ d :: (left ++ tail)) = d :: (left ++ tail) := hnew
    rw [readFloat, List.cons_append, readFloatDigits_word hc hdot hold] at hfloat
    rw [readFloat, List.cons_append, readFloatDigits_word hc hdot hnew]
    cases hfound : exponent? (d :: (left ++ tail)) with
    | none => rfl
    | some found =>
      obtain ⟨taken, more, hsplit, rfl, hsource⟩ := exponent?_word hword hrest htail hfound
      rw [List.cons_append] at hsource
      rw [hsource, Option.bind_some] at hfloat
      rw [Option.bind_some]
      have hcontinues : ∀ c ∈ more, isIdentContinue c = true :=
        fun c hc => hword.continues c (hsplit ▸ List.mem_append_right _ hc)
      by_cases hstarts : ∀ c ∈ more.head?, isIdentStart c = true
      · have hmore : IsWord more := ⟨hstarts, hcontinues⟩
        rw [hmore.wordBreak_append hrest] at hfloat
        cases hfloat
      · cases more with
        | nil => simp at hstarts
        | cons e last =>
          have hstart : startsIdent (e :: (last ++ tail)) = false := by
            simpa [startsIdent] using hstarts
          have hcontinue := hcontinues e List.mem_cons_self
          simp [dropIdent, hstart, wordBreak, hcontinue]

/-! ### All numbers -/

theorem readNumber_eq (chars : List Char) :
    readNumber chars =
      (readFloat chars).or ((readIntDigits chars).bind fun rest => wordBreak (dropIdent rest)) := by
  unfold readNumber readFloat
  cases (readFloatDigits chars).bind fun rest => wordBreak (dropIdent rest) <;> rfl

/-- A number with a decimal point or an exponent can be cut out. -/
theorem readFloat_append (h : readFloat chars = some rest) :
    ∃ taken, chars = taken ++ rest ∧
      ∀ tail, Breaks tail → readFloat (taken ++ tail) = some tail := by
  obtain ⟨after, hdigits, hbreak⟩ := Option.bind_eq_some_iff.mp h
  obtain ⟨word, hword, rfl, hrest⟩ := exists_word hbreak
  obtain ⟨taken, rfl, hread⟩ := readFloatDigits_append hword hrest hdigits
  refine ⟨taken ++ word, by simp, fun tail htail => ?_⟩
  rw [readFloat, List.append_assoc, hread tail htail, Option.bind_some,
    hword.wordBreak_append htail.wordEnded]

/-- A number is read from its own characters only, in front of everything that breaks it off. -/
theorem readNumber_append (h : readNumber chars = some rest) :
    ∃ taken, chars = taken ++ rest ∧
      ∀ tail, Breaks tail → readNumber (taken ++ tail) = some tail := by
  rw [readNumber_eq] at h
  cases hfloat : readFloat chars with
  | some found =>
    obtain rfl : found = rest := by simpa [hfloat] using h
    obtain ⟨taken, rfl, hread⟩ := readFloat_append hfloat
    exact ⟨taken, rfl, fun tail htail => by rw [readNumber_eq, hread tail htail]; rfl⟩
  | none =>
    rw [hfloat, Option.none_or] at h
    obtain ⟨after, hdigits, hbreak⟩ := Option.bind_eq_some_iff.mp h
    obtain ⟨word, hword, rfl, hrest⟩ := exists_word hbreak
    by_cases hbased : IsBased chars
    · obtain ⟨mark, more, hmark, rfl⟩ := hbased
      obtain ⟨base, hbase⟩ := readIntDigits_of_based hmark
      rw [hbase] at hdigits
      obtain ⟨taken, rfl, hread⟩ := readBaseDigits_append hrest hdigits
      refine ⟨'0' :: mark :: (taken ++ word), by simp, fun tail htail => ?_⟩
      have hnew : '0' :: mark :: (taken ++ word) ++ tail =
        '0' :: mark :: (taken ++ (word ++ tail)) := by simp
      rw [readNumber_eq, hnew, readFloat_based hmark, Option.none_or, hbase,
        hread tail htail.wordEnded, Option.bind_some, hword.wordBreak_append htail.wordEnded]
    · rw [readIntDigits_of_not_based hbased] at hdigits
      cases chars with
      | nil => cases hdigits
      | cons c more =>
        obtain ⟨hc, hafter⟩ : c.isDigit = true ∧ dropDigits more = word ++ rest := by
          simpa [readBaseDigits_ten_cons] using hdigits
        obtain ⟨digits, hmore, hdrop⟩ := exists_digits more
        have hended := digitsEnded_dropDigits more
        rw [hafter] at hmore hended
        subst hmore
        refine ⟨c :: (digits ++ word), by simp, fun tail htail => ?_⟩
        have hnew : c :: (digits ++ word) ++ tail = c :: (digits ++ (word ++ tail)) := by simp
        have hswap := hended.swap htail.wordEnded
        have hstill : ¬IsBased (c :: (digits ++ (word ++ tail))) := by
          rintro ⟨mark, other, hmark, heq⟩
          obtain ⟨rfl, hmore⟩ := List.cons.inj heq
          have hletter : ∀ mark ∈ ['x', 'o', 'b'], (mark.isDigit || mark == '_') = false ∧
            mark ∉ [' ', ')', ']', '}'] := by decide
          obtain ⟨hnot, hjoins⟩ := hletter mark hmark
          cases digits with
          | cons d ds =>
            obtain ⟨rfl, -⟩ := List.cons.inj hmore
            have hall := List.dropWhile_eq_nil_iff.mp (hdrop [] (by simp [DigitsEnded]))
            rw [hall d (by simp)] at hnot
            cases hnot
          | nil =>
            cases word with
            | nil =>
              obtain rfl : tail = mark :: other := hmore
              exact hjoins htail
            | cons d left =>
              obtain ⟨rfl, -⟩ := List.cons.inj hmore
              exact hbased ⟨d, _, hmark, rfl⟩
        rw [readNumber_eq, hnew, readFloat_decimal hword hrest htail hc hended hdrop hfloat,
          Option.none_or, readIntDigits_of_not_based hstill, readBaseDigits_ten_cons, if_pos hc,
          hdrop _ hswap, Option.bind_some, hword.wordBreak_append htail.wordEnded]

/-- Digits alone are a number. -/
theorem readNumber_digits (hne : chars ≠ []) (h : ∀ c ∈ chars, c.isDigit = true) :
    readNumber chars = some [] := by
  cases chars with
  | nil => exact absurd rfl hne
  | cons c more =>
    have hc := h c List.mem_cons_self
    have hdrop : dropDigits more = [] :=
      List.dropWhile_eq_nil_iff.mpr fun d hd => by simp [h d (List.mem_cons_of_mem _ hd)]
    have hbased : ¬IsBased (c :: more) := by
      rintro ⟨mark, other, hmark, heq⟩
      have hletter : ∀ mark ∈ ['x', 'o', 'b'], mark.isDigit = false := by decide
      have hdigit := h mark (by simp [heq])
      rw [hletter mark hmark] at hdigit
      cases hdigit
    have hfloat : readFloat (c :: more) = none := by
      rw [readFloat, readFloatDigits_cons hc, hdrop]
      rfl
    rw [readNumber_eq, hfloat, readIntDigits_of_not_based hbased, readBaseDigits_ten_cons,
      if_pos hc, hdrop]
    rfl

/-- A number begins with a digit. -/
theorem isDigit_of_readNumber (h : readNumber (c :: chars) = some rest) : c.isDigit = true := by
  rw [← Bool.not_eq_false]
  intro hc
  have hfloat : readFloat (c :: chars) = none := by simp [readFloat, readFloatDigits, hc]
  have hbased : ¬IsBased (c :: chars) := by
    rintro ⟨mark, other, -, heq⟩
    obtain ⟨rfl, -⟩ := List.cons.inj heq
    cases hc
  rw [readNumber_eq, hfloat, readIntDigits_of_not_based hbased, readBaseDigits_ten_cons] at h
  simp [hc] at h

end KeyedModel.Token
