import KeyedModel.Text.Quoted
import KeyedModel.Token.Literal
import Mathlib.Data.Nat.Digits.Defs

/-!
# Quoted text is read back

Reading a quoted literal stops behind its closing quote and looks at nothing further, so a literal
can be cut out of its text. What is written as a string literal denotes the text it was made of:
every escape is read back as the one character that it stands for, whatever follows.
-/

namespace KeyedModel

open Text (escapeChar escapeLiteral hexEscape needsHex quoteLiteral)

namespace Token

/-! ### A literal ends at its closing quote -/

/-- A literal with escapes is read from its own characters only. -/
theorem readQuoted_append {kind : QuoteKind} {state : QuoteState} {chars value rest : List Char}
    (h : readQuoted kind state chars = some (value, rest)) :
    ∃ taken, chars = taken ++ rest ∧
      ∀ tail, readQuoted kind state (taken ++ tail) = some (value, tail) := by
  induction chars generalizing state value with
  | nil => cases h
  | cons c more ih =>
    rw [readQuoted] at h
    split at h
    · rename_i hend
      cases h
      refine ⟨[c], rfl, fun tail => ?_⟩
      rw [List.singleton_append, readQuoted, if_pos hend]
    · rename_i hend
      split at h
      · cases h
      · rename_i next denoted hstep
        obtain ⟨⟨found, after⟩, hread, heq⟩ := Option.map_eq_some_iff.mp h
        obtain ⟨rfl, rfl⟩ := Prod.mk.inj heq
        obtain ⟨taken, rfl, hmore⟩ := ih hread
        refine ⟨c :: taken, rfl, fun tail => ?_⟩
        rw [List.cons_append, readQuoted, if_neg hend]
        simp only [hstep, hmore, Option.map_some]

/-- Hash signs that are dropped are all that was looked at. -/
theorem dropHashes_append {n : Nat} {chars rest : List Char} (h : dropHashes n chars = some rest) :
    ∃ taken, chars = taken ++ rest ∧ ∀ tail, dropHashes n (taken ++ tail) = some tail := by
  fun_induction dropHashes n chars with
  | case1 chars =>
    cases h
    exact ⟨[], rfl, fun _ => rfl⟩
  | case2 n more ih =>
    obtain ⟨taken, rfl, htail⟩ := ih h
    exact ⟨'#' :: taken, rfl, htail⟩
  | case3 => cases h

/-- Whether there are enough hash signs is decided in front of the next double quote. -/
theorem dropHashes_eq_none {n : Nat} {taken tail other : List Char}
    (h : dropHashes n (taken ++ '"' :: tail) = none) :
    dropHashes n (taken ++ '"' :: other) = none := by
  induction taken generalizing n with
  | nil =>
    cases n with
    | zero => cases h
    | succ n => rfl
  | cons c more ih =>
    cases n with
    | zero => cases h
    | succ n =>
      by_cases hc : c = '#'
      · subst hc
        exact ih h
      · rw [List.cons_append, dropHashes]
        intro rest heq
        exact hc (List.cons.inj heq).1

/-- Whether a raw literal admits a character depends on the next one at most. -/
theorem rawAdmits_append {kind : QuoteKind} {c : Char} {taken : List Char} (h : taken ≠ [])
    (tail other : List Char) :
    rawAdmits kind c (taken ++ tail) = rawAdmits kind c (taken ++ other) := by
  cases taken with
  | nil => exact absurd rfl h
  | cons d more => rfl

/-- A raw literal is read from its own characters only. -/
theorem readRaw_append {kind : QuoteKind} {hashes : Nat} {chars value rest : List Char}
    (h : readRaw kind hashes chars = some (value, rest)) :
    ∃ taken, chars = taken ++ rest ∧ '"' ∈ taken ∧
      ∀ tail, readRaw kind hashes (taken ++ tail) = some (value, tail) := by
  induction chars generalizing value with
  | nil => cases h
  | cons c more ih =>
    rw [readRaw] at h
    split at h
    · rename_i after hclose
      cases h
      split at hclose
      · rename_i hquote
        obtain rfl : c = '"' := by simpa using hquote
        obtain ⟨taken, rfl, htail⟩ := dropHashes_append hclose
        refine ⟨'"' :: taken, rfl, List.mem_cons_self, fun tail => ?_⟩
        rw [List.cons_append, readRaw]
        simp [htail]
      · cases hclose
    · rename_i hopen
      split at h
      · rename_i hadmits
        obtain ⟨⟨found, after⟩, hread, heq⟩ := Option.map_eq_some_iff.mp h
        obtain ⟨rfl, rfl⟩ := Prod.mk.inj heq
        obtain ⟨taken, rfl, hquote, htail⟩ := ih hread
        refine ⟨c :: taken, rfl, List.mem_cons_of_mem _ hquote, fun tail => ?_⟩
        obtain ⟨front, back, rfl⟩ := List.append_of_mem hquote
        have hstill : (if c == '"' then dropHashes hashes (front ++ '"' :: back ++ tail) else none) =
            none := by
          split at hopen
          · rename_i hc
            rw [if_pos hc]
            rw [List.append_assoc, List.cons_append] at hopen ⊢
            exact dropHashes_eq_none hopen
          · rename_i hc
            rw [if_neg hc]
        have hne : front ++ '"' :: back ≠ [] := by simp
        rw [List.cons_append, readRaw, hstill]
        simp only [rawAdmits_append hne tail after, hadmits, if_true, htail, Option.map_some]
      · cases h

/-- The opening of a raw literal is read from its own characters only. -/
theorem rawOpening_append {count hashes : Nat} {chars rest : List Char}
    (h : rawOpening count chars = some (hashes, rest)) :
    ∃ taken, chars = taken ++ rest ∧ ∀ tail, rawOpening count (taken ++ tail) = some (hashes, tail) := by
  fun_induction rawOpening count chars with
  | case1 count more hle =>
    cases h
    exact ⟨['"'], rfl, fun tail => if_pos hle⟩
  | case2 => cases h
  | case3 count more ih =>
    obtain ⟨taken, rfl, htail⟩ := ih h
    exact ⟨'#' :: taken, rfl, htail⟩
  | case4 => cases h

/-- A raw literal with its opening is read from its own characters only. -/
theorem readRawQuoted_append {kind : QuoteKind} {chars value rest : List Char}
    (h : readRawQuoted kind chars = some (value, rest)) :
    ∃ taken, chars = taken ++ rest ∧
      ∀ tail, readRawQuoted kind (taken ++ tail) = some (value, tail) := by
  unfold readRawQuoted at h
  split at h
  · rename_i hashes after hopen
    obtain ⟨opening, rfl, hopening⟩ := rawOpening_append hopen
    obtain ⟨inner, rfl, -, hinner⟩ := readRaw_append h
    refine ⟨opening ++ inner, by simp, fun tail => ?_⟩
    simp [readRawQuoted, hopening, hinner]
  · cases h

/-! ### Escapes are read back -/

attribute [local simp] QuoteState.mayEnd QuoteState.step QuoteState.plainStep QuoteState.scalarStep

/-- A character that does not end the literal is read by one step of the machine. -/
theorem readQuoted_cons {kind : QuoteKind} {state next : QuoteState} {c : Char}
    {denoted : List Char} (hend : (c == '"' && state.mayEnd) = false)
    (hstep : state.step kind c = some (next, denoted)) (rest : List Char) :
    readQuoted kind state (c :: rest) =
      (readQuoted kind next rest).map fun r => (denoted ++ r.1, r.2) := by
  rw [readQuoted, hend]
  simp only [Bool.false_eq_true, if_false, hstep]

/-- A step that denotes nothing only changes the state. -/
theorem readQuoted_cons_nil {kind : QuoteKind} {state next : QuoteState} {c : Char}
    (hend : (c == '"' && state.mayEnd) = false) (hstep : state.step kind c = some (next, []))
    (rest : List Char) :
    readQuoted kind state (c :: rest) = readQuoted kind next rest := by
  rw [readQuoted_cons hend hstep]
  cases readQuoted kind next rest <;> rfl

/-- A hexadecimal digit has its value. -/
theorem hexValue_digitChar {d : Nat} (h : d < 16) : hexValue d.digitChar = some d := by
  have hall : ∀ d, d < 16 → hexValue d.digitChar = some d := by decide
  exact hall d h

/-- A digit within braces is added to the value. -/
theorem readQuoted_scalar_cons {digits value d : Nat} (hd : d < 16) (hdigits : digits < 6)
    (rest : List Char) :
    readQuoted .text (.scalar digits value) (d.digitChar :: rest) =
      readQuoted .text (.scalar (digits + 1) (16 * value + d)) rest := by
  have hne : (digits == 6) = false := by
    simp only [beq_eq_false_iff_ne]
    omega
  refine readQuoted_cons_nil (by simp) ?_ rest
  simp [hexValue_digitChar hd, hne]

/-- The digits of a number within braces are read as that number. -/
theorem readQuoted_toDigits {n : Nat} (h : (Nat.toDigits 16 n).length ≤ 6) (rest : List Char) :
    readQuoted .text (.scalar 0 0) (Nat.toDigits 16 n ++ rest) =
      readQuoted .text (.scalar (Nat.toDigits 16 n).length n) rest := by
  induction n using Nat.strongRecOn generalizing rest with
  | ind n ih =>
    by_cases hn : n < 16
    · rw [Nat.toDigits_of_lt_base hn, List.singleton_append,
        readQuoted_scalar_cons hn (by omega)]
      simp
    · have hdigits := Nat.toDigits_of_base_le (by decide : 1 < 16) (Nat.le_of_not_lt hn)
      have hlength : (Nat.toDigits 16 (n / 16)).length < 6 := by
        rw [hdigits, List.length_append, List.length_singleton] at h
        omega
      have hvalue : 16 * (n / 16) + n % 16 = n := by omega
      rw [hdigits, List.append_assoc, ih (n / 16) (by omega) (by omega), List.singleton_append,
        readQuoted_scalar_cons (by omega) hlength, hvalue, List.length_append]
      rfl

/-- The scalar value of a character denotes it. -/
theorem charOfScalar_toNat (c : Char) : charOfScalar c.toNat = some c := by
  rw [charOfScalar, if_pos (show c.toNat.isValidChar from c.valid), Char.ofNat_toNat]

/-- A character that is spelled by its scalar value is read back. -/
theorem readQuoted_hexEscape (c : Char) (rest : List Char) :
    readQuoted .text .plain (hexEscape c ++ rest) =
      (readQuoted .text .plain rest).map fun r => (c :: r.1, r.2) := by
  have hsmall : c.toNat < 16 ^ 6 := by
    have hvalid : c.toNat.isValidChar := c.valid
    unfold Nat.isValidChar at hvalid
    omega
  have hlength := (Nat.length_toDigits_le_iff (by decide : 1 < 16) (by decide)).mpr hsmall
  have hsome : ((Nat.toDigits 16 c.toNat).length == 0) = false := by
    have hpos : 0 < (Nat.toDigits 16 c.toNat).length := Nat.length_toDigits_pos
    simp only [beq_eq_false_iff_ne]
    omega
  have hclose : QuoteState.step .text (.scalar (Nat.toDigits 16 c.toNat).length c.toNat) '}' =
      some (.plain, [c]) := by
    have hbrace : hexValue '}' = none := rfl
    simp [hbrace, hsome, charOfScalar_toNat]
  simp only [hexEscape, List.cons_append, List.append_assoc, List.nil_append]
  rw [readQuoted_cons_nil rfl rfl,
    readQuoted_cons_nil rfl rfl,
    readQuoted_cons_nil rfl rfl, readQuoted_toDigits hlength,
    readQuoted_cons rfl hclose]
  rfl

/-- A one-letter escape is read back as the character that it denotes. -/
theorem readQuoted_shortEscape {c letter : Char}
    (h : QuoteState.step .text .escape letter = some (.plain, [c])) (rest : List Char) :
    readQuoted .text .plain ('\\' :: letter :: rest) =
      (readQuoted .text .plain rest).map fun r => (c :: r.1, r.2) := by
  rw [readQuoted_cons_nil rfl rfl,
    readQuoted_cons (by simp) h]
  rfl

/-- A character of a string literal is read back. -/
theorem readQuoted_escapeChar (c : Char) (rest : List Char) :
    readQuoted .text .plain (escapeChar c ++ rest) =
      (readQuoted .text .plain rest).map fun r => (c :: r.1, r.2) := by
  by_cases htab : c = '\t'
  · subst htab
    exact readQuoted_shortEscape rfl rest
  by_cases hreturn : c = '\r'
  · subst hreturn
    exact readQuoted_shortEscape rfl rest
  by_cases hfeed : c = '\n'
  · subst hfeed
    exact readQuoted_shortEscape rfl rest
  by_cases hslash : c = '\\'
  · subst hslash
    exact readQuoted_shortEscape rfl rest
  by_cases hquote : c = '"'
  · subst hquote
    exact readQuoted_shortEscape rfl rest
  by_cases hhex : needsHex c = true
  · have hescape : escapeChar c = hexEscape c := by
      simp [escapeChar, htab, hreturn, hfeed, hslash, hquote, hhex]
    rw [hescape, readQuoted_hexEscape]
  · have hplain : escapeChar c = [c] := by
      simp [escapeChar, htab, hreturn, hfeed, hslash, hquote, hhex]
    have hstep : QuoteState.step .text .plain c = some (.plain, [c]) := by
      simp [hslash, hreturn]
    rw [hplain, List.singleton_append, readQuoted_cons (by simp [hquote]) hstep]
    rfl

/-- The null character is read back in both of its spellings. -/
theorem readQuoted_null (octal : Bool) (rest : List Char) :
    readQuoted .text .plain
        ((if octal then ['\\', 'x', '0', '0'] else ['\\', '0']) ++ rest) =
      (readQuoted .text .plain rest).map fun r => ('\x00' :: r.1, r.2) := by
  cases octal with
  | false => exact readQuoted_shortEscape rfl rest
  | true =>
    simp only [if_true, List.cons_append, List.nil_append]
    rw [readQuoted_cons_nil rfl rfl,
      readQuoted_cons_nil rfl rfl,
      readQuoted_cons_nil rfl rfl,
      readQuoted_cons rfl rfl]
    rfl

/-- The inside of a string literal is read back up to the closing quote. -/
theorem readQuoted_escapeLiteral (chars rest : List Char) :
    readQuoted .text .plain (escapeLiteral chars ++ '"' :: rest) = some (chars, rest) := by
  induction chars with
  | nil => rfl
  | cons c more ih =>
    rw [escapeLiteral, List.append_assoc]
    by_cases hnull : c = '\x00'
    · subst hnull
      simp only [beq_self_eq_true, if_true]
      rw [readQuoted_null (Text.startsOctal more), ih]
      rfl
    · simp only [beq_iff_eq, hnull, if_false]
      rw [readQuoted_escapeChar, ih]
      rfl

/-- What is written as a string literal denotes the text it was made of. -/
@[simp] theorem textValue?_quoteLiteral (text : String) :
    textValue? (quoteLiteral text) = some text := by
  simp [textValue?, quoteLiteral, readQuoted_escapeLiteral]

end Token

end KeyedModel
