import KeyedModel.Descriptor
import KeyedModel.Text.Identifier

/-!
# Descriptors and failures are told apart by their texts

Nothing in these texts is quoted, and a key may be any text, also one that repeats the end of another
descriptor. But a name is an identifier, and so is a schema, and identifiers contain neither a space
nor a backquote. So the first space of a descriptor's text ends the name, and the second backquote
of a failure's text ends the schema; what is left is the key and an ending that never varies.
-/

namespace KeyedModel

namespace Text

/-- An identifier consists of continue characters, apart from the hash sign of a raw mark. -/
theorem mem_of_isIdentifier {name : String} {c : Char} (h : isIdentifier name = true)
    (hc : c ∈ name.toList) : isIdentContinue c = true ∨ c = '#' := by
  have hplain {chars : List Char} (h : isPlainIdent chars = true) (hc : c ∈ chars) :
      isIdentContinue c = true := by
    cases chars with
    | nil => cases hc
    | cons first rest =>
      obtain ⟨hfirst, hrest⟩ := Bool.and_eq_true_iff.mp h
      rcases List.mem_cons.mp hc with rfl | hc
      · exact isIdentContinue_of_isIdentStart hfirst
      · exact List.all_eq_true.mp hrest c hc
  unfold isIdentifier at h
  split at h
  · rename_i rest hchars
    rw [hchars] at hc
    rcases List.mem_cons.mp hc with rfl | hc
    · exact .inl (by decide)
    rcases List.mem_cons.mp hc with rfl | hc
    · exact .inr rfl
    · exact .inl (hplain (Bool.and_eq_true_iff.mp h).1 hc)
  · exact .inl (hplain h hc)

/-- Neither a space nor a backquote is part of an identifier. -/
theorem not_mem_of_isIdentifier {name : String} {c : Char} (h : isIdentifier name = true)
    (hc : c ∈ [' ', '`']) : c ∉ name.toList := by
  have hspace : isIdentContinue ' ' = false ∧ ' ' ≠ '#' := by decide
  have hquote : isIdentContinue '`' = false ∧ '`' ≠ '#' := by decide
  obtain ⟨hcontinue, hhash⟩ : isIdentContinue c = false ∧ c ≠ '#' := by
    rcases List.mem_cons.mp hc with rfl | hc
    · exact hspace
    · rwa [List.mem_singleton.mp hc]
  intro hmem
  rcases mem_of_isIdentifier h hmem with htrue | rfl
  · rw [hcontinue] at htrue
    cases htrue
  · exact hhash rfl

/-- The first occurrence of a character tells what stands in front of it and what behind. -/
theorem append_cons_inj {c : Char} {front front' back back' : List Char} (h : c ∉ front)
    (h' : c ∉ front') (heq : front ++ c :: back = front' ++ c :: back') :
    front = front' ∧ back = back' := by
  induction front generalizing front' with
  | nil =>
    cases front' with
    | nil => exact ⟨rfl, (List.cons.inj heq).2⟩
    | cons d more => exact absurd ((List.cons.inj heq).1 ▸ List.mem_cons_self) h'
  | cons d more ih =>
    cases front' with
    | nil => exact absurd ((List.cons.inj heq).1 ▸ List.mem_cons_self) h
    | cons e others =>
      obtain ⟨rfl, hrest⟩ := List.cons.inj heq
      obtain ⟨rfl, rfl⟩ := ih (List.not_mem_of_not_mem_cons h) (List.not_mem_of_not_mem_cons h') hrest
      exact ⟨rfl, rfl⟩

end Text

open Text (isIdentifier not_mem_of_isIdentifier append_cons_inj)

namespace Descriptor

variable {d e : Descriptor}

/-- The text of a descriptor whose key is not the name. -/
theorem display_of_not_isVerbatim (h : d.isVerbatim = false) :
    d.display.toList = d.name.toList ++ ' ' :: '(' :: (d.key.toList ++ [')']) := by
  simp [display, h]

theorem display_of_isVerbatim (h : d.isVerbatim = true) : d.display = d.name := by
  simp [display, h]

/-- A descriptor whose key is the name has no space in its text, another one has. -/
theorem space_mem_display (hd : isIdentifier d.name = true) :
    ' ' ∈ d.display.toList ↔ d.isVerbatim = false := by
  cases h : d.isVerbatim with
  | true => simpa [display_of_isVerbatim h] using not_mem_of_isIdentifier hd (by decide)
  | false => simp [display_of_not_isVerbatim h]

/-- The text of a descriptor with an identifier as name tells the descriptor. -/
theorem eq_of_display_eq (hd : isIdentifier d.name = true) (he : isIdentifier e.name = true)
    (h : d.display = e.display) : d = e := by
  have hverbatim : d.isVerbatim = false ↔ e.isVerbatim = false := by
    rw [← space_mem_display hd, ← space_mem_display he, h]
  obtain ⟨hname, hkey⟩ : d.name = e.name ∧ d.key = e.key := by
    cases hdv : d.isVerbatim with
    | true =>
      have hev : e.isVerbatim = true := by simpa [hdv] using hverbatim
      rw [display_of_isVerbatim hdv, display_of_isVerbatim hev] at h
      exact ⟨h, (eq_of_beq hdv).symm.trans (h.trans (eq_of_beq hev))⟩
    | false =>
      have hchars := congrArg String.toList h
      rw [display_of_not_isVerbatim hdv, display_of_not_isVerbatim (hverbatim.mp hdv)] at hchars
      obtain ⟨hname, hbehind⟩ := append_cons_inj (not_mem_of_isIdentifier hd (by decide))
        (not_mem_of_isIdentifier he (by decide)) hchars
      have hkey := List.append_cancel_right (List.cons.inj hbehind).2
      exact ⟨String.toList_inj.mp hname, String.toList_inj.mp hkey⟩
  cases d
  cases e
  rw [mk.injEq]
  exact ⟨hname, hkey⟩

end Descriptor

namespace UnknownKey

variable {e f : UnknownKey}

/-- The message of a failure, cut at the backquote behind the schema. -/
theorem message_toList (e : UnknownKey) :
    e.message.toList = "model `".toList ++ (e.schema.toList ++
      '`' :: (" has no field with key `".toList ++ (e.key.toList ++ ['`']))) := by
  simp [message]

/-- The message of a failure with an identifier as schema tells the failure. -/
theorem eq_of_message_eq (he : isIdentifier e.schema = true) (hf : isIdentifier f.schema = true)
    (h : e.message = f.message) : e = f := by
  have hchars := congrArg String.toList h
  rw [message_toList, message_toList] at hchars
  obtain ⟨hschema, hbehind⟩ := append_cons_inj (not_mem_of_isIdentifier he (by decide))
    (not_mem_of_isIdentifier hf (by decide)) (List.append_cancel_left hchars)
  have hkey := List.append_cancel_right (List.append_cancel_left hbehind)
  cases e
  cases f
  rw [mk.injEq]
  exact ⟨String.toList_inj.mp hschema, String.toList_inj.mp hkey⟩

end UnknownKey

/-- What a user reads is unambiguous: two descriptors whose names are identifiers have the same text
only if they are the same, and so do two failures whose schemas are identifiers, whatever the keys
are. -/
theorem texts_unambiguous :
    (∀ d e : Descriptor, isIdentifier d.name = true → isIdentifier e.name = true →
      (d.display = e.display ↔ d = e)) ∧
    ∀ e f : UnknownKey, isIdentifier e.schema = true → isIdentifier f.schema = true →
      (e.message = f.message ↔ e = f) :=
  ⟨fun _ _ hd he => ⟨Descriptor.eq_of_display_eq hd he, fun h => h ▸ rfl⟩,
    fun _ _ he hf => ⟨UnknownKey.eq_of_message_eq he hf, fun h => h ▸ rfl⟩⟩

/-- A key that is the text of another descriptor, and a key that repeats the end of a message behind
a schema. -/
theorem texts_unambiguous_imitation :
    (isIdentifier "a" = true ∧ isIdentifier "r#type" = true ∧
      ((Descriptor.mk "a" "a (b)").display = (Descriptor.mk "r#type" "b").display ↔
        Descriptor.mk "a" "a (b)" = Descriptor.mk "r#type" "b")) ∧
    (isIdentifier "A" = true ∧ isIdentifier "B" = true ∧
      ((UnknownKey.mk "A" "` has no field with key `").message = (UnknownKey.mk "B" "").message ↔
        UnknownKey.mk "A" "` has no field with key `" = UnknownKey.mk "B" "")) :=
  ⟨⟨by decide, by decide, texts_unambiguous.1 _ _ (by decide) (by decide)⟩,
    by decide, by decide, texts_unambiguous.2 _ _ (by decide) (by decide)⟩

end KeyedModel
