import KeyedModel.Generated.Assembly
import KeyedModel.Proofs.Grammar.Visibilities

/-!
# Reading a new field

A new field is documented, has a visibility that was read before, and then a word, a colon and a
type. It is read as the field that it was put together as, unless the word is a keyword. Then no name
is found, and what comes is no type: a keyword either begins none, or is a type by itself in front of
the colon.
-/

namespace KeyedModel.Grammar

open Token (Tree Place sign)
open Text (isKeyword)
open Generated (documentation textType identityType)

variable {meaning : Meaning} {closing place : Place} {trees type : List Tree} {w : String}

namespace Rule

/-- The documentation of a field is all that is read as its attributes. -/
theorem run_attributes (text : String) :
    attributes.run meaning closing (documentation (Token.literal text) ++ .ident w place :: trees) =
      .ok ⟨(), documentation (Token.literal text), .ident w place :: trees, none⟩ := rfl

/-! ### Keywords in front of a colon -/

/-- The words that a type may begin with. -/
def typeWords : List String :=
  ["for", "fn", "unsafe", "extern", "super", "self", "Self", "crate", "dyn", "impl", "_"]

/-- A terminal that does not come is not taken. -/
theorem run_accept_bind {α : Type} {t : Terminal} (h : t.match? trees = none) (f : Bool → Rule α) :
    (accept t >>= f).run meaning closing trees = (f false).run meaning closing trees := by
  refine run_bind_of_silent ?_ f
  rw [run_accept, h]

/-- No type begins with another keyword. -/
theorem run_type_keyword {plus : Bool} {reply : Reply Shape} (hkeyword : isKeyword w = true)
    (hw : w ∉ typeWords) :
    (Rule.type plus).run meaning closing (.ident w place :: trees) ≠ .ok reply := by
  simp only [typeWords, List.mem_cons, not_or] at hw
  have hexpecting : (expecting typeHeads).run meaning closing (.ident w place :: trees) ≠ .ok reply :=
    fun h => (returns_expecting (p := fun _ => False) _).out h
  unfold Rule.type
  simpa [Sight.sees, Terminal.match?, hw, hkeyword, pathWords, acceptOp, acceptWord, run_accept_bind,
    matchOp] using hexpecting

/-- The other keywords begin no type in front of a colon either, or are one without it. -/
theorem rest_of_run_type_typeWord {reply : Reply Shape} (hw : w ∈ typeWords)
    (h : (Rule.type true).run meaning closing (.ident w place :: sign ':' :: textType) = .ok reply) :
    reply.rest ≠ [] := by
  have hrest : ((Rule.type true).run meaning closing
      (.ident w place :: sign ':' :: textType)).toOption.all (!·.rest.isEmpty) = true := by
    simp only [typeWords, List.mem_cons, List.not_mem_nil, or_false] at hw
    obtain rfl | rfl | rfl | rfl | rfl | rfl | rfl | rfl | rfl | rfl | rfl := hw <;> rfl
  rw [h] at hrest
  simpa [Except.toOption] using hrest

end Rule

/-! ### Types of the new fields -/

theorem meaning_textType (depth : Nat) :
    meaningOf rules (depth + 1) (.type true) closing textType =
      .ok ⟨.path, textType, [], none⟩ := rfl

/-- The type of the identity has an argument, so that it is nested more deeply. -/
theorem meaning_identityType (depth : Nat) :
    meaningOf rules (depth + 3) (.type true) closing identityType =
      .ok ⟨.path, identityType, [], none⟩ := rfl

namespace Rule

/-! ### New fields -/

variable {front : List Tree} {text : String}

/-- Behind the documentation of a field its visibility comes, and then its first word. -/
theorem run_documented {α : Type} (r : Rule α) (hfront : IsVisibility front)
    (hpub : front = [] → w ≠ "pub") :
    (do attributes; visibility; r).run meaning closing
        (documentation (Token.literal text) ++ front ++ Tree.ident w place :: trees) =
      (r.run meaning closing (.ident w place :: trees)).map fun reply =>
        ⟨reply.value, documentation (Token.literal text) ++ front ++ reply.printed, reply.rest,
          reply.stray⟩ := by
  have hattributes : attributes.run meaning closing
      (documentation (Token.literal text) ++ (front ++ .ident w place :: trees)) =
      .ok ⟨(), documentation (Token.literal text), front ++ .ident w place :: trees, none⟩ := by
    cases hfront <;> exact run_attributes text
  rw [List.append_assoc, run_bind, hattributes]
  dsimp only
  rw [run_bind, run_visibility hfront hpub]
  dsimp only
  cases r.run meaning closing (.ident w place :: trees) <;> simp [Reply.after, Except.map]

/-- A name is a word that is no keyword. -/
theorem run_nameAndType (hw : isKeyword w = false) :
    nameAndType.run meaning closing (.ident w place :: sign ':' :: trees) =
      (do name; op ":"; phrase_ (.type true)).run meaning closing
        (.ident w place :: sign ':' :: trees) := by
  have hname : Sight.name.sees (.ident w place :: sign ':' :: trees) = true := by
    simp [Sight.sees, Terminal.match?, hw]
  have hcolon : (Sight.op ":").seesAfter 1 (.ident w place :: sign ':' :: trees) = true := rfl
  have hseparator : (Sight.op "::").seesAfter 1 (.ident w place :: sign ':' :: trees) = false := rfl
  rw [nameAndType, run_next_bind, run_second_bind, run_second_bind, hname, hcolon, hseparator]
  rfl

/-- Where a keyword comes instead, its type comes at once. -/
theorem run_nameAndType_keyword (hw : isKeyword w = true) :
    nameAndType.run meaning closing (.ident w place :: trees) =
      (phrase_ (.type true)).run meaning closing (.ident w place :: trees) := by
  have hname : Sight.name.sees (.ident w place :: trees) = false := by
    simp [Sight.sees, Terminal.match?, hw]
  rw [nameAndType, run_next_bind, run_second_bind, run_second_bind, hname]
  rfl

/-- A field with a name is read as it was put together. -/
theorem run_loneField {shape : Shape} (hfront : IsVisibility front) (hw : isKeyword w = false)
    (htype : meaning (.type true) closing type = .ok ⟨shape, type, [], none⟩) :
    loneField.run meaning closing
        (documentation (Token.literal text) ++ front ++ Tree.ident w place :: sign ':' :: type) =
      .ok ⟨(), documentation (Token.literal text) ++ front ++ .ident w place :: sign ':' :: type, [],
        none⟩ := by
  have hpub : front = [] → w ≠ "pub" := by
    rintro - rfl
    exact absurd hw (by decide)
  have hname : name.run meaning closing (.ident w place :: sign ':' :: type) =
      .ok ⟨(), [.ident w place], sign ':' :: type, none⟩ := by
    simp [name, Rule.run, Terminal.match?, hw]
  have hcolon : (op ":").run meaning closing (sign ':' :: type) =
      .ok ⟨(), [sign ':'], type, none⟩ := rfl
  have hphrase : (phrase_ (.type true)).run meaning closing type = .ok ⟨(), type, [], none⟩ := by
    simp [phrase_, Rule.run, htype, Reply.after]
  rw [loneField, run_documented _ hfront hpub, run_nameAndType hw, run_bind, hname]
  dsimp only
  rw [run_bind, hcolon]
  dsimp only
  rw [hphrase]
  simp [Reply.after, Except.map]

/-- A keyword with a colon and a type behind it is no type to its end. -/
theorem rest_of_run_phrase {depth : Nat} {reply : Reply Unit} (hw : isKeyword w = true)
    (h : (phrase_ (.type true)).run (meaningOf rules (depth + 1)) closing
      (.ident w place :: sign ':' :: textType) = .ok reply) : reply.rest ≠ [] := by
  obtain ⟨r, hr, hrest⟩ : ∃ r, (Rule.type true).run (meaningOf rules depth) closing
      (.ident w place :: sign ':' :: textType) = .ok r ∧ reply.rest = r.rest := by
    simp only [phrase_, Rule.run] at h
    split at h
    · cases h
    · rename_i r hr
      cases h
      exact ⟨r, hr, rfl⟩
  rw [hrest]
  by_cases htype : w ∈ typeWords
  · exact rest_of_run_type_typeWord htype hr
  · exact absurd hr (run_type_keyword hw htype)

/-- A text field with a keyword for a name cannot be read to its end. -/
theorem rest_of_run_loneField {depth : Nat} {reply : Reply Unit} (hfront : IsVisibility front)
    (hw : isKeyword w = true)
    (h : loneField.run (meaningOf rules (depth + 1)) closing
      (documentation (Token.literal text) ++ front ++ Tree.ident w place :: sign ':' :: textType) =
        .ok reply) :
    reply.rest ≠ [] := by
  by_cases hpub : front = [] ∧ w = "pub"
  · obtain ⟨rfl, rfl⟩ := hpub
    have hnone : (loneField.run (meaningOf rules (depth + 1)) closing
      (documentation (Token.literal text) ++ [] ++ Tree.ident "pub" place :: sign ':' ::
        textType)).toOption = none := rfl
    rw [h] at hnone
    cases hnone
  · rw [loneField, run_documented _ hfront fun hnil hmark => hpub ⟨hnil, hmark⟩,
      run_nameAndType_keyword hw] at h
    cases hphrase : (phrase_ (.type true)).run (meaningOf rules (depth + 1)) closing
        (.ident w place :: sign ':' :: textType) with
    | error e =>
      rw [hphrase] at h
      cases h
    | ok r =>
      have hrest := rest_of_run_phrase hw hphrase
      rw [hphrase] at h
      cases h
      exact hrest

end Rule

end KeyedModel.Grammar
