import KeyedModel.Proofs.Grammar.Structs

/-!
# Fields that were read

A field of a struct that was read has attributes, which are marks with brackets behind them, then a
visibility, which has no punctuation, then a name, and then a colon with its type. So its attributes
and its name can be told from its tokens.
-/

namespace KeyedModel.Grammar

open Token (Tree Place)
open Generated (Lacks lacks_nil lacks_cons lacks_append)

set_option synthInstance.maxSize 10000000

variable {trees : List Tree}

/-- Marks of attributes, each with brackets behind it. -/
inductive AreAttributes : List Tree → Prop where
  | nil : AreAttributes []
  | cons {mark opening closing : Place} {body rest : List Tree} (h : AreAttributes rest) :
    AreAttributes (.punct '#' .alone mark :: .group .bracket opening body closing :: rest)

/-- The mark is the only punctuation among attributes. -/
theorem AreAttributes.lacks (h : AreAttributes trees) {c : Char} (hc : c ≠ '#') : Lacks c trees := by
  induction h with
  | nil => exact lacks_nil
  | cons _ ih => simp [Generated.isSign, hc, ih]

/-- What is known of a field that was read. -/
structure OwnField.WasRead (f : OwnField) : Prop where
  attributes : AreAttributes f.attributes
  visibility (c : Char) : Lacks c f.visibility
  typed : ∃ colon type, f.typed = .punct ':' .alone colon :: type

namespace Rule

theorem prints_areAttributes : attributes.Prints AreAttributes where
  out {meaning closing trees reply} h := by
    unfold attributes repeatWhile at h
    simp only [Rule.run] at h
    generalize trees.length + 1 = limit at h
    induction limit generalizing trees reply with
    | zero => cases h
    | succ limit ih =>
      obtain ⟨a, b, ha, hb, rfl⟩ := run_bind_eq_ok.mp h
      obtain ⟨c, d, hc, hd, rfl⟩ := run_bind_eq_ok.mp ha
      rw [acceptOp, run_accept] at hc
      split at hc
      · rename_i taken rest hmatch
        obtain ⟨spacing, mark, -, rfl⟩ : ∃ spacing mark, trees = .punct '#' spacing mark :: rest ∧
          taken = [.punct '#' .alone mark] := matchOp_singleton.mp hmatch
        cases hc
        obtain ⟨e, f, he, hf, rfl⟩ := run_bind_eq_ok.mp hd
        cases hf
        obtain ⟨opening, inner, closed, behind, k, -, -, rfl⟩ := run_within_eq_ok.mp he
        exact .cons (ih hb)
      · cases hc
        cases hd
        cases hb
        exact .nil

theorem returns_namedField : namedField.Returns OwnField.WasRead := by
  refine returns_silently (returns_held_bind prints_areAttributes fun _ attributes hattributes => ?_)
  refine returns_held_bind prints_visibility fun _ visibility hvisibility => ?_
  refine returns_behind fun unnamed => returns_behind fun ident => ?_
  refine returns_held_bind (prints_op_behind ':' rfl) fun _ typed htyped => ?_
  exact returns_pure ⟨hattributes, hvisibility.lacks, htyped⟩

theorem returns_namedFields_wasRead :
    namedFields.Returns fun found => ∀ l ∈ found, l.element.WasRead := by
  refine returns_silently (returns_within ⟨fun h => ?_⟩)
  exact ((returns_listUntil returns_namedField).out h).2

/-- All fields of the struct were read. -/
theorem returns_structItem_ownFields (attributes visibility : List Tree) :
    (structItem attributes visibility).Returns fun s => ∀ f ∈ s.ownFields, f.WasRead := by
  refine returns_behind fun _ => returns_behind fun name => returns_behind fun generics => ?_
  refine returns_behind fun _ => returns_ite ?_ ?_
  · refine returns_behind fun (_, fields) => returns_behind fun _ => ?_
    refine returns_behind fun whereClause => returns_behind fun _ => ?_
    refine returns_ite ?_ (returns_bind (returns_expecting _) fun _ => False.elim)
    exact returns_behind fun _ => returns_pure (by simp [StructItem.ownFields])
  · refine returns_behind fun _ => returns_behind fun whereClause => returns_behind fun _ => ?_
    refine returns_ite ?_ ?_
    · exact returns_bind returns_namedFields_wasRead fun own hown =>
        returns_pure (by simpa [StructItem.ownFields] using hown)
    · refine returns_behind fun _ => returns_ite ?_ (returns_expecting _)
      exact returns_behind fun _ => returns_pure (by simp [StructItem.ownFields])

end Rule

/-- The fields of a struct that is read were read. -/
theorem ownFields_wasRead {s : StructItem} {printed : List Tree}
    (h : readItem trees = .ok (.struct s, printed)) : ∀ f ∈ s.ownFields, f.WasRead := by
  obtain ⟨attributes, visibility, found, -, -, hfound, rfl, -⟩ := exists_run_structItem h
  exact (Rule.returns_structItem_ownFields _ _).out hfound

end KeyedModel.Grammar
