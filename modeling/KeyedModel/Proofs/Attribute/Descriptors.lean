import KeyedModel.Proofs.Attribute.Names
import KeyedModel.Proofs.Attribute.Texts

/-!
# Descriptors of fields that a string names

A string in the argument list is an identifier and is the key of its field as it stands. The
descriptor names the field without the mark of a raw identifier. So name and key agree, and the
descriptor shows the name alone, exactly if the identifier is plain.
-/

namespace KeyedModel

open Token (Tree lex)
open Token.Tree (denotedAll)
open Text (unraw)

/-- Whether the name carries the mark of a raw identifier. -/
def Text.isRaw (name : String) : Bool := ['r', '#'].isPrefixOf name.toList

/-- A name with the mark is longer than the name without it; any other name stays as it is. -/
theorem Text.unraw_eq_self_iff {name : String} : unraw name = name ↔ isRaw name = false := by
  unfold unraw isRaw
  split
  · rename_i rest hchars
    have hshorter : String.ofList rest ≠ name := by
      intro heq
      have hlength := congrArg String.toList heq
      rw [hchars, String.toList_ofList] at hlength
      have hsizes := congrArg List.length hlength
      simp only [List.length_cons] at hsizes
      omega
    simp [hchars, hshorter]
  · rename_i hplain
    have hnot : ¬ ['r', '#'] <+: name.toList := by
      rintro ⟨rest, hrest⟩
      exact hplain rest hrest.symm
    simpa [List.isPrefixOf_iff_prefix, ← Bool.not_eq_true] using hnot

namespace Descriptor

/-- The descriptors that names and keys make up in turn. -/
def ofDenoted : List (Option String) → List Descriptor
  | some name :: some key :: rest => ⟨name, key⟩ :: ofDenoted rest
  | _ => []

/-- The descriptors that the constant of some generated code lists. -/
def listed? (output : List Tree) : Option (List Descriptor) :=
  ((Generated.lastBlock? output).bind (Generated.constantValue? "FIELDS")).map
    fun value => ofDenoted (denotedAll value)

/-- The descriptor of a field whose key is its identifier: whether it counts as verbatim, and how it
is shown, depends on the mark of a raw identifier. -/
structure OfIdent (d : Descriptor) (ident : String) : Prop where
  key : d.key = ident
  name : d.name = unraw ident
  verbatim : d.isVerbatim = true ↔ Text.isRaw ident = false
  display : d.display =
    if Text.isRaw ident then unraw ident ++ " (" ++ ident ++ ")" else ident

/-- The field whose key is its identifier has such a descriptor. -/
theorem ofIdent_verbatim (ident : String) : OfIdent ⟨unraw ident, ident⟩ ident where
  key := rfl
  name := rfl
  verbatim := by
    rw [isVerbatim, beq_iff_eq]
    exact Text.unraw_eq_self_iff
  display := by
    cases hraw : Text.isRaw ident with
    | false =>
      have hname := Text.unraw_eq_self_iff.mpr hraw
      simp [display, isVerbatim, hname]
    | true =>
      have hname : unraw ident ≠ ident := by
        rw [Ne, Text.unraw_eq_self_iff, hraw]
        simp
      simp [display, isVerbatim, hname]

/-- Descriptors are read off their names and keys. -/
theorem ofDenoted_flatMap (fields : List Field) :
    ofDenoted (fields.flatMap fun f => [some f.name, some f.key]) =
      fields.map fun f => ⟨f.name, f.key⟩ := by
  induction fields with
  | nil => rfl
  | cons f rest ih => simpa [ofDenoted] using ih

/-- The implementation of the interface stands at the end of the generated code. -/
theorem lastBlock?_trees (g : Generated) :
    Generated.lastBlock? g.trees = Generated.lastBlock? g.interfaceTrees := by
  rw [Generated.trees, Generated.interfaceTrees, Generated.implementation, ← List.append_assoc,
    Generated.lastBlock?_append, Generated.lastBlock?_append]

/-- The generated code lists the descriptor of every field. -/
theorem listed?_of (s : Grammar.StructItem) (fields : List Field) :
    listed? (Generated.of s (.ofFields s.name fields)).trees =
      some (fields.map fun f => ⟨f.name, f.key⟩) := by
  have hspells : (Generated.of s (.ofFields s.name fields)).Spells fields := Generated.spells_of
  obtain ⟨value, hvalue, htexts⟩ := Option.map_eq_some_iff.mp hspells.descriptors
  rw [listed?, lastBlock?_trees, hvalue, Option.map_some, htexts, ofDenoted_flatMap]

end Descriptor

variable {arguments item : List Tree} {g : Generated}

/-- In the code that an attribute makes of an item, one descriptor is listed for every argument, in
order. That of a string has the text's identifier as its key and the identifier without a raw mark
as its name; so it is verbatim, and shows the name alone, exactly if the identifier is plain. -/
theorem Expands.positional_descriptor {source attr : String}
    (hlex : lex source attr = some arguments) (h : Expands arguments item g) :
    ∃ (found : List Argument) (listed : List Descriptor), Argument.ListWritten arguments found ∧
      Descriptor.listed? g.trees = some listed ∧ listed.length = found.length ∧
      ∀ (i : Nat) (literal : TextLiteral), found[i]? = some (.positional literal) →
        ∃ ident d, identifier? literal.value = some ident ∧ listed[i]? = some d ∧
          d.OfIdent ident := by
  obtain ⟨found, fields, hfound, hdescribed, hg⟩ := h.exists_described
  have hlisted := Descriptor.listed?_of g.item fields
  rw [← hg] at hlisted
  refine ⟨found, _, (Argument.ofTrees_eq_ok_iff hlex).mp hfound, hlisted, ?_, ?_⟩
  · rw [List.length_map, hdescribed.length_eq]
  · intro i literal hi
    obtain ⟨hlt, hargument⟩ := List.getElem?_eq_some_iff.mp hi
    have hltFields : i < fields.length := hdescribed.length_eq ▸ hlt
    have hdescribes := hdescribed.get hlt hltFields
    rw [List.get_eq_getElem, List.get_eq_getElem, hargument] at hdescribes
    obtain ⟨ident, hident, hfield⟩ := hdescribes
    refine ⟨ident, _, hident, ?_, Descriptor.ofIdent_verbatim ident⟩
    rw [List.getElem?_map, List.getElem?_eq_getElem hltFields, hfield]
    rfl

/-- The fields of the list, for the names in the struct, are those whose descriptors are listed. -/
theorem Expands.listed?_eq {own : List String} {fields : List Field} {target : Target}
    (h : Expands arguments item g) (hread : readStruct item = some (own, target))
    (hlist : Field.ofList own arguments = .ok fields) :
    Descriptor.listed? g.trees = some (fields.map fun f => ⟨f.name, f.key⟩) := by
  obtain ⟨tokens, hitem⟩ := h.read
  obtain ⟨accepted, haccepts, hmade⟩ := h.made
  have hown : g.item.ownFields.map (·.ident) = own := by
    simp only [readStruct, hitem, Option.some.injEq, Prod.mk.injEq] at hread
    exact hread.1
  have hfields : accepted = fields := by
    have haccepted := haccepts.fields
    rw [hown, hlist] at haccepted
    exact (Except.ok.inj haccepted).symm
  have hlisted := Descriptor.listed?_of g.item accepted
  rw [← (Generated.of?_eq_ok.mp hmade).2, hfields] at hlisted
  exact hlisted

/-- A raw identifier as a string is accepted, and its key keeps the mark. -/
theorem exists_expands_raw :
    ∃ arguments item g place, lex "attr" "\"r#type\"" = some arguments ∧
      lex "item" "struct A;" = some item ∧ Expands arguments item g ∧
      Argument.ofTrees arguments = .ok [.positional ⟨"r#type", place⟩] ∧
      Descriptor.listed? g.trees = some [⟨"type", "r#type"⟩] := by
  let place : Token.Place := some ⟨"attr", ⟨1, 0⟩, ⟨1, 8⟩⟩
  have hfound : (lex "attr" "\"r#type\"").bind (fun arguments =>
      (Argument.ofTrees arguments).toOption) = some [.positional ⟨"r#type", place⟩] := by
    decide +kernel
  have hread : (lex "item" "struct A;").bind readStruct = some ([], .model) := by decide +kernel
  obtain ⟨arguments, hlex, hfound⟩ := Option.bind_eq_some_iff.mp hfound
  obtain ⟨item, hitem, hread⟩ := Option.bind_eq_some_iff.mp hread
  have hfound : Argument.ofTrees arguments = .ok [.positional ⟨"r#type", place⟩] := by
    cases hof : Argument.ofTrees arguments with
    | error e => simp [hof, Except.toOption] at hfound
    | ok found => simpa [hof, Except.toOption] using hfound
  have hfields : Field.ofArguments [] [.positional ⟨"r#type", place⟩] =
      .ok [⟨"r#type", "r#type"⟩] := by decide +kernel
  have hlist : Field.ofList [] arguments = .ok [⟨"r#type", "r#type"⟩] :=
    Field.ofList_eq_ok.mpr ⟨_, hfound, hfields⟩
  have husable : Text.isDeclarable "r#type" = true := by decide
  obtain ⟨g, hexpands, -⟩ := exists_expands hread hlist (by simpa using husable)
  exact ⟨arguments, item, g, place, hlex, hitem, hexpands, hfound, hexpands.listed?_eq hread hlist⟩

/-- Its descriptor is named without the mark. -/
theorem positional_descriptor_raw :
    ∃ arguments item g, lex "attr" "\"r#type\"" = some arguments ∧
      lex "item" "struct A;" = some item ∧ Expands arguments item g ∧
      ∃ (found : List Argument) (listed : List Descriptor), Argument.ListWritten arguments found ∧
        Descriptor.listed? g.trees = some listed ∧ listed.length = found.length ∧
        ∀ (i : Nat) (literal : TextLiteral), found[i]? = some (.positional literal) →
          ∃ ident d, identifier? literal.value = some ident ∧ listed[i]? = some d ∧
            d.OfIdent ident := by
  obtain ⟨arguments, item, g, place, hlex, hitem, hexpands, -, -⟩ := exists_expands_raw
  exact ⟨arguments, item, g, hlex, hitem, hexpands, hexpands.positional_descriptor hlex⟩

/-- So the descriptor of a string need not be verbatim. -/
theorem not_forall_positional_isVerbatim :
    ¬ ∀ (attr text : String) (arguments item : List Tree) (g : Generated) (found : List Argument)
      (listed : List Descriptor), lex "attr" attr = some arguments → lex "item" text = some item →
      Expands arguments item g → Argument.ofTrees arguments = .ok found →
      Descriptor.listed? g.trees = some listed →
      ∀ (i : Nat) (literal : TextLiteral), found[i]? = some (.positional literal) →
        ∃ d, listed[i]? = some d ∧ d.isVerbatim = true := by
  intro h
  obtain ⟨arguments, item, g, place, hlex, hitem, hexpands, hfound, hlisted⟩ := exists_expands_raw
  obtain ⟨d, hd, hverbatim⟩ := h _ _ arguments item g _ _ hlex hitem hexpands hfound hlisted 0 _ rfl
  obtain rfl : ⟨"type", "r#type"⟩ = d := Option.some.inj hd
  revert hverbatim
  decide

end KeyedModel
