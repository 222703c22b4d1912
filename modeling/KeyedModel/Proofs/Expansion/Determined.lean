import KeyedModel.Expansion
import KeyedModel.Proofs.Token.Phrases

/-!
# The lines of an expansion determine the request

Nothing in a line is checked: a schema, a key and an identifier may be any text, also one that looks
like a piece of another line. The schema and the keys are quoted, and a quote tells where it ends.
An identifier is not quoted, but in the line of its field nothing that varies stands behind it. So
these lines tell the request, where the line of a constructor alone would not.
-/

namespace KeyedModel

open Text (quoteDisplay)

/-- A display quote tells its text, and where it ends. -/
theorem Text.quoteDisplay_append_inj {a b : String} {tail more : List Char}
    (h : (quoteDisplay a).toList ++ tail = (quoteDisplay b).toList ++ more) :
    a = b ∧ tail = more := by
  have hread (text : String) (rest : List Char) :
      Token.readQuoted .text .plain (((quoteDisplay text).toList ++ rest).drop 1) =
        some (text.toList, rest) := by
    simp [quoteDisplay, Token.readQuoted_escapeDisplay]
  have hsame := congrArg (fun chars => Token.readQuoted .text .plain (chars.drop 1)) h
  simp only [hread, Option.some.injEq, Prod.mk.injEq] at hsame
  exact ⟨String.toList_inj.mp hsame.1, hsame.2⟩

namespace Declaration

variable {value value' : String} {f f' : Field}

/-- The line of the schema tells its value. -/
theorem text_schema_inj (h : (schema value).text = (schema value').text) : value = value' := by
  have htext (value : String) : (schema value).text =
      "pub const SCHEMA: &'static str = " ++ quoteDisplay value ++ ";" := rfl
  rw [htext, htext] at h
  have hchars := congrArg String.toList h
  simp only [String.toList_append, List.append_assoc] at hchars
  exact (Text.quoteDisplay_append_inj (List.append_cancel_left hchars)).1

/-- The line of a field tells its key, and behind that its identifier. -/
theorem text_field_inj (h : (field f).text = (field f').text) : f = f' := by
  have htext (f : Field) : (field f).text =
      "#[key = " ++ quoteDisplay f.key ++ "] pub " ++ f.ident ++ ": String" := rfl
  rw [htext, htext] at h
  have hchars := congrArg String.toList h
  simp only [String.toList_append, List.append_assoc] at hchars
  obtain ⟨hkey, hbehind⟩ := Text.quoteDisplay_append_inj (List.append_cancel_left hchars)
  have hident := List.append_cancel_right (List.append_cancel_left hbehind)
  obtain ⟨ident, key⟩ := f
  obtain ⟨ident', key'⟩ := f'
  rw [Field.mk.injEq]
  exact ⟨String.toList_inj.mp hident, hkey⟩

end Declaration

namespace Expansion

variable {name name' : String} {fields fields' : List Field}

/-- The lines of a model: the schema and the identity, a line for each field, and two more. -/
theorem texts_ofFields :
    (ofFields name fields).texts =
      (Declaration.schema name).text :: Declaration.identity.text ::
        (fields.map (fun f => (Declaration.field f).text) ++
          [Constructor.empty.text, (Constructor.full fields).text]) := by
  simp only [texts, ofFields, List.map_cons, List.map_append, List.map_map, List.map_nil]
  rfl

/-- Where the lines are the same, the name and the fields are. -/
theorem ofFields_inj_of_texts (h : (ofFields name fields).texts = (ofFields name' fields').texts) :
    name = name' ∧ fields = fields' := by
  rw [texts_ofFields, texts_ofFields, List.cons.injEq, List.cons.injEq] at h
  obtain ⟨hschema, -, hbehind⟩ := h
  -- both lists end in two constructors, so the lines of the fields are as many on both sides
  obtain ⟨hlines, -⟩ := List.append_inj' hbehind rfl
  have hfields := (List.map_inj_right fun _ _ => Declaration.text_field_inj).mp hlines
  exact ⟨Declaration.text_schema_inj hschema, hfields⟩

end Expansion

namespace Request

variable {r r' : Request} {e e' : Expansion}

/-- A request that is expanded is for a model, and expands to its name and its fields. -/
theorem expand_eq_ok :
    r.expand = .ok e ↔ r = ⟨.model, r.name, r.fields⟩ ∧ e = .ofFields r.name r.fields := by
  obtain ⟨target, name, fields⟩ := r
  cases target <;> simp [expand, eq_comm]

/-- Two requests whose expansions have the same lines are the same request, whatever the names, the
identifiers and the keys in them are. -/
theorem texts_eq_iff (h : r.expand = .ok e) (h' : r'.expand = .ok e') :
    e.texts = e'.texts ↔ r = r' := by
  obtain ⟨hmodel, rfl⟩ := expand_eq_ok.mp h
  obtain ⟨hmodel', rfl⟩ := expand_eq_ok.mp h'
  constructor
  · intro htexts
    obtain ⟨hname, hfields⟩ := Expansion.ofFields_inj_of_texts htexts
    rw [hmodel, hmodel', hname, hfields]
  · rintro rfl
    rfl

/-- An identifier that contains the parameter of another field, so that the heads of the
constructors are the same for one field and for two, and a key that contains the end of a line. -/
theorem texts_eq_iff_imitation :
    ∃ e e', (Request.mk .model "A" [⟨"a: String, b", "\"] pub c: String"⟩]).expand = .ok e ∧
      (Request.mk .model "A" [⟨"a", "\"] pub c: String"⟩, ⟨"b", "\\"⟩]).expand = .ok e' ∧
      (e.texts = e'.texts ↔
        Request.mk .model "A" [⟨"a: String, b", "\"] pub c: String"⟩] =
          Request.mk .model "A" [⟨"a", "\"] pub c: String"⟩, ⟨"b", "\\"⟩]) :=
  ⟨_, _, rfl, rfl, texts_eq_iff rfl rfl⟩

end Request

end KeyedModel
