import KeyedModel.Proofs.Generated.Outline
import KeyedModel.Proofs.Token.Phrases

/-!
# Declarations in words are read as tokens

Every declaration of a model has a text in one line. Its tokens are given here, one definition for
each part of a line, and reading the text gives these tokens whatever the schema, the keys and the
identifiers are.
-/

namespace KeyedModel

open Token (Tree Spacing Reads WordStops startsPunct sign word operator group literal lifetime
  tokens?)
open Text (isIdentifier quoteDisplay)
open Generated (separated)

variable {trees : List Tree} {mid tail : List Char}

/-! ### The tokens of a line -/

/-- The tokens of a parameter; the last bracket of the identity's type may join what follows. -/
def Param.line (spacing : Spacing) : Param → List Tree
  | .identity =>
    [word identityName, sign ':', word "Option", sign '<', word "Uuid", .punct '>' spacing none]
  | .field f => [word f.ident, sign ':', word "String"]

/-- The tokens of several parameters, each but the last in front of a comma. -/
def paramLines : List Param → List (List Tree)
  | [] => []
  | [p] => [p.line .alone]
  | p :: rest => p.line .joint :: paramLines rest

/-- The tokens of an assignment. -/
def Assignment.line (a : Assignment) : List Tree :=
  [word "self", sign '.', word a.target, sign '=', word a.source]

/-- The tokens of a constructor. -/
def Constructor.line (c : Constructor) : List Tree :=
  [word "pub", word "fn", word c.name, group .paren (separated (paramLines c.params))] ++
    operator ['-', '>'] ++
    [word "Self", group .brace (c.assignments.flatMap fun a => a.line ++ [sign ';'])]

/-- The tokens of a declaration. -/
def Declaration.line : Declaration → List Tree
  | schema value =>
    [word "pub", word "const", word "SCHEMA", sign ':', Token.jointSign '&'] ++ lifetime "static" ++
      [word "str", sign '=', literal (quoteDisplay value), sign ';']
  | identity =>
    [word "pub", word identityName, sign ':', word "Option", sign '<', word "Uuid", sign '>']
  | field f =>
    [sign '#', group .bracket [word "key", sign '=', literal (quoteDisplay f.key)], word "pub",
      word f.ident, sign ':', word "String"]
  | constructor c => c.line

/-- The identifiers of the parameters can be read as words. -/
def Constructor.Readable (c : Constructor) : Prop := ∀ p ∈ c.params, isIdentifier p.name = true

/-- The identifiers of the declaration can be read as words. -/
def Declaration.Readable : Declaration → Prop
  | field f => isIdentifier f.ident = true
  | constructor c => c.Readable
  | _ => True

/-! ### Reading a line -/

/-- A parameter is read where its type ends. -/
theorem Param.reads (p : Param) (spacing : Spacing) (hrest : Reads trees mid tail)
    (hstops : WordStops mid) (hspacing : (if startsPunct mid then .joint else .alone) = spacing)
    (h : isIdentifier p.name = true) :
    Reads (p.line spacing ++ trees) (p.text.toList ++ mid) tail := by
  subst hspacing
  cases p with
  | identity =>
    have huuid := (hrest.consSign '>' rfl).consWord "Uuid" (.cons rfl) (by decide)
    have hoption := (huuid.consSign '<' rfl).consWord "Option" (.cons rfl) (by decide)
    exact (hoption.space.consSign ':' rfl).consWord "id" (.cons rfl) (by decide)
  | field f =>
    have htext : (field f).text.toList = f.ident.toList ++ (':' :: ' ' :: "String".toList) := by
      change (f.ident ++ ": String").toList = _
      rw [String.toList_append]
      rfl
    have hstring := hrest.consWord "String" hstops (by decide)
    rw [htext, List.append_assoc]
    exact (hstring.space.consSign ':' rfl).consWord f.ident (.cons rfl) h

/-- Parameters are read up to the closing parenthesis. -/
theorem reads_params (params : List Param) (h : ∀ p ∈ params, isIdentifier p.name = true) :
    Reads (separated (paramLines params))
      ((", ".intercalate (params.map Param.text)).toList ++ ')' :: tail) (')' :: tail) := by
  rw [String.toList_intercalate]
  induction params with
  | nil => exact .nil
  | cons p rest ih =>
    obtain ⟨hp, hrest⟩ := List.forall_mem_cons.mp h
    cases rest with
    | nil =>
      have hread := p.reads .alone (.nil : Reads [] (')' :: tail) _) (.cons rfl) rfl hp
      simpa [paramLines, separated] using hread
    | cons q more =>
      have hread := p.reads .joint ((ih hrest).space.consSign ',' rfl) (.cons rfl) rfl hp
      have hlines : separated (paramLines (p :: q :: more)) =
          p.line .joint ++ sign ',' :: separated (paramLines (q :: more)) := by
        cases more <;> rfl
      rw [hlines]
      simp only [List.map_cons, List.intercalate_cons_cons, List.append_assoc] at hread ⊢
      exact hread

/-- What stands behind the opening parenthesis of a constructor is no slash. -/
theorem head_params (params : List Param) (h : ∀ p ∈ params, isIdentifier p.name = true) :
    ∀ d ∈ ((", ".intercalate (params.map Param.text)).toList ++ ')' :: tail).head?, d ≠ '/' := by
  rw [String.toList_intercalate]
  cases params with
  | nil => simp
  | cons p rest =>
    obtain ⟨c, more, hname, hstart⟩ := Token.exists_isIdentStart (h p List.mem_cons_self)
    obtain ⟨type, htype⟩ : ∃ type, p.text = p.name ++ type := by cases p <;> exact ⟨_, rfl⟩
    have hne : c ≠ '/' := by
      rintro rfl
      cases hstart
    cases rest <;> simp [htype, hname, hne, List.intercalate_cons_cons]

/-- The text of an assignment, with a blank in front of it and the sign that ends it. -/
def Assignment.text (a : Assignment) : String := " self." ++ a.target ++ " = " ++ a.source ++ ";"

/-- An assignment is read where no punctuation follows it. -/
theorem Assignment.reads (a : Assignment) (hrest : Reads trees mid tail)
    (hmid : startsPunct mid = false) (htarget : isIdentifier a.target = true)
    (hsource : isIdentifier a.source = true) :
    Reads (a.line ++ sign ';' :: trees) (a.text.toList ++ mid) tail := by
  have hend := hrest.consSign ';' rfl
  rw [hmid] at hend
  have hvalue := hend.consWord a.source (.cons rfl) hsource
  have hdot := ((hvalue.space.consSign '=' rfl).spaceWord a.target htarget).consSign '.' rfl
  rw [Token.startsPunct_word htarget] at hdot
  have hself := (hdot.consWord "self" (.cons rfl) (by decide)).space
  have htext : a.text.toList ++ mid = ' ' :: ("self".toList ++ '.' :: (a.target.toList ++
      ' ' :: '=' :: ' ' :: (a.source.toList ++ ';' :: mid))) := by
    simp only [Assignment.text, String.toList_append, List.append_assoc]
    rfl
  rw [htext]
  exact hself

/-- Assignments are read up to the blank behind them. -/
theorem reads_assignments (assignments : List Assignment)
    (h : ∀ a ∈ assignments, isIdentifier a.target = true ∧ isIdentifier a.source = true)
    (hrest : Reads trees (' ' :: mid) tail) :
    Reads (assignments.flatMap (fun a => a.line ++ [sign ';']) ++ trees)
      ((String.join (assignments.map Assignment.text)).toList ++ ' ' :: mid) tail := by
  rw [String.toList_join]
  induction assignments with
  | nil => exact hrest
  | cons a rest ih =>
    obtain ⟨ha, hmore⟩ := List.forall_mem_cons.mp h
    have hblank : startsPunct
        ((rest.map Assignment.text).flatMap String.toList ++ ' ' :: mid) = false := by
      cases rest with
      | nil => rfl
      | cons b more =>
        rw [List.map_cons, List.flatMap_cons, Assignment.text]
        simp only [String.toList_append, List.append_assoc]
        rfl
    have hread := a.reads (ih hmore) hblank ha.1 ha.2
    simpa using hread

/-- The text of a constructor is read as its tokens. -/
theorem Constructor.tokens?_text (c : Constructor) (h : c.Readable) :
    tokens? c.text = some c.line := by
  have hname : isIdentifier c.name = true := by
    unfold Constructor.name
    split <;> decide
  have hassigned : ∀ a ∈ c.assignments,
      isIdentifier a.target = true ∧ isIdentifier a.source = true := by
    intro a ha
    obtain ⟨p, hp, rfl⟩ := List.mem_map.mp ha
    exact ⟨h p hp, h p hp⟩
  have hbody : Reads [group .brace (c.assignments.flatMap fun a => a.line ++ [sign ';'])]
      ('\x7b' :: ((String.join (c.assignments.map Assignment.text)).toList ++ [' ', '\x7d'])) [] := by
    have hinner := reads_assignments c.assignments hassigned
      (.space .nil : Reads [] [' ', '\x7d'] ['\x7d'])
    rw [List.append_nil] at hinner
    exact hinner.group rfl rfl
  have harrow := ((hbody.spaceWord "Self" (by decide)).space.consSign '>' rfl).consSign '-' rfl
  have hparams := ((reads_params c.params h).group
    (Token.readElement_opening (head_params c.params h)) rfl).append harrow.space
  have hfn := (hparams.consWord c.name (.cons rfl) hname).spaceWord "fn" (by decide)
  have htext : c.text.toList = "pub".toList ++ ' ' :: ("fn".toList ++ ' ' :: (c.name.toList ++
      '(' :: ((", ".intercalate (c.params.map Param.text)).toList ++
      ')' :: ' ' :: '-' :: '>' :: ' ' :: ("Self".toList ++ ' ' ::
      '\x7b' :: ((String.join (c.assignments.map Assignment.text)).toList ++ [' ', '\x7d']))))) := by
    change ("pub fn " ++ c.name ++ "(" ++ ", ".intercalate (c.params.map Param.text) ++
      ") -> Self \x7b" ++ String.join (c.assignments.map Assignment.text) ++ " \x7d").toList = _
    simp only [String.toList_append, String.reduceToList, List.append_assoc, List.cons_append,
      List.nil_append]
  exact Token.tokens?_of_reads htext (by decide) (hfn.spaceWord "pub" (by decide))

/-- The mark of the lifetime that never ends. -/
theorem readElement_static :
    Token.readElement ('\'' :: ("static".toList ++ ' ' :: mid)) =
      some (.leaf (.punct '\'' .joint), "static".toList ++ ' ' :: mid) := rfl

/-- The attribute with the key of a field. -/
theorem reads_key (key : String) :
    Reads [group .bracket [word "key", sign '=', literal (quoteDisplay key)]]
      ('[' :: ("key".toList ++ ' ' :: '=' :: ' ' :: ((quoteDisplay key).toList ++ ']' :: tail)))
      tail := by
  have hvalue := (Reads.nil : Reads [] (']' :: tail) _).consQuote rfl key
  exact ((hvalue.space.consSign '=' rfl).spaceWord "key" (by decide)).group rfl rfl

/-- The text of a declaration is read as its tokens. -/
theorem Declaration.tokens?_text (d : Declaration) (h : d.Readable) :
    tokens? d.text = some d.line := by
  cases d with
  | schema value =>
    have hvalue := ((Reads.nil : Reads [] [] []).consSign ';' rfl).consQuote rfl value
    have hstr := (hvalue.space.consSign '=' rfl).spaceWord "str" (by decide)
    have hstatic := hstr.spaceWord "static" (by decide)
    have hmark := (Reads.leaf readElement_static (by simp)).append hstatic
    have hcolon := (hmark.consSign '&' rfl).space.consSign ':' rfl
    have hconst :=
      (hcolon.consWord "SCHEMA" (.cons rfl) (by decide)).spaceWord "const" (by decide)
    have htext : (schema value).text.toList = "pub".toList ++ ' ' :: ("const".toList ++ ' ' ::
        ("SCHEMA".toList ++ ':' :: ' ' :: '&' :: '\'' :: ("static".toList ++ ' ' ::
        ("str".toList ++ ' ' :: '=' :: ' ' :: ((quoteDisplay value).toList ++ [';']))))) := by
      change ("pub const SCHEMA: &'static str = " ++ quoteDisplay value ++ ";").toList = _
      simp only [String.toList_append, String.reduceToList, List.cons_append, List.nil_append]
    exact Token.tokens?_of_reads htext (by decide) (hconst.spaceWord "pub" (by decide))
  | identity =>
    have hoption := ((((Reads.nil : Reads [] [] []).consSign '>' rfl).consWord "Uuid" (.cons rfl)
      (by decide)).consSign '<' rfl).consWord "Option" (.cons rfl) (by decide)
    have hname := (hoption.space.consSign ':' rfl).consWord identityName (.cons rfl) (by decide)
    exact Token.tokens?_of_reads rfl (by decide) (hname.spaceWord "pub" (by decide))
  | field f =>
    have hend : WordStops [] := by simp [WordStops]
    have hstring := (Reads.nil : Reads [] [] []).consWord "String" hend (by decide)
    have hname := (hstring.space.consSign ':' rfl).consWord f.ident (.cons rfl) h
    have hpub := (hname.spaceWord "pub" (by decide)).space
    have hattribute := (reads_key f.key).append hpub
    have htext : (field f).text.toList = '#' :: '[' :: ("key".toList ++ ' ' :: '=' :: ' ' ::
        ((quoteDisplay f.key).toList ++ ']' :: ' ' :: ("pub".toList ++ ' ' :: (f.ident.toList ++
        ':' :: ' ' :: ("String".toList ++ []))))) := by
      change ("#[key = " ++ quoteDisplay f.key ++ "] pub " ++ f.ident ++ ": String").toList = _
      simp only [String.toList_append, String.reduceToList, List.append_assoc, List.cons_append,
        List.nil_append, List.append_nil]
    exact Token.tokens?_of_reads htext (by decide) (hattribute.consSign '#' rfl)
  | constructor c => exact c.tokens?_text h

end KeyedModel
