import KeyedModel.Proofs.Generated.Literals

/-!
# Outlines of declarations

What a declaration says is read off its tokens, whoever wrote them: the name in front of a colon,
the key in an attribute, the functions with their parameters, and what a function stores in a
member. The same readers serve generated code and the tokens of a text.
-/

namespace KeyedModel

open Token (Tree sign word operator group)

namespace Generated

variable {c : Char} {t : Tree} {trees front rest : List Tree}

/-! ### Readers -/

/-- The pieces between the punctuation characters. -/
def pieces (c : Char) (trees : List Tree) : List (List Tree) := trees.splitOnP (isSign c)

/-- The name that is declared: the first word with a colon behind it. -/
def declaredName? : List Tree → Option String
  | .ident name _ :: .punct ':' _ _ :: _ => some name
  | _ :: rest => declaredName? rest
  | [] => none

/-- The text of the key attribute. -/
def keyText? : List Tree → Option String
  | .punct '#' _ _ :: .group .bracket _ [.ident "key" _, .punct '=' _ _, .literal text _] _ :: _ =>
    Token.textValue? text
  | _ :: rest => keyText? rest
  | [] => none

/-- A function: its name, what stands between its parentheses and what stands in its body. -/
structure FunctionTrees where
  name : String
  params : List Tree
  body : List Tree

/-- The functions among some trees. -/
def functions : List Tree → List FunctionTrees
  | .ident "fn" _ :: .ident name _ :: .group .paren _ params _ :: rest =>
    ⟨name, params, (firstBlock? rest).getD []⟩ :: functions rest
  | _ :: rest => functions rest
  | [] => []

/-- A statement that assigns a variable to a member of the instance. -/
def assignment? : List Tree → Option Assignment
  | [.ident "self" _, .punct '.' _ _, .ident target _, .punct '=' _ _, .ident source _] =>
    some ⟨target, source⟩
  | _ => none

/-- A member in a literal of the struct that takes its value from a variable, which may go without
saying if it has the name of the member. -/
def variableMember? : List Tree → Option Assignment
  | [.ident member _] => some ⟨member, member⟩
  | [.ident member _, .punct ':' _ _, .ident source _] => some ⟨member, source⟩
  | _ => none

namespace FunctionTrees

/-- The names of the parameters, in order. -/
def paramNames (f : FunctionTrees) : List String := (pieces ',' f.params).filterMap declaredName?

/-- The assignments in the body. -/
def assigned (f : FunctionTrees) : List Assignment := (pieces ';' f.body).filterMap assignment?

/-- The members of the literal in the body that take their value from a parameter. -/
def taken (f : FunctionTrees) : List Assignment :=
  ((pieces ',' ((firstBlock? f.body).getD [])).filterMap variableMember?).filter
    fun a => f.paramNames.contains a.source

end FunctionTrees

/-! ### Pieces -/

/-- The punctuation character is nowhere among the trees. -/
def Lacks (c : Char) (trees : List Tree) : Prop := ∀ t ∈ trees, isSign c t = false

@[simp] theorem lacks_nil : Lacks c [] := by simp [Lacks]

@[simp] theorem lacks_cons : Lacks c (t :: trees) ↔ isSign c t = false ∧ Lacks c trees := by
  simp [Lacks]

@[simp] theorem lacks_append : Lacks c (front ++ rest) ↔ Lacks c front ∧ Lacks c rest := by
  simp [Lacks, or_imp, forall_and]

@[simp] theorem isSign_punct (d : Char) (spacing : Token.Spacing) (place : Token.Place) :
    isSign c (.punct d spacing place) = (c == d) := rfl
@[simp] theorem isSign_sign (d : Char) : isSign c (sign d) = (c == d) := rfl
@[simp] theorem isSign_word (name : String) : isSign c (word name) = false := rfl
@[simp] theorem isSign_group (d : Token.Delimiter) (inner : List Tree) :
    isSign c (group d inner) = false := rfl

theorem pieces_of_lacks (h : Lacks c trees) : pieces c trees = [trees] :=
  List.splitOnP_eq_singleton h

theorem pieces_append_sign (h : Lacks c front) :
    pieces c (front ++ sign c :: rest) = front :: pieces c rest :=
  List.splitOnP_append_cons_of_forall_mem h _ (by simp) _

/-- Pieces with a punctuation character behind each. -/
theorem pieces_flatMap {elements : List (List Tree)} (h : ∀ e ∈ elements, Lacks c e) :
    pieces c (elements.flatMap (· ++ [sign c])) = elements ++ [[]] := by
  induction elements with
  | nil => exact pieces_of_lacks lacks_nil
  | cons e rest ih =>
    have hrest : ∀ e ∈ rest, Lacks c e := fun e he => h e (List.mem_cons_of_mem _ he)
    rw [List.flatMap_cons, List.append_assoc, List.singleton_append,
      pieces_append_sign (h e List.mem_cons_self), ih hrest]
    rfl

/-- Pieces with commas between them, in front of more. -/
theorem exists_pieces_separated {elements : List (List Tree)} (more : List (List Tree))
    (hne : elements ≠ []) (h : ∀ e ∈ elements, Lacks ',' e) :
    ∃ others, pieces ',' (separated (elements ++ more)) = elements ++ others ∧
      (more = [] → others = []) := by
  induction elements with
  | nil => exact absurd rfl hne
  | cons e rest ih =>
    have he := h e List.mem_cons_self
    by_cases hrest : rest = []
    · subst hrest
      cases more with
      | nil => exact ⟨[], pieces_of_lacks he, fun _ => rfl⟩
      | cons first others => exact ⟨_, pieces_append_sign he, fun hnil => nomatch hnil⟩
    · obtain ⟨others, hothers, hnil⟩ := ih hrest fun e he => h e (List.mem_cons_of_mem _ he)
      obtain ⟨first, last, hcons⟩ := List.exists_cons_of_ne_nil hrest
      refine ⟨others, ?_, hnil⟩
      rw [hcons] at hothers ⊢
      exact (pieces_append_sign he).trans (congrArg (e :: ·) hothers)

/-- What a reader finds in pieces with commas between them. -/
theorem filterMap_pieces_separated {α : Type} {read : List Tree → Option α}
    {elements : List (List Tree)} (hnil : read [] = none) (h : ∀ e ∈ elements, Lacks ',' e) :
    (pieces ',' (separated elements)).filterMap read = elements.filterMap read := by
  by_cases hne : elements = []
  · subst hne
    have hpieces : pieces ',' (separated []) = [[]] := pieces_of_lacks lacks_nil
    simp [hpieces, hnil]
  · obtain ⟨others, hpieces, hothers⟩ := exists_pieces_separated [] hne h
    rw [List.append_nil, hothers rfl, List.append_nil] at hpieces
    rw [hpieces]

/-! ### Names -/

/-- Behind trees without a colon the name is the one in front of the colon. -/
theorem declaredName?_append {name : String} {spacing : Token.Spacing} {place colon : Token.Place}
    (h : Lacks ':' front) :
    declaredName? (front ++ .ident name place :: .punct ':' spacing colon :: rest) = some name := by
  induction front with
  | nil => rfl
  | cons t more ih =>
    obtain ⟨-, hmore⟩ := lacks_cons.mp h
    have hskip : ∀ first other,
        more ++ .ident name place :: .punct ':' spacing colon :: rest = first :: other →
        isSign ':' first = false := by
      intro first other heq
      cases more with
      | nil =>
        obtain ⟨rfl, -⟩ := List.cons.inj heq
        rfl
      | cons u last =>
        obtain ⟨rfl, -⟩ := List.cons.inj heq
        exact (lacks_cons.mp hmore).1
    rw [List.cons_append, declaredName?.eq_def]
    split
    · rename_i heq
      obtain ⟨-, hmark⟩ := List.cons.inj heq
      exact absurd (hskip _ _ hmark) (by simp [isSign])
    · rename_i heq
      obtain ⟨-, rfl⟩ := List.cons.inj heq
      exact ih hmore
    · cases ‹_ = []›

end Generated

end KeyedModel
