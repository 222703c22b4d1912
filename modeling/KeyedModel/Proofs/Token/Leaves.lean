import KeyedModel.Token.Lexer

/-!
# What holds of every token

A tree is made of leaves. Whatever holds of each leaf that the lexer reads, and of the leaves of an
attribute that stands for a documentation comment, holds of every leaf of a lexed text.
-/

namespace KeyedModel.Token

mutual

/-- Every leaf of the tree has the property. -/
def Tree.All (p : Leaf → Prop) : Tree → Prop
  | .ident name _ => p (.ident name)
  | .punct c spacing _ => p (.punct c spacing)
  | .literal text _ => p (.literal text)
  | .group _ _ inner _ => Tree.AllList p inner

/-- Every leaf of the trees has the property. -/
def Tree.AllList (p : Leaf → Prop) : List Tree → Prop
  | [] => True
  | t :: rest => t.All p ∧ Tree.AllList p rest

end

namespace Tree

/-- Every leaf of the trees has a property if every leaf of each tree does. -/
theorem allList_iff {p : Leaf → Prop} {trees : List Tree} :
    AllList p trees ↔ ∀ t ∈ trees, t.All p := by
  induction trees with
  | nil => simp [AllList]
  | cons t rest ih => simp [AllList, ih]

end Tree

/-- A leaf at a place has the property if the leaf has. -/
theorem Leaf.at_all {p : Leaf → Prop} {leaf : Leaf} {place : Place} :
    (leaf.at place).All p ↔ p leaf := by
  cases leaf <;> rfl

/-- The property holds of everything that the lexer makes a leaf of. -/
structure HoldsOfLexed (p : Leaf → Prop) : Prop where
  /-- Leaves that are read. -/
  read : ∀ chars leaf rest, readElement chars = some (.leaf leaf, rest) → p leaf
  /-- Leaves of the attribute for a documentation comment. -/
  doc : p (.ident "doc")
  equals : p (.punct '=' .alone)
  hash : p (.punct '#' .alone)
  bang : p (.punct '!' .alone)
  comment : ∀ text, p (.literal (Text.quoteLiteral text))

namespace HoldsOfLexed

variable {p : Leaf → Prop}

theorem docAttribute (h : HoldsOfLexed p) (inner : Bool) (comment : List Char) (place : Place) :
    ∀ t ∈ docAttribute inner comment place, t.All p := by
  have hbody : Tree.AllList p [.ident "doc" place, .punct '=' .alone place,
      .literal (Text.quoteLiteral (String.ofList comment)) place] :=
    ⟨h.doc, h.equals, h.comment _, trivial⟩
  intro t ht
  cases inner with
  | false =>
    simp only [Token.docAttribute, Bool.false_eq_true, if_false, List.mem_cons, List.not_mem_nil,
      or_false] at ht
    rcases ht with rfl | rfl
    · exact h.hash
    · exact hbody
  | true =>
    simp only [Token.docAttribute, if_true, List.mem_cons, List.not_mem_nil, or_false] at ht
    rcases ht with rfl | rfl | rfl
    · exact h.hash
    · exact h.bang
    · exact hbody

/-- Cutting a text gives leaves with the property. -/
theorem cut (h : HoldsOfLexed p) {source : String} {fuel : Nat} {start : Position}
    {chars : List Char} {located : List Located}
    (hcut : cutWith source fuel start chars = some located) :
    ∀ l ∈ located, ∀ leaf, l.element = .leaf leaf → p leaf := by
  induction fuel generalizing start chars located with
  | zero =>
    cases chars with
    | nil => cases hcut; simp
    | cons c rest => cases hcut
  | succ fuel ih =>
    cases chars with
    | nil => cases hcut; simp
    | cons c rest =>
      simp only [cutWith] at hcut
      split at hcut
      · cases hcut
      · rename_i element after hread
        obtain ⟨more, hmore, rfl⟩ := Option.map_eq_some_iff.mp hcut
        intro l hl leaf hleaf
        rcases List.mem_cons.mp hl with rfl | hl
        · obtain rfl : element = .leaf leaf := hleaf
          exact h.read _ _ _ hread
        · exact ih hmore l hl leaf hleaf

/-- Nesting elements keeps the property of the leaves. -/
theorem nest (h : HoldsOfLexed p) {located : List Located} {stack : List OpenGroup}
    {done trees : List Tree} (hnest : Token.nest stack done located = some trees)
    (hlocated : ∀ l ∈ located, ∀ leaf, l.element = .leaf leaf → p leaf)
    (hstack : ∀ g ∈ stack, ∀ t ∈ g.before, t.All p) (hdone : ∀ t ∈ done, t.All p) :
    ∀ t ∈ trees, t.All p := by
  induction located generalizing stack done with
  | nil =>
    simp only [Token.nest] at hnest
    split at hnest
    · cases hnest
      simpa using hdone
    · cases hnest
  | cons l rest ih =>
    obtain ⟨element, span⟩ := l
    have hrest : ∀ l ∈ rest, ∀ leaf, l.element = .leaf leaf → p leaf :=
      fun l hl => hlocated l (List.mem_cons_of_mem _ hl)
    cases element with
    | blank => exact ih hnest hrest hstack hdone
    | doc inner comment =>
      refine ih hnest hrest hstack fun t ht => ?_
      rcases List.mem_append.mp ht with ht | ht
      · exact h.docAttribute inner comment _ t (List.mem_reverse.mp ht)
      · exact hdone t ht
    | leaf leaf =>
      refine ih hnest hrest hstack fun t ht => ?_
      rcases List.mem_cons.mp ht with rfl | ht
      · exact Leaf.at_all.mpr (hlocated _ List.mem_cons_self leaf rfl)
      · exact hdone t ht
    | opening delimiter =>
      refine ih hnest hrest (fun g hg => ?_) (by simp)
      rcases List.mem_cons.mp hg with rfl | hg
      · exact hdone
      · exact hstack g hg
    | closing delimiter =>
      cases stack with
      | nil => cases hnest
      | cons top stack =>
        simp only [Token.nest] at hnest
        split at hnest
        · refine ih hnest hrest (fun g hg => hstack g (List.mem_cons_of_mem _ hg)) fun t ht => ?_
          rcases List.mem_cons.mp ht with rfl | ht
          · exact Tree.allList_iff.mpr (by simpa using hdone)
          · exact hstack top List.mem_cons_self t ht
        · cases hnest

/-- Every leaf of a lexed text has the property. -/
theorem lex (h : HoldsOfLexed p) {source text : String} {trees : List Tree}
    (hlex : Token.lex source text = some trees) : ∀ t ∈ trees, t.All p := by
  unfold Token.lex at hlex
  split at hlex
  · cases hlex
    simp
  · split at hlex <;>
    · obtain ⟨located, hcut, hnest⟩ := Option.bind_eq_some_iff.mp hlex
      exact h.nest hnest (h.cut hcut) (by simp) (by simp)

end HoldsOfLexed

end KeyedModel.Token
