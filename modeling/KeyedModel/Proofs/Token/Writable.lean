import KeyedModel.Proofs.Token.Standing
import KeyedModel.Token.Printer

/-!
# Trees that can be written down

Printing puts nothing behind a joint punctuation character. For the text to be read back, the next
tree must then neither begin a comment with it nor, behind the mark of a lifetime, be anything but a
name. Trees that were read off a text are such; so are lists of them put behind each other, as long
as none ends in a mark that waits for more.
-/

namespace KeyedModel.Token

variable {t u : Tree} {a b trees : List Tree}

/-- The tree can follow the mark of a lifetime: it is no punctuation, and with the mark in front of
it there is no character literal. -/
structure Tree.NamesLifetime (t : Tree) : Prop where
  not_punct : ∀ c spacing place, t ≠ .punct c spacing place
  read : ∀ tail, Breaks tail →
    readElement ('\'' :: (t.print ++ tail)) =
      some (.leaf (.punct '\'' .joint), t.print ++ tail)

/-- Whether the second tree may directly follow the first one. -/
def Tree.Fits : Tree → Tree → Prop
  | .punct '\'' .joint _, u => u.NamesLifetime
  | .punct '/' .joint _, u => ∀ c spacing place, u = .punct c spacing place → c ∉ ['/', '*']
  | _, _ => True

/-- Anything may follow the tree. -/
def Tree.Free : Tree → Prop
  | .punct c spacing _ => c ≠ '\'' ∧ (c = '/' → spacing = .alone)
  | _ => True

/-- The last tree does not wait for another one. -/
def EndsFree (trees : List Tree) : Prop := ∀ t ∈ trees.getLast?, t.Free

mutual

/-- The leaves of the tree are read as themselves, and what is in a group is chained. -/
def Tree.Spelled : Tree → Prop
  | .ident name _ => (Leaf.ident name).Stands
  | .punct c spacing _ => c ∈ punctuation ∧ (c = '\'' → spacing = .joint)
  | .literal text _ => (Leaf.literal text).Stands
  | .group _ _ inner _ => Chained inner ∧ EndsFree inner

/-- Every tree may follow the one in front of it. -/
def Chained : List Tree → Prop
  | [] => True
  | [t] => t.Spelled
  | t :: next :: rest => t.Spelled ∧ t.Fits next ∧ Chained (next :: rest)

end

/-- The trees can be written down, and others behind them. -/
structure Writable (trees : List Tree) : Prop where
  chained : Chained trees
  endsFree : EndsFree trees

theorem Tree.Free.fits (h : t.Free) (u : Tree) : t.Fits u := by
  unfold Fits
  split
  · exact absurd rfl h.1
  · exact absurd (h.2 rfl) (by simp)
  · trivial

attribute [local simp] Chained

theorem chained_cons :
    Chained (t :: trees) ↔ t.Spelled ∧ (∀ next ∈ trees.head?, t.Fits next) ∧ Chained trees := by
  cases trees with
  | nil => simp
  | cons next rest => simp

/-- A list is chained if its parts are and the second may follow the first. -/
theorem chained_append :
    Chained (a ++ b) ↔
      Chained a ∧ Chained b ∧ ∀ t ∈ a.getLast?, ∀ next ∈ b.head?, t.Fits next := by
  induction a with
  | nil => simp
  | cons t rest ih =>
    rw [List.cons_append, chained_cons, chained_cons, ih]
    cases rest with
    | nil => simp [and_comm]
    | cons next more => simp [List.getLast?_cons_cons, and_assoc]

theorem Chained.spelled (h : Chained trees) : ∀ t ∈ trees, t.Spelled := by
  induction trees with
  | nil => simp
  | cons t rest ih =>
    obtain ⟨ht, -, hrest⟩ := chained_cons.mp h
    simpa using ⟨ht, ih hrest⟩

namespace EndsFree

theorem nil : EndsFree [] := by simp [EndsFree]

theorem append (ha : EndsFree a) (hb : EndsFree b) : EndsFree (a ++ b) := by
  intro t ht
  rw [List.getLast?_append] at ht
  cases hlast : b.getLast? with
  | none => exact ha t (by simpa [hlast] using ht)
  | some u =>
    obtain rfl : u = t := by simpa [hlast] using ht
    exact hb u hlast

theorem of_suffix (h : EndsFree trees) (hsuffix : a <:+ trees) : EndsFree a := by
  obtain ⟨front, rfl⟩ := hsuffix
  intro t ht
  exact h t (by simp [List.getLast?_append, Option.mem_def.mp ht])

end EndsFree

namespace Writable

theorem nil : Writable [] := ⟨trivial, .nil⟩

theorem append (ha : Writable a) (hb : Writable b) : Writable (a ++ b) := by
  refine ⟨?_, ha.endsFree.append hb.endsFree⟩
  rw [chained_append]
  exact ⟨ha.chained, hb.chained, fun t ht u _ => (ha.endsFree t ht).fits u⟩

theorem of_suffix (h : Writable trees) (hsuffix : a <:+ trees) : Writable a := by
  refine ⟨?_, h.endsFree.of_suffix hsuffix⟩
  obtain ⟨front, rfl⟩ := hsuffix
  have hchained := h.chained
  rw [chained_append] at hchained
  exact hchained.2.1

theorem of_prefix (h : Writable (a ++ b)) (ha : EndsFree a) : Writable a := by
  have hchained := h.chained
  rw [chained_append] at hchained
  exact ⟨hchained.1, ha⟩

/-- A tree that nothing need follow can be written down. -/
theorem singleton (ht : t.Spelled) (hfree : t.Free) : Writable [t] :=
  ⟨ht, by simpa [EndsFree] using hfree⟩

theorem ident {name : String} {place : Place} (h : (Leaf.ident name).Stands) :
    Writable [.ident name place] :=
  singleton h trivial

theorem literal {text : String} {place : Place} (h : (Leaf.literal text).Stands) :
    Writable [.literal text place] :=
  singleton h trivial

/-- Punctuation other than the mark of a lifetime can be written down alone. -/
theorem alone {c : Char} {place : Place} (h : c ∈ punctuation) (hquote : c ≠ '\'') :
    Writable [.punct c .alone place] :=
  singleton ⟨h, fun heq => absurd heq hquote⟩ ⟨hquote, fun _ => rfl⟩

theorem group {delimiter : Delimiter} {opening closing : Place} :
    Writable [.group delimiter opening trees closing] ↔ Writable trees := by
  constructor
  · intro h
    obtain ⟨hchained, hends⟩ : Chained trees ∧ EndsFree trees := h.chained
    exact ⟨hchained, hends⟩
  · intro h
    exact singleton ⟨h.chained, h.endsFree⟩ trivial

end Writable

end KeyedModel.Token
