import KeyedModel.Proofs.Attribute.Reports
import KeyedModel.Proofs.Attribute.Texts
import KeyedModel.Proofs.Grammar.Structs

/-!
# Diagnostics in an output

The diagnostics of a refusal are read off its output again. A struct is not taken for a diagnostic,
since it begins with an attribute or with a word, so generated code has none. And the refusal of a
target is told from every other diagnostic by the mark that its message begins with.
-/

namespace KeyedModel

open Token (Tree sign word)
open Grammar (StructItem Cause SyntaxError readItem)
open Generated (isSign Lacks)

variable {diagnostics : List Diagnostic} {trees tokens rest : List Tree} {s : StructItem}

/-! ### Reading diagnostics -/

namespace Diagnostic

/-- A diagnostic begins with a colon. -/
theorem read?_eq_none {t : Tree} (h : isSign ':' t = false) : read? (t :: rest) = none := by
  rw [read?.eq_def]
  split
  · rename_i heq
    obtain ⟨rfl, -⟩ := List.cons.inj heq
    cases h
  · rfl

/-- The messages of the diagnostics in front of some trees. -/
def messages (trees : List Tree) : List String := (leading trees).1.map (·.message)

/-- Where nothing is read no diagnostic is found. -/
theorem leadingUpTo_of_none (h : read? tokens = none) (limit : Nat) :
    leadingUpTo limit tokens = ([], tokens) := by
  cases limit with
  | zero => rfl
  | succ limit => simp [leadingUpTo, h]

/-- The diagnostics of a refusal come first. -/
theorem messages_leadingUpTo (diagnostics : List Diagnostic) (tokens : List Tree) (limit : Nat) :
    (leadingUpTo (diagnostics.length + limit) (refused diagnostics tokens)).1.map (·.message) =
      diagnostics.map (·.message) ++ (leadingUpTo limit tokens).1.map (·.message) := by
  induction diagnostics with
  | nil => simp [refused]
  | cons d more ih =>
    obtain ⟨found, hfound, hmessage⟩ := d.message_of_read? (refused more tokens)
    have hrefused : refused (d :: more) tokens = d.trees ++ refused more tokens := by
      simp [refused]
    rw [hrefused, List.length_cons, Nat.add_right_comm, leadingUpTo, hfound]
    simp only [List.map_cons, List.cons_append, ih, hmessage]

theorem length_le_refused (diagnostics : List Diagnostic) (tokens : List Tree) :
    diagnostics.length ≤ (refused diagnostics tokens).length := by
  induction diagnostics with
  | nil => exact Nat.zero_le _
  | cons d more ih =>
    have htrees : 0 < d.trees.length := by simp [Diagnostic.trees, reportingPath, Token.operator]
    simp only [refused, List.flatMap_cons, List.length_cons, List.length_append] at ih ⊢
    omega

/-- A refusal begins with the messages of its diagnostics. -/
theorem messages_refused (diagnostics : List Diagnostic) (tokens : List Tree) :
    ∃ more, messages (refused diagnostics tokens) = diagnostics.map (·.message) ++ more := by
  obtain ⟨limit, hlimit⟩ := Nat.exists_eq_add_of_le (length_le_refused diagnostics tokens)
  refine ⟨(leadingUpTo limit tokens).1.map (·.message), ?_⟩
  rw [messages, leading, hlimit]
  exact messages_leadingUpTo diagnostics tokens limit

theorem messages_of_none (h : read? trees = none) : messages trees = [] := by
  rw [messages, leading, leadingUpTo_of_none h]
  rfl

end Diagnostic

/-- A struct begins with an attribute or with a word. -/
theorem Grammar.StructItem.read?_header (hread : readItem trees = .ok (.struct s, tokens))
    (more : List Tree) : Diagnostic.read? (s.header ++ more) = none := by
  obtain ⟨hwas, -⟩ := Grammar.struct_of_readItem hread
  have hvisibility : Lacks ':' s.visibility := Grammar.lacks_visibility hread ':'
  obtain hattributes | ⟨place, others, hattributes⟩ := hwas.attributes
  · cases hnone : s.visibility with
    | nil =>
      rw [header, hattributes, hnone]
      exact Diagnostic.read?_eq_none rfl
    | cons t others =>
      rw [hnone] at hvisibility
      rw [header, hattributes, hnone]
      exact Diagnostic.read?_eq_none (Generated.lacks_cons.mp hvisibility).1
  · rw [header, hattributes]
    exact Diagnostic.read?_eq_none rfl

/-- Generated code has no diagnostic. -/
theorem Expands.messages_trees {arguments item : List Tree} {g : Generated}
    (h : Expands arguments item g) : Diagnostic.messages g.trees = [] := by
  obtain ⟨tokens, hread⟩ := h.read
  refine Diagnostic.messages_of_none ?_
  simp only [Generated.trees, Generated.structTrees, List.append_assoc]
  exact StructItem.read?_header hread _

/-! ### Messages -/

/-- The message begins, but not with the mark of an attribute. -/
def Unmarked (message : String) : Prop := ∃ c more, c ≠ '#' ∧ message.toList = c :: more

theorem Unmarked.append {front : String} (h : Unmarked front) (back : String) :
    Unmarked (front ++ back) := by
  obtain ⟨c, more, hc, hfront⟩ := h
  exact ⟨c, more ++ back.toList, hc, by rw [String.toList_append, hfront, List.cons_append]⟩

end KeyedModel
