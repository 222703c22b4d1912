import KeyedModel.Proofs.Argument.Gathering
import KeyedModel.Proofs.Grammar.WholeText

/-!
# Where labels come from

A label of an accepted argument list is a word of that list. So whatever holds of every word that
the lexer makes holds of every label.
-/

namespace KeyedModel

open Token (Tree Place)
open Grammar (ArgumentShape Meaning Reply)
open Grammar.Rule

variable {meaning : Meaning} {closing : Place} {trees : List Tree}

namespace Grammar

/-- A path of one word begins with the word that comes next. -/
theorem argumentPath_word {reply : Reply Unit} {label : String} {place : Place}
    (h : argumentPath.run meaning closing trees = .ok reply)
    (hword : reply.printed = [.ident label place]) : .ident label place ∈ trees := by
  obtain ⟨a, b, ha, -, rfl⟩ := run_bind_eq_ok.mp h
  rw [run_next_bind] at ha
  split at ha
  · obtain ⟨c, d, hc, -, rfl⟩ := run_bind_eq_ok.mp ha
    obtain ⟨taken, rest, hmatch, rfl⟩ := run_anyWord_eq_ok.mp hc
    obtain ⟨w, spot, rfl, rfl⟩ := Terminal.match?_anyWord.mp hmatch
    have heq : Tree.ident w spot = .ident label place := (List.cons.inj hword).1
    rw [heq]
    exact List.mem_cons_self
  · cases ha

/-- Looking for a literal takes nothing. -/
theorem literalFollows_rest {reply : Reply Bool}
    (h : literalFollows.run meaning closing trees = .ok reply) : reply.rest = trees := by
  rw [literalFollows, run_nextAny_bind] at h
  split at h
  · cases h
    rfl
  · cases h
    rfl

/-- The label of an argument with a value is the word that comes next. -/
theorem argument_label {reply : Reply ArgumentShape} {label : String} {place : Place}
    {isLiteral : Bool} {value : List Tree}
    (h : argument.run meaning closing trees = .ok reply)
    (hshape : reply.value = .assigned [.ident label place] isLiteral value) :
    .ident label place ∈ trees := by
  obtain ⟨a, b, ha, hb, rfl⟩ := run_bind_eq_ok.mp h
  obtain rfl := literalFollows_rest ha
  split at hb
  · obtain ⟨c, d, -, hd, rfl⟩ := run_bind_eq_ok.mp hb
    cases hd
    cases hshape
  rw [run_next_bind] at hb
  split at hb
  · obtain ⟨c, d, hc, hd, rfl⟩ := run_bind_eq_ok.mp hb
    obtain ⟨path, hpath, rfl⟩ := run_held_eq_ok.mp hc
    rw [run_nextAny_bind] at hd
    split at hd
    · obtain ⟨e, f, -, hf, rfl⟩ := run_bind_eq_ok.mp hd
      cases hf
      cases hshape
    obtain ⟨e, f, -, hf, rfl⟩ := run_bind_eq_ok.mp hd
    split at hf
    · obtain ⟨g, k, -, hk, rfl⟩ := run_bind_eq_ok.mp hf
      cases hk
      exact argumentPath_word hpath (ArgumentShape.assigned.inj hshape).1
    · cases hf
      cases hshape
  · cases hb

/-- Every label with a value in a list is a word of the list. -/
theorem arguments_label (hmeaning : meaning.GoesForward) {reply : Reply (List ArgumentShape)}
    {label : String} {place : Place} {isLiteral : Bool} {value : List Tree}
    (h : Rule.arguments.run meaning closing trees = .ok reply)
    (hmem : .assigned [.ident label place] isLiteral value ∈ reply.value) :
    .ident label place ∈ trees := by
  obtain ⟨a, b, ha, hb, rfl⟩ := run_bind_eq_ok.mp h
  cases hb
  let keeps (found : List (Listed ArgumentShape)) (rest : List Tree) : Prop :=
    rest <:+ trees ∧ ∀ l ∈ found, ∀ label place isLiteral value,
      l.element = .assigned [.ident label place] isLiteral value → .ident label place ∈ trees
  have hfound : keeps a.value a.rest := by
    refine iterate_induct keeps keeps ?_ ⟨List.suffix_rfl, by simp⟩ ha
    intro found rest c hkeeps hc
    rw [run_next_bind] at hc
    split at hc
    · cases hc
      exact hkeeps
    obtain ⟨d, e, hd, he, rfl⟩ := run_bind_eq_ok.mp hc
    have hrest : d.rest <:+ trees := (run_suffix hmeaning hd).trans hkeeps.1
    have hmore (comma : List Tree) : ∀ l ∈ found ++ [⟨d.value, comma⟩],
        ∀ label place isLiteral value,
          l.element = .assigned [.ident label place] isLiteral value →
            .ident label place ∈ trees := by
      intro l hl label place isLiteral value hshape
      rcases List.mem_append.mp hl with hl | hl
      · exact hkeeps.2 l hl label place isLiteral value hshape
      · obtain rfl := List.mem_singleton.mp hl
        exact hkeeps.1.subset (argument_label hd hshape)
    rw [run_next_bind] at he
    split at he
    · cases he
      exact ⟨hrest, hmore []⟩
    · obtain ⟨f, g, hf, hg, rfl⟩ := run_bind_eq_ok.mp he
      cases hg
      exact ⟨(run_suffix hmeaning hf).trans hrest, hmore _⟩
  obtain ⟨l, hl, hshape⟩ := List.mem_map.mp hmem
  exact hfound.2 l hl _ _ _ _ hshape

end Grammar

/-- Only a word with a literal behind it gives a labeled argument. -/
theorem eq_assigned_of_ofShape {shape : ArgumentShape} {label : String} {literal : TextLiteral}
    (h : Argument.ofShape shape = .ok (.labeled label literal)) :
    ∃ place value, shape = .assigned [.ident label place] true value := by
  unfold Argument.ofShape at h
  split at h
  · rename_i trees
    cases ht : TextLiteral.ofTrees trees <;> simp [ht, Except.map] at h
  · cases h
  · cases h
  · rename_i word place value
    cases ht : TextLiteral.ofTrees value with
    | error e => simp [ht, Except.map] at h
    | ok l =>
      obtain ⟨rfl, -⟩ : word = label ∧ l = literal := by simpa [ht, Except.map] using h
      exact ⟨place, value, rfl⟩
  · cases h
  · cases h

/-- The label of an accepted argument is a word of the list. -/
theorem Argument.label_mem {arguments : List Argument} {label : String} {literal : TextLiteral}
    (h : Argument.ofTrees trees = .ok arguments) (hmem : .labeled label literal ∈ arguments) :
    ∃ place, .ident label place ∈ trees := by
  unfold Argument.ofTrees at h
  split at h
  · cases h
  rename_i shapes hread
  split at h
  · cases h
  rename_i accepted hgather
  cases h
  obtain ⟨⟨found, printed⟩, hrun, rfl⟩ : ∃ r, Grammar.readAll Grammar.Rule.arguments trees = .ok r ∧
      r.1 = shapes := by
    unfold Grammar.readArguments at hread
    cases hall : Grammar.readAll Grammar.Rule.arguments trees with
    | error e => simp [hall, Except.map] at hread
    | ok r => exact ⟨r, rfl, by simpa [hall, Except.map] using hread⟩
  have hshape : Except.ok (.labeled label literal) ∈ found.map ofShape := by
    rw [gather_eq_ok.mp hgather]
    exact List.mem_map_of_mem hmem
  obtain ⟨shape, hshapeMem, hshape⟩ := List.mem_map.mp hshape
  obtain ⟨place, value, rfl⟩ := eq_assigned_of_ofShape hshape
  exact ⟨place, Grammar.arguments_label (Grammar.meaningFor_goesForward trees)
    (Grammar.readAll_eq_ok.mp hrun) hshapeMem⟩

end KeyedModel
