import KeyedModel.Proofs.Attribute.Diagnosed
import KeyedModel.Proofs.Attribute.Reapplied
import KeyedModel.Proofs.Grammar.Printing

/-!
# What a failure leaves of an item

An attribute that fails puts out its diagnostics and behind them the item as it was read, whichever
stage has failed, and generates nothing. But an item that cannot be read is lost: then the output is
the diagnostic alone.
-/

namespace KeyedModel

open Token (Tree lex)
open Grammar (Item StructItem SyntaxError PrintedAs readItem)

variable {arguments item tokens : List Tree} {diagnostics : List Diagnostic}

/-- A refused argument list has an error. -/
theorem Refusal.diagnostics_ne_nil {own : List String} {refusal : Refusal}
    (h : Field.ofList own arguments = .error refusal) : refusal.diagnostics ≠ [] := by
  unfold Field.ofList at h
  split at h
  · rename_i e harguments
    obtain rfl := Except.error.inj h
    cases e with
    | grammar e => exact List.cons_ne_nil _ _
    | arguments errors =>
      have hne : errors ≠ [] := by
        unfold Argument.ofTrees at harguments
        split at harguments
        · cases harguments
        · split at harguments
          · rename_i hgather
            cases harguments
            exact (gather_eq_error.mp hgather).1
          · cases harguments
      simpa [diagnostics, Diagnostic.ofArgumentList] using hne
  · split at h
    · rename_i errors hfields
      obtain rfl := Except.error.inj h
      have hne : errors ≠ [] := (gather_eq_error.mp hfields).1
      simpa [diagnostics] using hne
    · cases h

/-- Whatever is refused is refused with a diagnostic. -/
theorem Refuses.diagnostics_ne_nil (h : Refuses arguments item diagnostics tokens) :
    diagnostics ≠ [] := by
  cases h with
  | unread => exact List.cons_ne_nil _ _
  | unexpanded hread hof =>
    rcases Expansion.of_eq_error.mp hof with ⟨-, hlist⟩ | ⟨found, -, rfl⟩
    · exact Refusal.diagnostics_ne_nil hlist
    · exact List.cons_ne_nil _ _

/-- Nothing is put out for a refused item exactly if it cannot be read. -/
theorem Refuses.tokens_eq_nil_iff (h : Refuses arguments item diagnostics tokens) :
    tokens = [] ↔ ∃ e, readItem item = .error e := by
  cases h with
  | unread hread => exact iff_of_true rfl ⟨_, hread⟩
  | unexpanded hread =>
    refine iff_of_false (Grammar.printedAs_of_readItem hread).ne_nil ?_
    rintro ⟨e, herror⟩
    cases hread.symm.trans herror

/-- A refused item that can be read is put out as it prints. -/
theorem Refuses.printedAs (h : Refuses arguments item diagnostics tokens) {read : Item}
    {printed : List Tree} (hread : readItem item = .ok (read, printed)) :
    tokens = printed ∧ PrintedAs item read printed := by
  refine ⟨?_, Grammar.printedAs_of_readItem hread⟩
  cases h with
  | unread herror => cases hread.symm.trans herror
  | unexpanded hagain => exact (Prod.mk.inj (Except.ok.inj (hagain.symm.trans hread))).2

/-- An attribute that is applied reports something exactly if it generates nothing. Then what is put
out is the diagnostics and the item as it prints, alike for all arguments that are refused; but
nothing is put out of an item that cannot be read. -/
theorem applyAttribute_failure {output : List Tree} (h : applyAttribute arguments item = .ok output) :
    (Diagnostic.messages output ≠ [] ↔ ∀ g, ¬ Expands arguments item g) ∧
      (Diagnostic.messages output ≠ [] →
        ∃ diagnostics tokens, Refuses arguments item diagnostics tokens ∧ diagnostics ≠ [] ∧
          output = refused diagnostics tokens ∧
          (tokens = [] ↔ ∃ e, readItem item = .error e) ∧
          (∀ read printed, readItem item = .ok (read, printed) →
            tokens = printed ∧ PrintedAs item read printed) ∧
          ∀ other others out, Refuses other item others out → out = tokens) := by
  rcases applyAttribute_eq_ok.mp h with ⟨g, hexpands, rfl⟩ | ⟨diagnostics, tokens, hrefuses, rfl⟩
  · have hnone := hexpands.messages_trees
    exact ⟨iff_of_false (fun hne => hne hnone) fun hnot => hnot g hexpands,
      fun hne => absurd hnone hne⟩
  · obtain ⟨more, hmessages⟩ := Diagnostic.messages_refused diagnostics tokens
    have hne : Diagnostic.messages (refused diagnostics tokens) ≠ [] := by
      rw [hmessages]
      exact List.append_ne_nil_of_left_ne_nil (by simpa using hrefuses.diagnostics_ne_nil) more
    refine ⟨iff_of_true hne fun g hexpands => ?_, fun _ => ?_⟩
    · have heq : refused diagnostics tokens = g.trees :=
        Except.ok.inj (h.symm.trans hexpands.apply)
      rw [heq] at hne
      exact hne hexpands.messages_trees
    · exact ⟨diagnostics, tokens, hrefuses, hrefuses.diagnostics_ne_nil, rfl,
        hrefuses.tokens_eq_nil_iff, fun _ _ hread => hrefuses.printedAs hread,
        fun _ _ _ hother => hrefuses.tokens_eq hother⟩

/-- The output for two texts: the messages, and the text that follows the diagnostics. -/
def reportedText (attr text : String) : Option (List String × String) :=
  (lex "attr" attr).bind fun arguments =>
    (lex "item" text).bind fun item =>
      (applyAttribute arguments item).toOption.map fun output =>
        (Diagnostic.messages output, Token.text (Diagnostic.leading output).2)

/-- An output that is computed is that of the attribute. -/
theorem exists_reportedText {attr text rest : String} {messages : List String}
    (h : reportedText attr text = some (messages, rest)) :
    ∃ arguments item output, lex "attr" attr = some arguments ∧ lex "item" text = some item ∧
      applyAttribute arguments item = .ok output ∧ Diagnostic.messages output = messages ∧
        Token.text (Diagnostic.leading output).2 = rest := by
  obtain ⟨arguments, hattr, h⟩ := Option.bind_eq_some_iff.mp h
  obtain ⟨item, hitem, h⟩ := Option.bind_eq_some_iff.mp h
  cases houtput : applyAttribute arguments item with
  | error e => simp [houtput, Except.toOption] at h
  | ok output =>
    obtain ⟨hmessages, hrest⟩ : Diagnostic.messages output = messages ∧
        Token.text (Diagnostic.leading output).2 = rest := by
      simpa [houtput, Except.toOption] using h
    exact ⟨arguments, item, output, hattr, hitem, houtput, hmessages, hrest⟩

/-- A struct is put out behind the one message about an argument without a key. -/
theorem applyAttribute_failure_struct :
    ∃ arguments item output, lex "attr" "x" = some arguments ∧
      lex "item" "struct A;" = some item ∧ applyAttribute arguments item = .ok output ∧
        Diagnostic.messages output = ["expected `name = \"key\"` or a string literal"] ∧
          Token.text (Diagnostic.leading output).2 = "struct A ;" ∧
            ∃ diagnostics tokens, Refuses arguments item diagnostics tokens ∧
              output = refused diagnostics tokens := by
  have hout : reportedText "x" "struct A;" =
      some (["expected `name = \"key\"` or a string literal"], "struct A ;") := by
    decide +kernel
  obtain ⟨arguments, item, output, hattr, hitem, happly, hmessages, hrest⟩ :=
    exists_reportedText hout
  obtain ⟨diagnostics, tokens, hrefuses, -, houtput, -⟩ :=
    (applyAttribute_failure happly).2 (by simp [hmessages])
  exact ⟨arguments, item, output, hattr, hitem, happly, hmessages, hrest, diagnostics, tokens,
    hrefuses, houtput⟩

/-- What is no item is lost: nothing follows the diagnostic. -/
theorem not_forall_failure_keeps_item :
    ¬ ∀ attr text arguments item output, lex "attr" attr = some arguments →
      lex "item" text = some item → applyAttribute arguments item = .ok output →
        Diagnostic.messages output ≠ [] →
          Token.text (Diagnostic.leading output).2 = Token.text item := by
  intro h
  have hout : reportedText "" "not an item" = some (["expected `!`"], "") := by decide +kernel
  obtain ⟨arguments, item, output, hattr, hitem, happly, hmessages, hrest⟩ :=
    exists_reportedText hout
  have hkept := h _ _ arguments item output hattr hitem happly (by simp [hmessages])
  have hwritten : (lex "item" "not an item").map Token.text = some "not an item" := by
    decide +kernel
  rw [hitem, Option.map_some, Option.some.injEq, ← hkept, hrest] at hwritten
  exact absurd hwritten (by decide)

end KeyedModel
