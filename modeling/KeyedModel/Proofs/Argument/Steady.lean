import KeyedModel.Proofs.Argument.Segments
import KeyedModel.Proofs.Grammar.SteadyItems

/-!
# Arguments in front of a comma

An argument is read in the same way whatever stands behind the comma that follows it.
-/

namespace KeyedModel

open Token (Tree)
open Grammar (Behind Meaning Sight)

set_option synthInstance.maxSize 10000000

variable {listed : Bool}

namespace Grammar.Rule

instance : argumentPath.Steady listed := by unfold argumentPath; infer_instance

/-- An equality sign matters only behind a truth value, which is not the comma. -/
instance : literalFollows.Steady listed :=
  steady_seen (.word "true") (steady_sees (.op "=") (Nat.le_refl 1) fun _ => inferInstance)
    (steady_seen (.word "false") (steady_sees (.op "=") (Nat.le_refl 1) fun _ => inferInstance)
      (inferInstanceAs ((next .literal).Steady listed)))

instance : argument.Steady listed := by unfold argument; infer_instance

end Grammar.Rule

end KeyedModel
