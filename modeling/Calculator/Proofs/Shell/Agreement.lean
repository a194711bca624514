import Calculator.Proofs.Shell.Headline
import Calculator.Proofs.Shell.Transcript
import Mathlib.Data.List.Forall2

/-!
# Batches and conversations

A batch runs the lines of an input up to the first failure, a conversation runs
all lines that are typed. The main statement is that on the same lines and in the
same colours the batch writes a beginning of what the conversation writes.
-/

namespace Calculator

namespace Command

open Turn

/-! ## Agreement -/

end Command

namespace Surroundings

open Command

variable {around : Surroundings} {color : ColorOption} {input : String}

end Surroundings

/-! ## Lines that are typed -/

namespace Command

end Command

namespace Surroundings

open Command

end Surroundings

end Calculator
