import Mathlib.Algebra.Ring.Int.Defs
import Mathlib.Algebra.Ring.Nat
import OptionsApi.Proofs.OptionsObject.Outcome

/-! Why a component has no tree. A component that lacks nothing is assembled; of everything that a
component lacks, what comes first in the order of its members is the failure of the assembly. -/

set_option autoImplicit false

namespace OptionsApi

def namelessClass (line : Int) : Component := { head := { line := some line } }

end OptionsApi
