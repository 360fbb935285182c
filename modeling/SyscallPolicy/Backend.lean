import SyscallPolicy.Architecture
import SyscallPolicy.Condition
import SyscallPolicy.PolicyError
import SyscallPolicy.Verdict
/-! What filters are built into. -/
namespace SyscallPolicy

/-- What a build asks of the filter under construction. -/
inductive Request where
  | addArchitecture (architecture : Architecture)
  | setNoNewPrivs (on : Bool)
  | addRule (number : Int) (verdict : Verdict)
  | addConditionalRule (number : Int) (verdict : Verdict) (conditions : List Condition)
  deriving DecidableEq, Repr

/-- A target of builds. It starts from a default verdict and takes requests one by one, and it may
refuse both. -/
structure Backend (β : Type) where
  create : Verdict → Except Cause β
  apply : Request → β → Except Cause β

structure Recording where
  verdict : Verdict
  requests : List Request
  deriving DecidableEq, Repr

/-- Records everything except the call with number `failAt`, creation being call 0, which it refuses
for the given cause. -/
def Recording.backend (failAt : Option Nat) (cause : Cause) : Backend Recording where
  create verdict := if failAt = some 0 then .error cause else .ok ⟨verdict, []⟩
  apply request recording :=
    if failAt = some (recording.requests.length + 1) then .error cause
    else .ok { recording with requests := recording.requests ++ [request] }

end SyscallPolicy
