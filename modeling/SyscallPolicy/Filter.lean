import SyscallPolicy.Backend
/-! Filters: a default verdict, and rules for single system calls. -/
namespace SyscallPolicy

/-- A verdict on one system call. The rule applies when all its conditions hold. -/
structure Rule where
  number : Int
  verdict : Verdict
  conditions : List Condition := []
  deriving DecidableEq, Repr

def Rule.isConditional (rule : Rule) : Bool := !rule.conditions.isEmpty

/-- A default verdict for calls that no rule applies to, the architectures covered, the native one
first, and rules in the order they were added. -/
structure Filter where
  verdict : Verdict
  architectures : List Architecture
  noNewPrivs : Bool
  rules : List Rule
  deriving DecidableEq, Repr

namespace Filter

def empty (verdict : Verdict) : Filter := ⟨verdict, [.native], true, []⟩

def rulesFor (filter : Filter) (number : Int) : List Rule :=
  filter.rules.filter (·.number = number)

/-- Adds a rule at the end. A rule that repeats the default verdict is refused. -/
def addRule (rule : Rule) (filter : Filter) : Except Rejection Filter :=
  if rule.number < 0 then .error (.negativeNumber rule.number)
  else if rule.verdict = filter.verdict then .error (.repeatsDefault rule.number)
  else .ok { filter with rules := filter.rules ++ [rule] }

def addArchitecture (architecture : Architecture) (filter : Filter) : Filter :=
  if architecture ∈ filter.architectures then filter
  else { filter with architectures := filter.architectures ++ [architecture] }

def apply (filter : Filter) : Request → Except Rejection Filter
  | .addArchitecture architecture => .ok (filter.addArchitecture architecture)
  | .setNoNewPrivs on => .ok { filter with noNewPrivs := on }
  | .addRule number verdict => filter.addRule ⟨number, verdict, []⟩
  | .addConditionalRule number verdict conditions =>
    if conditions.isEmpty then .error (.noConditions number)
    else filter.addRule ⟨number, verdict, conditions⟩

def backend : Backend Filter where
  create verdict := .ok (empty verdict)
  apply request filter := (filter.apply request).mapError .rejection

end Filter

end SyscallPolicy
