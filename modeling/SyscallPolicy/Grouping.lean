/-! How the conditions of one entry combine into rules. -/
namespace SyscallPolicy

/-- Conditions on different arguments must all hold. As soon as two are on the same argument, one
condition that holds is enough. -/
inductive Combination where
  | all
  | any
  deriving DecidableEq, Repr

namespace Combination
variable {κ α : Type} [DecidableEq κ]

def ofIndices (indices : List κ) : Combination :=
  if indices.any fun i => 1 < indices.count i then any else all

/-- Splits conditions, each with the argument it is on, into groups: a rule for each group applies
when all conditions in it hold. -/
def groups (conditions : List (κ × α)) : List (List α) :=
  if conditions.isEmpty then []
  else
    match ofIndices (conditions.map (·.1)) with
    | all => [conditions.map (·.2)]
    | any => conditions.map fun c => [c.2]

end Combination

end SyscallPolicy
