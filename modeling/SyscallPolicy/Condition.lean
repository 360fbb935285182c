/-! Tests on the argument registers of a system call. -/
namespace SyscallPolicy

/-- How an argument is compared with a value, both unsigned. -/
inductive Comparison where
  | eq
  | ne
  | gt
  | ge
  | lt
  | le
  | maskedEq (mask : UInt64)
  deriving DecidableEq, Repr

namespace Comparison

def text : Comparison → String
  | eq => "Eq"
  | ne => "Ne"
  | gt => "Gt"
  | ge => "Ge"
  | lt => "Lt"
  | le => "Le"
  | maskedEq mask => "MaskedEq(" ++ toString mask.toNat ++ ")"

/-- Compares the argument `a` with `value`. A mask applies to both sides. -/
def holds (value a : UInt64) : Comparison → Bool
  | eq => a = value
  | ne => a ≠ value
  | gt => value < a
  | ge => value ≤ a
  | lt => a < value
  | le => a ≤ value
  | maskedEq mask => a &&& mask = value &&& mask

end Comparison

/-- A test on one of the six argument registers. -/
structure Condition where
  argument : Fin 6
  comparison : Comparison
  value : UInt64
  deriving DecidableEq, Repr

namespace Condition

def text (c : Condition) : String :=
  "SeccompCondition \x7b arg_index: " ++ toString c.argument.val ++
    ", arg_len: Qword, operator: " ++ c.comparison.text ++ ", value: " ++ toString c.value.toNat ++ " \x7d"

def holds (args : Fin 6 → UInt64) (c : Condition) : Bool :=
  c.comparison.holds c.value (args c.argument)

end Condition

inductive Operator where
  | equal
  | notEqual
  | greaterThan
  | greaterOrEqual
  | lessThan
  | lessOrEqual
  | maskedEqual
  deriving DecidableEq, Repr

namespace Operator

def all : List Operator :=
  [equal, notEqual, greaterThan, greaterOrEqual, lessThan, lessOrEqual, maskedEqual]

def name : Operator → String
  | equal => "SCMP_CMP_EQ"
  | notEqual => "SCMP_CMP_NE"
  | greaterThan => "SCMP_CMP_GT"
  | greaterOrEqual => "SCMP_CMP_GE"
  | lessThan => "SCMP_CMP_LT"
  | lessOrEqual => "SCMP_CMP_LE"
  | maskedEqual => "SCMP_CMP_MASKED_EQ"

def ofName? (text : String) : Option Operator := all.find? (·.name = text)

/-- The comparison that an operator stands for. Only the masked one uses the mask. -/
def comparison (mask : UInt64) : Operator → Comparison
  | equal => .eq
  | notEqual => .ne
  | greaterThan => .gt
  | greaterOrEqual => .ge
  | lessThan => .lt
  | lessOrEqual => .le
  | maskedEqual => .maskedEq mask

end Operator

end SyscallPolicy
