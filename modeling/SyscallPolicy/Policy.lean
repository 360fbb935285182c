/-! Policy documents. Names in them are kept as written, whether or not anything has that name. -/
namespace SyscallPolicy

structure ArgCheck where
  index : UInt32
  value : UInt64 := 0
  valueTwo : UInt64 := 0
  op : String
  deriving DecidableEq, Repr

namespace ArgCheck

/-- The check that an argument equals `value` in the bits of `mask`. -/
def masked (index : UInt32) (mask value : UInt64) : ArgCheck :=
  ⟨index, value, mask, "SCMP_CMP_MASKED_EQ"⟩

end ArgCheck

/-- What a policy says about one system call: an action, and checks on the arguments. -/
structure Entry where
  name : String := ""
  action : String := ""
  errnoRet : Option UInt16 := none
  args : List (Option ArgCheck) := []
  deriving DecidableEq, Repr

/-- A policy: an action for every call that no entry matches, more architectures than the native
one, and the entries. An entry or a check may be null. -/
structure Policy where
  defaultAction : String
  architectures : List String := []
  syscalls : List (Option Entry) := []
  deriving DecidableEq, Repr

def Policy.entries (policy : Policy) : List Entry := policy.syscalls.filterMap id

end SyscallPolicy
