import SyscallPolicy.Verdict
/-! The actions that a policy can name. -/
namespace SyscallPolicy

inductive ActionName where
  | kill
  | killProcess
  | errno
  | trap
  | allow
  | trace
  | log
  deriving DecidableEq, Repr

namespace ActionName

def all : List ActionName := [kill, killProcess, errno, trap, allow, trace, log]

def name : ActionName → String
  | kill => "SCMP_ACT_KILL"
  | killProcess => "SCMP_ACT_KILL_PROCESS"
  | errno => "SCMP_ACT_ERRNO"
  | trap => "SCMP_ACT_TRAP"
  | allow => "SCMP_ACT_ALLOW"
  | trace => "SCMP_ACT_TRACE"
  | log => "SCMP_ACT_LOG"

/-- Finds an action by its name; killing the thread has a second one. -/
def ofName? (text : String) : Option ActionName :=
  if text = "SCMP_ACT_KILL_THREAD" then some kill else all.find? (·.name = text)

def takesCode : ActionName → Bool
  | errno | trace => true
  | _ => false

/-- The code of an action that takes one and is given none: EPERM. -/
def defaultCode : UInt16 := 1

/-- The verdict that an action stands for. The code matters only to an action that takes one. -/
def verdict (code : Option UInt16) : ActionName → Verdict
  | kill => .killThread
  | killProcess => .killProcess
  | errno => .errno (code.getD defaultCode).toUInt32
  | trap => .trap
  | allow => .allow
  | trace => .trace (code.getD defaultCode).toUInt32
  | log => .log

end ActionName

end SyscallPolicy
