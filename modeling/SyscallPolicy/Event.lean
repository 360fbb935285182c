import SyscallPolicy.Architecture
import SyscallPolicy.Verdict
/-! What the log says while policies are built and installed. -/
namespace SyscallPolicy

inductive Level where
  | error
  | warn
  | info
  | debug
  | trace
  deriving DecidableEq, Repr

namespace Level

def name : Level → String
  | error => "ERROR"
  | warn => "WARN"
  | info => "INFO"
  | debug => "DEBUG"
  | trace => "TRACE"

/-- How many levels matter at least as much. -/
def rank : Level → Nat
  | error => 1
  | warn => 2
  | info => 3
  | debug => 4
  | trace => 5

end Level

inductive Event where
  | validating (path : String)
  | compiling (path : String)
  | checking
  | unknownSyscall (name : String)
  | ruleAdded (name : String) (number : Int) (verdict : Verdict)
  | conditionalRules (name : String) (number : Int) (verdict : Verdict) (count : Nat)
  | built (verdict : Verdict) (entries : Nat)
  | valid (rules : Nat)
  | architectureSkipped (architecture : Architecture)
  | lowered (rules programs : Nat)
  | nothingToInstall
  | installing (programs : Nat) (verdict : Verdict)
  deriving DecidableEq, Repr

namespace Event

def level : Event → Level
  | validating _ | compiling _ | checking => .info
  | unknownSyscall _ | ruleAdded _ _ _ | conditionalRules _ _ _ _ => .debug
  | built _ _ => .info
  | valid _ => .debug
  | architectureSkipped _ => .warn
  | lowered _ _ => .debug
  | nothingToInstall | installing _ _ => .info

/-- The part of the program that an event comes from, as log filters name it. -/
def source : Event → String
  | validating _ | compiling _ | checking => "policy_ctl::commands"
  | unknownSyscall _ | ruleAdded _ _ _ | conditionalRules _ _ _ _ => "policy_seccomp::compiler"
  | built _ _ => "policy_seccomp::filter"
  | valid _ => "policy_seccomp::validate"
  | architectureSkipped _ | lowered _ _ | nothingToInstall | installing _ _ => "policy_seccomp::bpf"

def text : Event → String
  | validating path => "Validating " ++ path
  | compiling path => "Compiling " ++ path
  | checking => "Checking seccomp support"
  | unknownSyscall name => "Seccomp: skipping unknown syscall " ++ name
  | ruleAdded name number verdict =>
    "Seccomp: " ++ name ++ " (" ++ toString number ++ ") -> " ++ verdict.text
  | conditionalRules name number verdict count =>
    "Seccomp: " ++ name ++ " (" ++ toString number ++ ") -> " ++ verdict.text ++ " in " ++
      toString count ++ " rule(s)"
  | built verdict entries =>
    "Seccomp: built filter with default " ++ verdict.text ++ " for " ++ toString entries ++
      " syscall entries"
  | valid rules => "Seccomp: policy valid, " ++ toString rules ++ " rule(s)"
  | architectureSkipped architecture =>
    "Seccomp: skipping " ++ architecture.name ++ ", only the native architecture is lowered"
  | lowered rules programs =>
    "Seccomp: lowered " ++ toString rules ++ " rule(s) to " ++ toString programs ++ " program(s)"
  | nothingToInstall => "Seccomp: filter allows every syscall, nothing to install"
  | installing programs verdict =>
    "Seccomp: installing " ++ toString programs ++ " program(s), default " ++ verdict.text

def line (event : Event) : String := event.level.name ++ " " ++ event.text

end Event

/-- A result together with the events on the way to it, in order. -/
structure Logged (α : Type) where
  events : List Event
  result : α
  deriving DecidableEq, Repr

end SyscallPolicy
