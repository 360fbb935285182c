import SyscallPolicy.Json.Fault
import SyscallPolicy.Kernel.Errno
/-! Why a policy cannot be read, built, lowered or installed. -/
namespace SyscallPolicy
open Kernel (Errno)

inductive Rejection where
  | repeatsDefault (number : Int)
  | noConditions (number : Int)
  | negativeNumber (number : Int)
  deriving DecidableEq, Repr

def Rejection.text : Rejection → String
  | repeatsDefault _ => "requested action matches default action of filter"
  | noConditions number =>
    "conditional rule for syscall " ++ toString number ++ " has no conditions"
  | negativeNumber number => "invalid syscall number " ++ toString number

inductive LoweringFault where
  | tooLong (length : Nat)
  | equalVerdicts
  | emptyRule
  | seccompBlocked (programs : Nat)
  /-- A system call's number does not fit in 32 bits. -/
  | numberTooWide
  /-- The way to the failure of a rule does not fit in 8 bits. -/
  | offsetOverflow
  deriving DecidableEq, Repr

def LoweringFault.text : LoweringFault → String
  | tooLong length =>
    "The seccomp filter contains too many BPF instructions: " ++ toString length ++
      ". Max length is 4096."
  | equalVerdicts => "The match and mismatch actions are equal."
  | emptyRule => "The condition vector of a rule is empty."
  | seccompBlocked programs =>
    toString programs ++ " programs block the seccomp syscall, only the last one installed may"
  | numberTooWide => "The syscall number does not fit in 32 bits."
  | offsetOverflow => "attempt to add with overflow"

/-- What lies beneath an error. -/
inductive Cause where
  | json (fault : Json.Fault)
  | indexTooWide
  | indexTooGreat
  | rejection (reason : Rejection)
  | lowering (fault : LoweringFault)
  | system (e : Errno)
  | notUtf8
  | notSynchronized (thread : Nat)
  /-- A failure that another program reports, with causes of its own, the outermost first. -/
  | reported (text : String) (beneath : List String)
  deriving DecidableEq, Repr

/-- The texts of a cause and of its own causes, the outermost first. -/
def Cause.texts : Cause → List String
  | json fault => [fault.message]
  | indexTooWide => ["number too large to fit in target type"]
  | indexTooGreat =>
    ["The seccomp rule contains an invalid argument index. Maximum index value: 5"]
  | rejection reason => [reason.text]
  | lowering fault => [fault.text]
  | system e => [e.text]
  | notUtf8 => ["stream did not contain valid UTF-8"]
  | notSynchronized thread =>
    ["thread " ++ toString thread ++ " could not be synchronized to the filter"]
  | reported text beneath => text :: beneath

inductive PolicyError where
  | decode (cause : Cause)
  | invalidAction (name : String)
  | invalidOperator (name : String)
  | invalidArchitecture (name : String)
  | emptySyscallName
  | nullEntry
  | nullCheck
  | conditionConstruction (index : UInt32) (cause : Cause)
  | filterCreation (action : String) (cause : Cause)
  | architectureRegistration (name : String) (cause : Cause)
  | ruleAddition (syscall : String) (cause : Cause)
  | noNewPrivs (cause : Cause)
  | lowering (cause : Cause)
  | install (cause : Cause)
  | io (cause : Cause)
  | inDefaultAction (error : PolicyError)
  | inAction (syscall : String) (error : PolicyError)
  | inCondition (syscall : String) (error : PolicyError)
  | inBuild (error : PolicyError)
  deriving DecidableEq, Repr

inductive ErrorKind where
  | decode
  | invalidAction
  | invalidOperator
  | invalidArchitecture
  | emptySyscallName
  | nullEntry
  | nullCheck
  | conditionConstruction
  | filterCreation
  | architectureRegistration
  | ruleAddition
  | noNewPrivs
  | lowering
  | install
  | io
  deriving DecidableEq, Repr

namespace PolicyError

def kind : PolicyError → ErrorKind
  | decode _ => .decode
  | invalidAction _ => .invalidAction
  | invalidOperator _ => .invalidOperator
  | invalidArchitecture _ => .invalidArchitecture
  | emptySyscallName => .emptySyscallName
  | nullEntry => .nullEntry
  | nullCheck => .nullCheck
  | conditionConstruction _ _ => .conditionConstruction
  | filterCreation _ _ => .filterCreation
  | architectureRegistration _ _ => .architectureRegistration
  | ruleAddition _ _ => .ruleAddition
  | noNewPrivs _ => .noNewPrivs
  | lowering _ => .lowering
  | install _ => .install
  | io _ => .io
  | inDefaultAction error => error.kind
  | inAction _ error => error.kind
  | inCondition _ error => error.kind
  | inBuild error => error.kind

/-- The text of an error without what lies beneath it. -/
def text : PolicyError → String
  | decode _ => "decoding seccomp policy"
  | invalidAction name => "invalid action " ++ name
  | invalidOperator name => "invalid operator " ++ name
  | invalidArchitecture name => "invalid architecture " ++ name
  | emptySyscallName => "empty string is not a valid syscall"
  | nullEntry => "encountered nil syscall while initializing seccomp"
  | nullCheck => "cannot convert nil to syscall condition"
  | conditionConstruction index _ => "make condition on argument " ++ toString index.toNat
  | filterCreation action _ => "create filter for default action " ++ action
  | architectureRegistration name _ => "add architecture " ++ name ++ " to seccomp filter"
  | ruleAddition syscall _ => "add seccomp rule for syscall " ++ syscall
  | noNewPrivs _ => "set no new privileges flag"
  | lowering _ => "lower seccomp filter to BPF"
  | install _ => "install seccomp filter"
  | io cause => "IO error: " ++ cause.texts.headD ""
  | inDefaultAction _ => "convert default action"
  | inAction syscall _ => "convert action for syscall " ++ syscall
  | inCondition syscall _ => "create seccomp syscall condition for syscall " ++ syscall
  | inBuild _ => "build seccomp filter"

/-- The texts of all that lies beneath an error, the outermost first. -/
def beneath : PolicyError → List String
  | decode cause | conditionConstruction _ cause | filterCreation _ cause
  | architectureRegistration _ cause | ruleAddition _ cause | noNewPrivs cause | lowering cause
  | install cause | io cause => cause.texts
  | inDefaultAction error | inAction _ error | inCondition _ error | inBuild error =>
    error.text :: error.beneath
  | invalidAction _ | invalidOperator _ | invalidArchitecture _ | emptySyscallName | nullEntry
  | nullCheck => []

/-- An error and all that lies beneath it in one line. -/
def chain (error : PolicyError) : String := ": ".intercalate (error.text :: error.beneath)

end PolicyError

end SyscallPolicy
