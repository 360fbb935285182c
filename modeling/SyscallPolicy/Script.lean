import SyscallPolicy.Backend
import SyscallPolicy.Event
/-! Scripts: the requests that a build makes and the events that it logs, in order. -/
namespace SyscallPolicy

inductive Purpose where
  | architecture (name : String)
  | noNewPrivs
  | entry (name : String)
  deriving DecidableEq, Repr

/-- The error of a request that is refused. -/
def Purpose.refused : Purpose → Cause → PolicyError
  | architecture name => .architectureRegistration name
  | noNewPrivs => .noNewPrivs
  | entry name => .ruleAddition name

inductive Step where
  | request (request : Request) (purpose : Purpose)
  | log (event : Event)
  deriving DecidableEq, Repr

/-- Steps, and the error that comes after them if there is one. -/
structure Script where
  steps : List Step := []
  fault : Option PolicyError := none
  deriving DecidableEq, Repr

namespace Script

def ofExcept : Except PolicyError (List Step) → Script
  | .ok steps => ⟨steps, none⟩
  | .error e => ⟨[], some e⟩

/-- Goes on with a second script where the first ends without an error. -/
def andThen (first second : Script) : Script :=
  match first.fault with
  | some _ => first
  | none => ⟨first.steps ++ second.steps, second.fault⟩

def sequence : List Script → Script
  | [] => {}
  | script :: scripts => script.andThen (sequence scripts)

end Script

/-- A build that an error ends, and what had been built by then. -/
structure Halted (β : Type) where
  error : PolicyError
  reached : β
  deriving DecidableEq, Repr

namespace Backend
variable {β : Type}

/-- Takes steps until a request is refused. -/
def perform (backend : Backend β) : List Step → β → Logged (Except (Halted β) β)
  | [], state => ⟨[], .ok state⟩
  | .log event :: steps, state =>
    let rest := backend.perform steps state
    ⟨event :: rest.events, rest.result⟩
  | .request request purpose :: steps, state =>
    match backend.apply request state with
    | .ok state => backend.perform steps state
    | .error cause => ⟨[], .error ⟨purpose.refused cause, state⟩⟩

/-- Runs a script. Its own error counts when no request is refused before. -/
def run (backend : Backend β) (script : Script) (state : β) : Logged (Except (Halted β) β) :=
  let done := backend.perform script.steps state
  match done.result, script.fault with
  | .ok state, some e => ⟨done.events, .error ⟨e, state⟩⟩
  | _, _ => done

end Backend

end SyscallPolicy
