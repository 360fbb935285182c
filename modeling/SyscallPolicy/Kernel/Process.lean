import SyscallPolicy.Bpf.Instr
import SyscallPolicy.PolicyError
import SyscallPolicy.Verdict
/-! Threads with programs attached to them, and what the programs make of system calls. -/
namespace SyscallPolicy

namespace Kernel
open Bpf (Call Program)

/-- An attached program. Serial numbers tell apart equal programs that were attached separately. -/
structure Layer where
  serial : Nat
  program : Program
  deriving DecidableEq, Repr

/-- A thread with the programs attached to it, the latest first. -/
structure Thread where
  noNewPrivs : Bool := false
  layers : List Layer := []
  deriving DecidableEq, Repr

def Layer.verdict (layer : Layer) (call : Call) : Verdict :=
  (layer.program.run call).elim .killProcess Verdict.ofWord

/-- The strictest verdict of all attached programs, the latest one's among equally strict ones. -/
def Thread.verdict (thread : Thread) (call : Call) : Verdict :=
  .strictest (thread.layers.map (·.verdict call))

/-- What becomes of a call: it runs, or it is not done and answered with an error, 0 meaning
success, or its maker dies. -/
inductive Fate where
  | runs
  | answered (error : Nat)
  | threadDies
  | processDies
  deriving DecidableEq, Repr

def maxErrno : Nat := 4095

/-- What becomes of a call under a verdict. There is no tracer to ask. -/
def Fate.ofVerdict : Verdict → Fate
  | .allow | .log => .runs
  | .trace _ => .answered Errno.notImplemented.number
  | .errno code => .answered (min code.toNat maxErrno)
  | .trap | .killProcess => .processDies
  | .killThread => .threadDies

def Thread.fate (thread : Thread) (call : Call) : Fate := .ofVerdict (thread.verdict call)

inductive Death where
  | thread
  | process
  deriving DecidableEq, Repr

/-- The threads of a process by number, the numbers of those that have ended among them, and the
serial number of the next program to be attached. -/
structure Process where
  threads : List Thread
  ended : List Nat := []
  nextSerial : Nat := 0
  deriving DecidableEq, Repr

namespace Process

def fresh (count : Nat) : Process := { threads := .replicate count {} }

def thread (process : Process) (id : Nat) : Thread := process.threads.getD id {}

def Lives (process : Process) (id : Nat) : Prop :=
  id < process.threads.length ∧ id ∉ process.ended

instance (process : Process) (id : Nat) : Decidable (process.Lives id) :=
  inferInstanceAs (Decidable (_ ∧ _))

/-- The process once a thread has made a call that someone dies of. -/
def die (process : Process) (caller : Nat) : Death → Process
  | .thread => { process with ended := caller :: process.ended }
  | .process => { process with ended := .range process.threads.length }

def setThread (process : Process) (id : Nat) (thread : Thread) : Process :=
  { process with threads := process.threads.set id thread }

def setNoNewPrivs (process : Process) (id : Nat) : Process :=
  process.setThread id { process.thread id with noNewPrivs := true }

/-- A living thread other than the caller with a program that the caller does not have. -/
def outOfStep? (process : Process) (caller : Nat) : Option Nat :=
  (List.range process.threads.length).find? fun id => id ≠ caller ∧ process.Lives id ∧
    ¬(process.thread id).layers.isSuffixOf (process.thread caller).layers

/-- How many of its own instructions the kernel lets a call run through. -/
def maxKernelSize : Nat := 32768

/-- What attached programs count for besides their instructions. -/
def layerPenalty : Nat := 4

/-- The number of the kernel's instructions that a call of a thread runs through once a program is
attached to it. -/
def sizeWith (thread : Thread) (program : Program) : Nat :=
  thread.layers.foldl (fun size layer => size + layer.program.kernelSize + layerPenalty)
    program.kernelSize

/-- A process in which a program is attached to the caller, or to all threads that live, which then
have the caller's programs. -/
def push (caller : Nat) (allThreads : Bool) (process : Process) (program : Program) : Process :=
  let grown := { process.thread caller with
    layers := ⟨process.nextSerial, program⟩ :: (process.thread caller).layers }
  { process with
    threads := process.threads.mapIdx fun id thread =>
      if id = caller ∨ allThreads = true ∧ process.Lives id then grown else thread
    nextSerial := process.nextSerial + 1 }

/-- Attaches a program, unless the kernel has something against it. -/
def attach (process : Process) (caller : Nat) (allThreads : Bool) (program : Program) :
    Except Cause Process :=
  let thread := process.thread caller
  if ¬thread.noNewPrivs then .error (.system .accessDenied)
  else if ¬program.isAcceptable then .error (.system .invalidArgument)
  else if maxKernelSize < sizeWith thread program then .error (.system .outOfMemory)
  else
    match if allThreads then process.outOfStep? caller else none with
    | some id => .error (.notSynchronized id)
    | none => .ok (process.push caller allThreads program)

end Process

end Kernel

end SyscallPolicy
