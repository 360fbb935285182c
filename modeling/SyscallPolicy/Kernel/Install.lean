import SyscallPolicy.Filter.Lowering
import SyscallPolicy.Kernel.Process
import SyscallPolicy.Support
/-! A thread that installs filters on itself, and asks what it may install. The filters that it has
already judge the system calls that it makes for that. -/
namespace SyscallPolicy.Kernel
open Bpf (Call Program)

/-- What a system call sees besides the arguments that it is given. -/
structure Host where
  /-- Where the description of the program to attach lies in memory. -/
  address : UInt64
  /-- Where the name of a file lies in memory. -/
  path : UInt64
  /-- What the registers of arguments that are not given hold. -/
  spare : Fin 6 → UInt64
  /-- The actions that the kernel names. -/
  actions : List String

namespace Host

def call (host : Host) (number : UInt32) (args : List UInt64) : Call where
  number := number
  architecture := Call.nativeArchitecture
  args i := args.getD i.val (host.spare i)

/-- The call that keeps a thread from gaining privileges. -/
def noNewPrivsCall (host : Host) : Call := host.call 157 [38, 1, 0, 0, 0]

def attachCall (host : Host) (allThreads : Bool) : Call :=
  host.call 317 [1, if allThreads then 1 else 0, host.address]

def modeCall (host : Host) : Call := host.call 157 [21, 0, 0, 0, 0]

/-- The call that opens the list of actions, for reading. -/
def openCall (host : Host) : Call := host.call 257 [0xffffff9c, host.path, 0x80000, 0]

end Host

/-- What the calls that a thread makes see, one after the other. The registers of arguments that are
not given hold whatever has been left in them, so no two calls need to see the same. -/
abbrev Hosts := Nat → Host

/-- Calls that all see the same. -/
instance : Coe Host Hosts := ⟨fun host _ => host⟩

def Hosts.rest (hosts : Hosts) : Hosts := fun n => hosts (n + 1)

inductive Ending (α : Type) where
  | returned (value : α)
  | died (death : Death)
  deriving DecidableEq, Repr

/-- Attaches programs one after the other, each by a call of its own. The caller takes every answer
without an error for an attached program. -/
def attachAll (hosts : Hosts) (allThreads : Bool) (caller : Nat) :
    List Program → Process → Process × Ending (Except PolicyError Unit)
  | [], process => (process, .returned (.ok ()))
  | program :: programs, process =>
    match (process.thread caller).fate ((hosts 0).attachCall allThreads) with
    | .threadDies => (process.die caller .thread, .died .thread)
    | .processDies => (process.die caller .process, .died .process)
    | .answered 0 => attachAll hosts.rest allThreads caller programs process
    | .answered e => (process, .returned (.error (.install (.system ⟨e⟩))))
    | .runs =>
      match process.attach caller allThreads program with
      | .ok process => attachAll hosts.rest allThreads caller programs process
      | .error cause => (process, .returned (.error (.install cause)))

/-- Renounces new privileges and attaches the programs of a filter. -/
def installPrograms (hosts : Hosts) (allThreads : Bool) (caller : Nat) (verdict : Verdict)
    (programs : List Program) (process : Process) :
    Process × Logged (Ending (Except PolicyError Unit)) :=
  let proceed (process : Process) :=
    let (process, ending) := attachAll hosts.rest allThreads caller programs process
    (process, ⟨[.installing programs.length verdict], ending⟩)
  match (process.thread caller).fate (hosts 0).noNewPrivsCall with
  | .threadDies => (process.die caller .thread, ⟨[], .died .thread⟩)
  | .processDies => (process.die caller .process, ⟨[], .died .process⟩)
  | .answered 0 => proceed process
  | .answered e => (process, ⟨[], .returned (.error (.install (.system ⟨e⟩)))⟩)
  | .runs => proceed (process.setNoNewPrivs caller)

def install (hosts : Hosts) (allThreads : Bool) (caller : Nat) (filter : Filter)
    (process : Process) : Process × Logged (Ending (Except PolicyError Unit)) :=
  let lowered := filter.lower
  match lowered.result with
  | .error e => (process, ⟨lowered.events, .returned (.error e)⟩)
  | .ok [] => (process, ⟨lowered.events ++ [.nothingToInstall], .returned (.ok ())⟩)
  | .ok programs =>
    let (process, done) :=
      installPrograms hosts allThreads caller filter.verdict programs process
    (process, ⟨lowered.events ++ done.events, done.result⟩)

/-- The process after a thread has tried to install a filter, if it lives to do so. -/
def installIfLiving (hosts : Hosts) (allThreads : Bool) (caller : Nat) (filter : Filter)
    (process : Process) : Process :=
  if process.Lives caller then (install hosts allThreads caller filter process).1 else process

/-- The mode that a thread is told when it asks: the answer 0 means that it has no filter. -/
def detectMode (host : Host) (thread : Thread) : Ending (Option Mode) :=
  match thread.fate host.modeCall with
  | .threadDies => .died .thread
  | .processDies => .died .process
  | .answered 0 => .returned (some .disabled)
  | .answered _ => .returned none
  | .runs => .returned (some (if thread.layers.isEmpty then .disabled else .filter))

/-- The actions that a thread finds when it reads the kernel's list: none if it cannot open it. -/
def detectActions (host : Host) (thread : Thread) : Ending (List String) :=
  match thread.fate host.openCall with
  | .threadDies => .died .thread
  | .processDies => .died .process
  | .answered _ => .returned []
  | .runs => .returned host.actions

def detect (hosts : Hosts) (thread : Thread) : Ending Support :=
  match detectMode (hosts 0) thread with
  | .died death => .died death
  | .returned mode =>
    match detectActions (hosts 1) thread with
    | .died death => .died death
    | .returned actions => .returned (.ofMode mode actions)

end SyscallPolicy.Kernel
