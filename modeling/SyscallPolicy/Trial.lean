import SyscallPolicy.Kernel.Install
import SyscallPolicy.Policy.Build
/-! Trials: a process in which one thread installs filters, and what its threads then observe. -/
namespace SyscallPolicy

open Kernel (Death Ending Host Process Thread)

/-- A system call that asks for the number of a process or thread, with arguments that it does not
use. -/
structure Probe where
  number : UInt32
  args : List UInt64
  deriving DecidableEq, Repr

def Probe.call (probe : Probe) : Bpf.Call where
  number := probe.number
  architecture := Bpf.Call.nativeArchitecture
  args i := probe.args.getD i.val 0

/-- What a probe brings back: a number above 0 if the call was made. -/
inductive Observation where
  | positive
  | zero
  | errno (e : Nat)
  deriving DecidableEq, Repr

/-- A trial. The rival is another thread that installs a filter on itself beforehand. -/
structure Trial where
  filters : List Filter
  probes : List Probe
  allThreads : Bool
  detects : Bool
  rival : Option Filter

/-- What is known of a trial in the end. Others are the probes of the main thread. -/
structure Trial.Report where
  installs : List (Except PolicyError Unit) := []
  events : List Event := []
  detected : Option Support := none
  probes : List Observation := []
  others : List Observation := []
  threadKilled : Bool := false

namespace Trial

def main : Nat := 0

def worker : Nat := 1

def rivalThread : Nat := 2

/-- Makes probes until one of them kills the thread. -/
def observe (thread : Thread) : List Probe → List Observation × Option Death
  | [] => ([], none)
  | probe :: probes =>
    let go (observation : Observation) :=
      let (observations, death) := observe thread probes
      (observation :: observations, death)
    match thread.fate probe.call with
    | .runs => go .positive
    | .answered 0 => go .zero
    | .answered e => go (.errno e)
    | .threadDies => ([], some .thread)
    | .processDies => ([], some .process)

/-- Installs filters one after the other, going on after errors. What an install that kills its
thread has logged is lost. -/
def installAll (host : Host) (allThreads : Bool) :
    List Filter → Process → Report → Process × Report × Option Death
  | [], process, report => (process, report, none)
  | filter :: filters, process, report =>
    match Kernel.install host allThreads worker filter process with
    | (process, ⟨_, .died death⟩) => (process, report, some death)
    | (process, ⟨events, .returned result⟩) =>
      installAll host allThreads filters process
        { report with
          installs := report.installs ++ [result]
          events := report.events ++ events }

def work (host : Host) (trial : Trial) (process : Process) : Process × Report × Option Death :=
  match installAll host trial.allThreads trial.filters process {} with
  | (process, report, some death) => (process, report, some death)
  | (process, report, none) =>
    let thread := process.thread worker
    let probed (report : Report) : Process × Report × Option Death :=
      let (probes, death) := observe thread trial.probes
      (process, { report with probes := probes }, death)
    if trial.detects then
      match Kernel.detect host thread with
      | .died death => (process, report, some death)
      | .returned support => probed { report with detected := some support }
    else probed report

/-- The process before the worker starts, none if the rival takes it down. -/
def start (host : Host) (trial : Trial) : Option Process :=
  match trial.rival with
  | none => some (.fresh 2)
  | some filter =>
    match Kernel.install host false rivalThread filter (.fresh 3) with
    | (_, ⟨_, .died .process⟩) => none
    | (process, _) => some process

/-- Runs a trial; none if the process dies. The end of its last thread is the end of the process. -/
def run (host : Host) (trial : Trial) : Option Report := do
  let process ← trial.start host
  let (process, report, death) := trial.work host process
  if death = some .process then none
  let (others, mainDeath) := observe (process.thread main) trial.probes
  if mainDeath = some .process ∨ (mainDeath = some .thread ∧ ¬process.Lives rivalThread) then none
  return { report with others := others, threadKilled := death.isSome }

end Trial

/-- Installs filters on the only thread of a process and reports what it then detects; none if it
dies of that. -/
def Support.checkUnder (host : Host) (filters : List Filter) : Option Support :=
  let process := filters.foldl
    (fun process filter => Kernel.installIfLiving host false 0 filter process) (Process.fresh 1)
  if ¬process.Lives 0 then none
  else
    match Kernel.detect host (process.thread 0) with
    | .died _ => none
    | .returned support => some support

end SyscallPolicy
