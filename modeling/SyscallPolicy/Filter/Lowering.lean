import SyscallPolicy.Bpf.Emission
import SyscallPolicy.Event
import SyscallPolicy.Filter
import SyscallPolicy.SyscallTable
/-! Filters as stacks of programs. Each program knows two verdicts, and the strictest answer of all
programs counts. -/
namespace SyscallPolicy
open Bpf (Chain Program Table)

/-- Puts a number into an ascending list unless it is there. -/
def insertNumber (n : Int) : List Int → List Int
  | [] => [n]
  | m :: rest =>
    if n < m then n :: m :: rest
    else if n = m then m :: rest
    else m :: insertNumber n rest

def Rule.numbers (rules : List Rule) : List Int :=
  rules.foldr (fun rule => insertNumber rule.number) []

/-- When one of several rules for the same call applies. One without conditions makes the others
needless. -/
def Rule.chain (rules : List Rule) : Chain :=
  if rules.all Rule.isConditional then .anyOf (rules.map (·.conditions)) else .always

def Rule.table (rules : List Rule) : Table :=
  (numbers rules).map fun n => (n, chain (rules.filter (·.number = n)))

/-- A program of a filter, and whether it can stop the call that attaches further programs. -/
structure Stage where
  program : Program
  blocksSeccomp : Bool
  deriving DecidableEq, Repr

namespace Filter

/-- The verdicts of the rules other than to allow the call, in order of first appearance. -/
def verdicts (filter : Filter) : List Verdict :=
  ((filter.rules.map (·.verdict)).filter (· ≠ .allow)).eraseDups

/-- The program that gives one verdict to the calls that it is for, and allows all others. -/
def verdictStage (filter : Filter) (verdict : Verdict) : Except LoweringFault Stage := do
  let rules := filter.rules.filter (·.verdict = verdict)
  let program ← (Rule.table rules).program .allow verdict
  return ⟨program, verdict.stops && rules.any (·.number = SyscallTable.seccomp)⟩

/-- The program that allows every call that has a rule, and gives the default verdict to all
others. -/
def baseStage (filter : Filter) : Except LoweringFault Stage := do
  let program ← (Rule.table filter.rules).program filter.verdict .allow
  return ⟨program, filter.verdict.stops &&
    (filter.rulesFor SyscallTable.seccomp).all Rule.isConditional⟩

def stages (filter : Filter) : Except LoweringFault (List Stage) := do
  let stages ← filter.verdicts.mapM filter.verdictStage
  if filter.verdict = .allow then return stages
  else return stages ++ [← filter.baseStage]

/-- The order to attach programs in. One that can stop the attaching of others comes last, and there
may be only one. -/
def attachOrder (stages : List Stage) : Except LoweringFault (List Program) :=
  let (last, first) := stages.partition (·.blocksSeccomp)
  if 1 < last.length then .error (.seccompBlocked last.length)
  else .ok ((first ++ last).map (·.program))

/-- The programs of a filter in the order to attach them in; none if it allows everything. -/
def programs (filter : Filter) : Except LoweringFault (List Program) := do
  attachOrder (← filter.stages)

/-- The programs of a filter. The log names the architectures that get none. -/
def lower (filter : Filter) : Logged (Except PolicyError (List Program)) :=
  let skipped := (filter.architectures.filter (· ≠ .native)).map .architectureSkipped
  match filter.programs with
  | .error fault => ⟨skipped, .error (.lowering (.lowering fault))⟩
  | .ok programs =>
    ⟨skipped ++ [.lowered filter.rules.length programs.length], .ok programs⟩

end Filter

end SyscallPolicy
