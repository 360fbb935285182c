import SyscallPolicy.ActionName
import SyscallPolicy.Filter
import SyscallPolicy.Grouping
import SyscallPolicy.Policy.Reader
import SyscallPolicy.Script
import SyscallPolicy.SyscallTable
/-! Filters made of policies. -/
namespace SyscallPolicy

def ActionName.verdictOf (name : String) (code : Option UInt16) : Except PolicyError Verdict :=
  match ofName? name with
  | some action => .ok (action.verdict code)
  | none => .error (.invalidAction name)

def Architecture.ofName (name : String) : Except PolicyError Architecture :=
  match ofName? name with
  | some architecture => .ok architecture
  | none => .error (.invalidArchitecture name)

def Operator.ofName (name : String) : Except PolicyError Operator :=
  match ofName? name with
  | some operator => .ok operator
  | none => .error (.invalidOperator name)

/-- The condition that a check stands for. Its index must be that of an argument. -/
def ArgCheck.condition : Option ArgCheck → Except PolicyError Condition
  | none => .error .nullCheck
  | some check => do
    let operator ← Operator.ofName check.op
    if h : check.index.toNat < 6 then
      return ⟨⟨check.index.toNat, h⟩, operator.comparison check.valueTwo, check.value⟩
    else
      throw (.conditionConstruction check.index
        (if check.index.toNat < 256 then .indexTooGreat else .indexTooWide))

/-- The steps for one entry: a rule if it has no checks, else a rule for each group of conditions.
A system call that the resolver does not know is passed over. -/
def Entry.steps (resolve : Resolver) : Option Entry → Except PolicyError (List Step)
  | none => .error .nullEntry
  | some entry =>
    if entry.name = "" then .error .emptySyscallName
    else
      match resolve entry.name with
      | none => .ok [.log (.unknownSyscall entry.name)]
      | some number => do
        let verdict ←
          (ActionName.verdictOf entry.action entry.errnoRet).mapError (.inAction entry.name)
        let conditions ← (entry.args.mapM ArgCheck.condition).mapError (.inCondition entry.name)
        if conditions.isEmpty then
          return [.request (.addRule number verdict) (.entry entry.name),
            .log (.ruleAdded entry.name number verdict)]
        else
          let groups := Combination.groups (conditions.map fun c => (c.argument, c))
          return .log (.conditionalRules entry.name number verdict groups.length) ::
            groups.map fun group =>
              .request (.addConditionalRule number verdict group) (.entry entry.name)

/-- Adds one entry to a target. -/
def Entry.addTo {β : Type} (backend : Backend β) (resolve : Resolver) (entry : Option Entry)
    (state : β) : Logged (Except (Halted β) β) :=
  backend.run (.ofExcept (Entry.steps resolve entry)) state

namespace Policy

def decode (text : String) : Except PolicyError Policy :=
  (ofJson text).mapError fun fault => .decode (.json fault)

def decodeBytes (bytes : List UInt8) : Except PolicyError Policy :=
  (ofBytes bytes).mapError fun fault => .decode (.json fault)

def architectureSteps (name : String) : Except PolicyError (List Step) := do
  let architecture ← Architecture.ofName name
  return [.request (.addArchitecture architecture) (.architecture name)]

/-- The script of a policy whose default verdict is known. The filter must not set the no-new-privs
flag itself: installing does. -/
def script (resolve : Resolver) (policy : Policy) (verdict : Verdict) : Script :=
  .sequence (
    policy.architectures.map (fun name => .ofExcept (architectureSteps name)) ++
    [⟨[.request (.setNoNewPrivs false) .noNewPrivs], none⟩] ++
    policy.syscalls.map (fun entry => .ofExcept (Entry.steps resolve entry)) ++
    [⟨[.log (.built verdict policy.syscalls.length)], none⟩])

/-- The verdict of the default action, which takes no code. -/
def defaultVerdict (policy : Policy) : Except PolicyError Verdict :=
  (ActionName.verdictOf policy.defaultAction none).mapError .inDefaultAction

/-- Builds a policy into any target. Nothing is reached if the default action is unknown or the
target refuses it. -/
def buildInto {β : Type} (backend : Backend β) (resolve : Resolver) (policy : Policy) :
    Logged (Except (Halted (Option β)) β) :=
  match policy.defaultVerdict with
  | .error e => ⟨[], .error ⟨e, none⟩⟩
  | .ok verdict =>
    match backend.create verdict with
    | .error cause => ⟨[], .error ⟨.filterCreation policy.defaultAction cause, none⟩⟩
    | .ok state =>
      let done := backend.run (policy.script resolve verdict) state
      ⟨done.events, done.result.mapError fun halted => ⟨halted.error, some halted.reached⟩⟩

def build (resolve : Resolver) (policy : Policy) : Logged (Except PolicyError Filter) :=
  let built := policy.buildInto Filter.backend resolve
  ⟨built.events, built.result.mapError (·.error)⟩

def compile (text : String) : Except PolicyError Filter := do
  let policy ← decode text
  (policy.build SyscallTable.number?).result

def validate (resolve : Resolver) (policy : Policy) : Logged (Except PolicyError Unit) :=
  let built := policy.build resolve
  match built.result with
  | .ok filter => ⟨built.events ++ [.valid filter.rules.length], .ok ()⟩
  | .error e => ⟨built.events, .error (.inBuild e)⟩

end Policy

end SyscallPolicy
