import SyscallPolicy.Bpf.Instr
import SyscallPolicy.Condition
import SyscallPolicy.PolicyError
import SyscallPolicy.Verdict
/-! Programs that look a system call up among rules. -/
namespace SyscallPolicy.Bpf

/-- The code that tests a condition. It ends where the next instruction should run when the
condition holds, and `fail` instructions further when it does not. -/
def conditionCode (c : Condition) (fail : Nat) : Program :=
  let lowAt := 16 + 8 * c.argument.val
  let highAt := lowAt + 4
  let lo := low c.value
  let hi := high c.value
  match c.comparison with
  | .eq => [.load highAt, .branch .eq hi 0 (fail + 2), .load lowAt, .branch .eq lo 0 fail]
  | .ne => [.load highAt, .branch .eq hi 0 2, .load lowAt, .branch .eq lo fail 0]
  | .ge =>
    [.load highAt, .branch .gt hi 3 0, .branch .eq hi 0 (fail + 2), .load lowAt,
      .branch .ge lo 0 fail]
  | .gt =>
    [.load highAt, .branch .gt hi 3 0, .branch .eq hi 0 (fail + 2), .load lowAt,
      .branch .gt lo 0 fail]
  | .le =>
    [.load highAt, .branch .gt hi (fail + 3) 0, .branch .eq hi 0 2, .load lowAt,
      .branch .gt lo fail 0]
  | .lt =>
    [.load highAt, .branch .gt hi (fail + 3) 0, .branch .eq hi 0 2, .load lowAt,
      .branch .ge lo fail 0]
  | .maskedEq mask =>
    [.load highAt, .mask (high mask), .branch .eq (hi &&& high mask) 0 (fail + 3), .load lowAt,
      .mask (low mask), .branch .eq (lo &&& low mask) 0 fail]

def maxOffset : Nat := 255

/-- The length of the longest code for a condition, with a spare instruction. -/
def conditionRoom : Nat := 7

/-- Conditions of a rule in code, the last one first, and the way from there to the failure of the
rule: `fail` instructions further than the end of the next condition's code. -/
structure Body where
  fail : Nat
  code : Program
  deriving DecidableEq, Repr

/-- The body without conditions: the rule's return comes next, and its failure after that. -/
def Body.empty : Body := ⟨1, []⟩

/-- A relay where a branch could not reach the failure of the rule: it leads past itself, a failed
condition to the failure, and a call with another number out of the rule. -/
def Body.relay (body : Body) : Body :=
  ⟨1, [.jump 2, .jump (body.fail + 1), .jump (body.fail + 1)] ++ body.code⟩

def Body.push (body : Body) (c : Condition) : Body :=
  let body := if body.fail + conditionRoom > maxOffset then body.relay else body
  let code := conditionCode c body.fail
  ⟨body.fail + code.length, code ++ body.code⟩

/-- Whether conditions in front of a body take the way to the failure of the rule further than a
branch can reach. -/
def Body.overflows (body : Body) : List Condition → Bool
  | [] => false
  | c :: conditions => maxOffset < (body.push c).fail || (body.push c).overflows conditions

/-- The code of a rule, which returns `value` when the conditions hold and goes on behind itself
when they do not. Entered at its second instruction it goes on one instruction further. -/
def ruleCode (value : UInt32) (conditions : List Condition) : Program :=
  let body := conditions.foldl Body.push .empty
  [.jump 1, .jump (body.fail + 1)] ++ body.code ++ [.ret value]

inductive Chain where
  | always
  | anyOf (rules : List (List Condition))
  deriving DecidableEq, Repr

/-- The code for one system call, after its number has been compared. -/
def Chain.code (value otherwise : UInt32) : Chain → Program
  | always => [.jump 1, .jump 2, .ret value, .ret otherwise]
  | anyOf rules => rules.flatMap (ruleCode value) ++ [.ret otherwise]

/-- Rules by system call, in ascending order of the numbers. -/
abbrev Table := List (Int × Chain)

/-- The code that every program begins with. It kills the process on a foreign architecture. -/
def architectureCode : Program :=
  [.load 4, .branch .eq Call.nativeArchitecture 1 0, .ret Verdict.killProcess.word]

def Table.code (table : Table) (value otherwise : UInt32) : Program :=
  table.flatMap fun (number, chain) =>
    .branch .eq number.toNat.toUInt32 0 1 :: chain.code value otherwise

def Chain.hasEmptyRule : Chain → Bool
  | always => false
  | anyOf rules => rules.any List.isEmpty

def Chain.overflows : Chain → Bool
  | always => false
  | anyOf rules => rules.any Body.empty.overflows

/-- The program that gives `onMatch` to the calls in a table and `mismatch` to all others. -/
def Table.program (table : Table) (mismatch onMatch : Verdict) : Except LoweringFault Program :=
  if table.any (·.2.hasEmptyRule) then .error .emptyRule
  else if mismatch = onMatch then .error .equalVerdicts
  else if table.isEmpty then .ok (architectureCode ++ [.ret mismatch.word])
  else if table.any (0x100000000 ≤ ·.1) then .error .numberTooWide
  else if table.any (·.2.overflows) then .error .offsetOverflow
  else
    let code := architectureCode ++ .load 0 :: table.code onMatch.word mismatch.word ++
      [.ret mismatch.word]
    if code.length < Program.maxLength then .ok code else .error (.tooLong code.length)

end SyscallPolicy.Bpf
