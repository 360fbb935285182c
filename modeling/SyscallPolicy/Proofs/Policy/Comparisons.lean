import SyscallPolicy.Proofs.Filter.Lowering
import SyscallPolicy.Proofs.Policy.Meaning

/-! The comparison that a check in a policy is documented to make, and the one that a filter made of
it does make. They differ where a masked comparison is with a value that has bits outside the
mask. -/
namespace SyscallPolicy
open Bpf (Call Program)
open Kernel (Thread)
open Verdict (Decides)

namespace Operator
variable {value valueTwo a : UInt64}

/-- The documented comparison of an argument `a` with a value. The second value is the mask of a
masked comparison, and no other operator uses it. -/
def documents (value valueTwo a : UInt64) : Operator → Bool
  | equal => a = value
  | notEqual => a ≠ value
  | greaterThan => a > value
  | greaterOrEqual => a ≥ value
  | lessThan => a < value
  | lessOrEqual => a ≤ value
  | maskedEqual => a &&& valueTwo = value

/-- Whether a value has no bits outside the mask that it is compared under. -/
def fits (value valueTwo : UInt64) : Operator → Bool
  | maskedEqual => value &&& valueTwo = value
  | _ => true

theorem documents_eq_holds {operator : Operator} (h : operator.fits value valueTwo = true)
    (a : UInt64) :
    operator.documents value valueTwo a = (operator.comparison valueTwo).holds value a := by
  cases operator with
  | maskedEqual =>
    have hvalue : value &&& valueTwo = value := of_decide_eq_true h
    simp only [documents, comparison, Comparison.holds, hvalue]
  | _ => rfl

/-- A value with bits outside the mask is never what the mask leaves of an argument. -/
theorem documents_eq_false {operator : Operator} (h : operator.fits value valueTwo = false)
    (a : UInt64) : operator.documents value valueTwo a = false := by
  cases operator with
  | maskedEqual =>
    refine decide_eq_false fun hmasked => of_decide_eq_false h ?_
    rw [← hmasked, UInt64.and_assoc, UInt64.and_self]
  | _ => cases h

/-- The comparison made leaves out the bits of the value outside the mask. -/
theorem holds_of_not_fits {operator : Operator} (h : operator.fits value valueTwo = false)
    (a : UInt64) :
    (operator.comparison valueTwo).holds value a =
      decide (a &&& valueTwo = value &&& valueTwo) := by
  cases operator with
  | maskedEqual => rfl
  | _ => cases h

end Operator

theorem Verdict.decides_singleton (order : List Verdict) (v : Verdict) : Decides order [v] v where
  mem := List.mem_singleton_self v
  rank_le w hw := by
    cases List.mem_singleton.mp hw
    exact Nat.le_refl _
  last _ hw _ hne := absurd (List.mem_singleton.mp hw) hne

namespace Filter

/-- A filter with a single rule, under a single condition, that does not repeat the default
verdict. -/
structure Tests (filter : Filter) (number : Int) (v : Verdict) (c : Condition) : Prop where
  rules_eq : filter.rules = [⟨number, v, [c]⟩]
  number_nonneg : 0 ≤ number
  verdict_ne : v ≠ filter.verdict

private theorem length_single_lt (number : Int) (v : Verdict) (c : Condition)
    (mismatch onMatch : Verdict) :
    ((Rule.table [⟨number, v, [c]⟩]).instructions mismatch onMatch).length < Program.maxLength := by
  have htable : Rule.table [⟨number, v, [c]⟩] = [(number, .anyOf [[c]])] := by
    simp [Rule.table, Rule.numbers, insertNumber, Rule.chain, Rule.isConditional]
  have hbody : [c].foldl Bpf.Body.push .empty =
      ⟨1 + (Bpf.conditionCode c 1).length, Bpf.conditionCode c 1 ++ []⟩ := rfl
  have hlength : (Bpf.Table.instructions [(number, .anyOf [[c]])] mismatch onMatch).length =
      (Bpf.conditionCode c 1).length + 10 := by
    simp +arith [Bpf.Table.instructions, Bpf.Table.code, Bpf.Chain.code, Bpf.ruleCode, hbody,
      Bpf.architectureCode, -List.foldl_cons]
  have hcode : (Bpf.conditionCode c 1).length < 7 := Bpf.length_conditionCode_lt c 1
  rw [htable, hlength, Program.maxLength]
  omega

namespace Tests
variable {filter : Filter} {number : Int} {v : Verdict} {c : Condition}

theorem forall_mem_rules (h : filter.Tests number v c) {P : Rule → Prop}
    (hrule : P ⟨number, v, [c]⟩) : ∀ rule ∈ filter.rules, P rule := by
  rw [h.rules_eq, List.forall_mem_singleton]
  exact hrule

theorem sound (h : filter.Tests number v c) : filter.Sound :=
  ⟨h.forall_mem_rules h.number_nonneg, h.forall_mem_rules h.verdict_ne⟩

theorem candidates_eq (h : filter.Tests number v c) {call : Call}
    (hnumber : (call.number.toNat : Int) = number) :
    filter.candidates call = [if c.holds call.args then v else filter.verdict] := by
  have hholds : Rule.holds call ⟨number, v, [c]⟩ = c.holds call.args := by
    simp [Rule.holds, hnumber]
  rw [candidates, h.rules_eq, List.filter_singleton, hholds]
  cases c.holds call.args <;> rfl

theorem length_instructions_lt (h : filter.Tests number v c) (w : Verdict) :
    (filter.instructions w).length < Program.maxLength := by
  unfold instructions
  rw [h.rules_eq, List.filter_singleton]
  split
  · exact length_single_lt number v c _ _
  · cases decide (v = w) with
    | true => exact length_single_lt number v c _ _
    | false => exact Nat.le_of_ble_eq_true rfl

theorem blockers_le_one_iff (h : filter.Tests number v c) :
    filter.blockers ≤ 1 ↔
      ¬(number = SyscallTable.seccomp ∧ v.stops = true ∧ filter.verdict.stops = true) := by
  have hconditional (n : Int) : Rule.isConditional ⟨n, v, [c]⟩ = true := rfl
  rw [blockers, rulesFor, h.rules_eq, List.filter_singleton]
  by_cases hnumber : number = SyscallTable.seccomp
  · cases hstops : v.stops <;> cases filter.verdict.stops <;>
      simp [hnumber, hstops, hconditional, List.eraseDups_cons]
  · cases filter.verdict.stops <;> simp [hnumber]

/-- Such a filter has programs unless both its verdicts can stop the attaching of programs. -/
theorem exists_lower_iff (h : filter.Tests number v c) (hlt : number < 0x100000000) :
    (∃ programs, filter.lower.result = .ok programs) ↔
      ¬(number = SyscallTable.seccomp ∧ v.stops = true ∧ filter.verdict.stops = true) := by
  have hlowers := h.sound.lowers (h.forall_mem_rules hlt)
  simp only [hlowers.eq_ok_iff, h.blockers_le_one_iff]
  constructor
  · rintro ⟨_, _, hone, _⟩
    exact hone
  · exact fun hone => ⟨_, fun w _ => h.length_instructions_lt w, hone, rfl⟩

/-- The rule applies exactly where its condition holds. -/
theorem verdict_eq (h : filter.Tests number v c) {programs : List Program} {thread : Thread}
    {call : Call} (hlower : filter.lower.result = .ok programs)
    (hlayers : thread.layers.map (·.program) = programs.reverse)
    (hnative : call.architecture = Call.nativeArchitecture)
    (hnumber : (call.number.toNat : Int) = number) :
    thread.verdict call = (if c.holds call.args then v else filter.verdict).returned := by
  refine h.sound.verdict_eq hlower hnative hlayers ?_
  rw [h.candidates_eq hnumber]
  exact Verdict.decides_singleton _ _

end Tests

end Filter

namespace ArgCheck

/-- An accepted check whose value fits its mask makes a rule apply exactly where the documented
comparison holds. With a value that has bits outside the mask, that comparison holds of no argument
at all, and yet the rule applies to arguments: these bits are left out on both sides. -/
theorem rule_applies {check : ArgCheck} {c : Condition} {filter : Filter} {number : Int}
    {v : Verdict} (hcondition : condition (some check) = .ok c)
    (htests : filter.Tests number v c) :
    (number < 0x100000000 → ((∃ programs, filter.lower.result = .ok programs) ↔
      ¬(number = SyscallTable.seccomp ∧ v.stops = true ∧ filter.verdict.stops = true))) ∧
    c.argument.val = check.index.toNat ∧
    ∃ operator, Operator.ofName? check.op = some operator ∧
      ∀ (programs : List Program) (thread : Thread) (call : Call),
        filter.lower.result = .ok programs →
        thread.layers.map (·.program) = programs.reverse →
        call.architecture = Call.nativeArchitecture → (call.number.toNat : Int) = number →
        let a := call.args c.argument
        (operator.fits check.value check.valueTwo = true →
          thread.verdict call = (if operator.documents check.value check.valueTwo a then v
            else filter.verdict).returned) ∧
        (operator.fits check.value check.valueTwo = false →
          operator.documents check.value check.valueTwo a = false ∧
          thread.verdict call = (if a &&& check.valueTwo = check.value &&& check.valueTwo then v
            else filter.verdict).returned) := by
  obtain ⟨operator, hoperator, hindex, hok⟩ :=
    condition_eq_ok (faults_eq_nil_of_condition hcondition)
  rw [hcondition] at hok
  cases hok
  refine ⟨htests.exists_lower_iff, rfl, operator, hoperator, ?_⟩
  intro programs thread call hlower hlayers hnative hnumber a
  have hverdict : thread.verdict call =
      (if (operator.comparison check.valueTwo).holds check.value a then v
        else filter.verdict).returned :=
    htests.verdict_eq hlower hlayers hnative hnumber
  constructor
  · intro hfits
    rwa [Operator.documents_eq_holds hfits]
  · intro hfits
    refine ⟨Operator.documents_eq_false hfits a, ?_⟩
    simpa only [Operator.holds_of_not_fits hfits, decide_eq_true_eq] using hverdict

/-- A filter that only traces the calls with number 39 that a condition holds on. -/
def tracing (c : Condition) : Filter where
  verdict := .errno 1
  architectures := [.native]
  noNewPrivs := true
  rules := [⟨39, .trace 5, [c]⟩]

/-- An argument below the value in its high half, and above it in the low one. -/
theorem rule_applies_highHalf :
    let check : ArgCheck := ⟨3, 0x100000001, 9, "SCMP_CMP_GE"⟩
    let c : Condition := ⟨3, .ge, 0x100000001⟩
    condition (some check) = .ok c ∧ (tracing c).Tests 39 (.trace 5) c ∧
      ∃ programs, (tracing c).lower.result = .ok programs ∧
        Thread.verdict ⟨true, programs.reverse.map (⟨0, ·⟩)⟩
          ⟨39, Call.nativeArchitecture, 0, fun _ => 0xffffffff⟩ = .errno 1 := by
  intro check c
  have hcondition : condition (some check) = .ok c := by decide +kernel
  have htests : (tracing c).Tests 39 (.trace 5) c := ⟨rfl, by decide, by decide⟩
  obtain ⟨hlowers, -, operator, hoperator, happlies⟩ := rule_applies hcondition htests
  obtain ⟨programs, hlower⟩ := (hlowers (by decide)).mpr (by decide)
  refine ⟨hcondition, htests, programs, hlower, ?_⟩
  have hge : operator = .greaterOrEqual := by
    have hfound : Operator.ofName? check.op = some .greaterOrEqual := by decide +kernel
    exact Option.some.inj (hoperator.symm.trans hfound)
  have hverdict := happlies programs ⟨true, programs.reverse.map (⟨0, ·⟩)⟩
    ⟨39, Call.nativeArchitecture, 0, fun _ => 0xffffffff⟩ hlower
    (Kernel.Layer.map_program_mk _) rfl rfl
  rw [hge] at hverdict
  exact hverdict.1 rfl

/-- A masked comparison with a value outside the mask traces a call whose argument does not have
that value under the mask. -/
theorem rule_applies_outside_mask :
    let check : ArgCheck := ⟨0, 3, 1, "SCMP_CMP_MASKED_EQ"⟩
    let c : Condition := ⟨0, .maskedEq 1, 3⟩
    condition (some check) = .ok c ∧ (tracing c).Tests 39 (.trace 5) c ∧
      ((1 : UInt64) &&& check.valueTwo ≠ check.value) ∧
      ∃ programs, (tracing c).lower.result = .ok programs ∧
        Thread.verdict ⟨true, programs.reverse.map (⟨0, ·⟩)⟩
          ⟨39, Call.nativeArchitecture, 0, fun _ => 1⟩ = .trace 5 := by
  refine ⟨by decide +kernel, ⟨rfl, by decide, by decide⟩, by decide,
    (tracing ⟨0, .maskedEq 1, 3⟩).programs.toOption.getD [], ?_⟩
  decide +kernel

end ArgCheck

end SyscallPolicy
