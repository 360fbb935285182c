import Mathlib.Data.List.Basic
import SyscallPolicy.Filter.Lowering
import SyscallPolicy.Proofs.Bpf.Execution

/-! The table of a list of rules holds on exactly the calls that one of the rules holds on, so its
program tells these calls from all others. -/
namespace SyscallPolicy
open Bpf (Call Chain Program Table)

theorem mem_insertNumber {n m : Int} {numbers : List Int} :
    m ∈ insertNumber n numbers ↔ m = n ∨ m ∈ numbers := by
  induction numbers with
  | nil => simp [insertNumber]
  | cons k numbers ih =>
    unfold insertNumber
    split
    · simp
    · split
      · next heq => simp [heq]
      · rw [List.mem_cons, ih, List.mem_cons]
        exact or_left_comm

namespace Rule

/-- Whether a rule is for a call and all its conditions hold. -/
def holds (call : Call) (rule : Rule) : Bool :=
  rule.number = call.number.toNat && rule.conditions.all (·.holds call.args)

theorem mem_numbers {rules : List Rule} {n : Int} :
    n ∈ numbers rules ↔ ∃ rule ∈ rules, rule.number = n := by
  induction rules with
  | nil => simp [numbers]
  | cons rule rules ih =>
    rw [numbers, List.foldr_cons, mem_insertNumber]
    rw [numbers] at ih
    simp only [ih, List.mem_cons, exists_eq_or_imp, eq_comm (a := n)]

/-- Rules for one call hold together as soon as one of them does. One without conditions holds
anyway. -/
theorem holds_chain (rules : List Rule) (call : Call) :
    (chain rules).holds call = rules.any fun rule => rule.conditions.all (·.holds call.args) := by
  unfold chain
  split
  · simp only [Chain.holds, List.any_map, Function.comp_def]
  · next hall =>
    rw [List.all_eq_true, not_forall] at hall
    obtain ⟨rule, hrule⟩ := hall
    rw [Classical.not_imp, isConditional, Bool.not_eq_true, Bool.not_eq_false'] at hrule
    refine (List.any_eq_true.mpr ⟨rule, hrule.1, ?_⟩).symm
    rw [List.isEmpty_iff.mp hrule.2, List.all_nil]

/-- A number in range is found in a table by its word. -/
private theorem number_eq_iff {n : Int} {word : UInt32} (hn : 0 ≤ n) (hlt : n < 0x100000000) :
    n.toNat.toUInt32 = word ↔ n = word.toNat := by
  rw [← UInt32.toNat_inj, Nat.toUInt32, UInt32.toNat_ofNat']
  omega

theorem holds_table {rules : List Rule} (call : Call)
    (hrange : ∀ rule ∈ rules, 0 ≤ rule.number ∧ rule.number < 0x100000000) :
    (table rules).holds call = rules.any (·.holds call) := by
  have hnumber : ∀ n ∈ numbers rules, n.toNat.toUInt32 = call.number ↔ n = call.number.toNat := by
    intro n hn
    obtain ⟨rule, hrule, rfl⟩ := mem_numbers.mp hn
    exact number_eq_iff (hrange rule hrule).1 (hrange rule hrule).2
  rw [Table.holds, table, List.find?_map]
  change (((numbers rules).find? fun n => n.toNat.toUInt32 = call.number).map _).elim _ _ = _
  cases hfind : (numbers rules).find? fun n => n.toNat.toUInt32 = call.number with
  | none =>
    rw [List.find?_eq_none] at hfind
    refine (List.any_eq_false.mpr fun rule hrule hholds => ?_).symm
    simp only [holds, Bool.and_eq_true, decide_eq_true_eq] at hholds
    have hmem := mem_numbers.mpr ⟨rule, hrule, rfl⟩
    exact hfind _ hmem (decide_eq_true ((hnumber _ hmem).mpr hholds.1))
  | some n =>
    have hword : n.toNat.toUInt32 = call.number := by simpa using List.find?_some hfind
    have hn := (hnumber n (List.mem_of_find?_eq_some hfind)).mp hword
    rw [Option.map_some, Option.elim_some, holds_chain, List.any_filter, hn]
    rfl

theorem table_eq_nil {rules : List Rule} (h : table rules = []) : rules = [] := by
  cases rules with
  | nil => rfl
  | cons rule rules =>
    have hmem : rule.number ∈ numbers (rule :: rules) :=
      mem_numbers.mpr ⟨rule, List.mem_cons_self, rfl⟩
    rw [List.map_eq_nil_iff.mp h] at hmem
    exact absurd hmem List.not_mem_nil

/-- The numbers of rules that a program is made of fit into a word. -/
theorem number_lt_of_program {rules : List Rule} {mismatch onMatch : Verdict} {program : Program}
    (hprogram : (table rules).program mismatch onMatch = .ok program) :
    ∀ rule ∈ rules, rule.number < 0x100000000 := by
  intro rule hrule
  have hmem := mem_numbers.mpr ⟨rule, hrule, rfl⟩
  unfold Table.program at hprogram
  split at hprogram
  · cases hprogram
  split at hprogram
  · cases hprogram
  split at hprogram
  · next hempty =>
    rw [table_eq_nil (List.isEmpty_iff.mp hempty)] at hrule
    exact absurd hrule List.not_mem_nil
  split at hprogram
  · cases hprogram
  · next hwide =>
    simp only [table, List.any_map, List.any_eq_true, Function.comp_apply, decide_eq_true_eq,
      not_exists, not_and] at hwide
    exact Int.not_le.mp (hwide _ hmem)

/-- The program of some rules gives its verdict to the calls that one of them holds on. -/
theorem run_program {rules : List Rule} {mismatch onMatch : Verdict} {program : Program}
    {call : Call} (hnonneg : ∀ rule ∈ rules, 0 ≤ rule.number)
    (hprogram : (table rules).program mismatch onMatch = .ok program)
    (hnative : call.architecture = Call.nativeArchitecture) :
    program.run call =
      some (if rules.any (·.holds call) then onMatch else mismatch).word := by
  rw [Table.run_program hprogram hnative, holds_table]
  exact fun rule hrule => ⟨hnonneg rule hrule, number_lt_of_program hprogram rule hrule⟩

end Rule

end SyscallPolicy
