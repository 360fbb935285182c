import SyscallPolicy.Bpf.Emission

/-! The kernel accepts every program that is made of a table: all its jumps stay inside it, its
branches reach as far as a branch can, and it ends with a return. -/
namespace SyscallPolicy.Bpf

namespace Program

/-- Whether code stays inside the program and the call when `after` instructions follow it. -/
def fitsBefore (after : Nat) : Program → Bool
  | [] => true
  | instr :: rest => instr.fits (rest.length + after) && fitsBefore after rest

theorem fits_eq_fitsBefore (program : Program) : program.fits = program.fitsBefore 0 := by
  induction program with
  | nil => rfl
  | cons instr rest ih => rw [fits, fitsBefore, ih, Nat.add_zero]

theorem fitsBefore_append (after : Nat) (first second : Program) :
    fitsBefore after (first ++ second) =
      (fitsBefore (second.length + after) first && fitsBefore after second) := by
  induction first with
  | nil => rfl
  | cons instr first ih =>
    rw [List.cons_append, fitsBefore, fitsBefore, ih, List.length_append, Nat.add_assoc,
      Bool.and_assoc]

end Program

open Program

/-- The code of a condition fits before its failure if no relay is needed. -/
theorem fitsBefore_conditionCode {c : Condition} {fail after : Nat}
    (hnear : fail + conditionRoom ≤ maxOffset) (hafter : fail < after) :
    fitsBefore after (conditionCode c fail) := by
  obtain ⟨⟨i, hi⟩, comparison, value⟩ := c
  simp only [conditionRoom, maxOffset] at hnear
  cases comparison <;>
    simp only [conditionCode, fitsBefore, Instr.fits, List.length_cons, List.length_nil,
      Bool.true_and, Bool.and_eq_true, decide_eq_true_eq, and_true] <;>
    omega

/-- A body leads no further than to the instruction behind the return that follows it, and fits
before any three instructions. -/
structure Body.Fits (body : Body) : Prop where
  fail_le : body.fail ≤ body.code.length + 1
  code : ∀ {after}, 3 ≤ after → body.code.fitsBefore after

theorem Body.fits_empty : Body.empty.Fits := ⟨by decide, fun _ => rfl⟩

theorem Body.Fits.relay {body : Body} (h : body.Fits) : body.relay.Fits where
  fail_le := by simp only [Body.relay]; omega
  code hafter := by
    have hfail := h.fail_le
    simp only [Body.relay, fitsBefore_append, h.code hafter, fitsBefore, Instr.fits,
      List.length_cons, List.length_nil, Bool.and_true, Bool.and_eq_true, decide_eq_true_eq]
    omega

theorem Body.Fits.extend {body : Body} (h : body.Fits) (c : Condition)
    (hnear : body.fail + conditionRoom ≤ maxOffset) :
    Body.Fits ⟨body.fail + (conditionCode c body.fail).length,
      conditionCode c body.fail ++ body.code⟩ where
  fail_le := by
    have hfail := h.fail_le
    simp only [List.length_append]
    omega
  code {after} hafter := by
    have hfail := h.fail_le
    have hhead : fitsBefore (body.code.length + after) (conditionCode c body.fail) :=
      fitsBefore_conditionCode hnear (by omega)
    rw [fitsBefore_append, hhead, h.code hafter, Bool.and_true]

theorem Body.Fits.push {body : Body} (h : body.Fits) (c : Condition) : (body.push c).Fits := by
  unfold Body.push
  by_cases hfar : body.fail + conditionRoom > maxOffset
  · simp only [if_pos hfar]
    exact h.relay.extend c (Nat.le_of_ble_eq_true rfl)
  · simp only [if_neg hfar]
    exact h.extend c (by omega)

theorem Body.Fits.foldl_push {body : Body} (h : body.Fits) (conditions : List Condition) :
    (conditions.foldl Body.push body).Fits := by
  induction conditions generalizing body with
  | nil => exact h
  | cons c conditions ih => exact ih (h.push c)

theorem length_conditionCode_lt (c : Condition) (fail : Nat) :
    (conditionCode c fail).length < conditionRoom := by
  obtain ⟨i, comparison, value⟩ := c
  cases comparison <;> simp [conditionCode, conditionRoom]

/-- The way to the failure of a rule never gets too long for a branch: where the next condition
could make it so, a relay comes first. -/
theorem Body.fail_push_le (body : Body) (c : Condition) : (body.push c).fail ≤ maxOffset := by
  have hnear : (if body.fail + conditionRoom > maxOffset then body.relay else body).fail +
      conditionRoom ≤ maxOffset := by
    split
    · exact Nat.le_of_ble_eq_true rfl
    · omega
  unfold Body.push
  refine Nat.le_trans (Nat.add_le_add_left (Nat.le_of_lt ?_) _) hnear
  exact length_conditionCode_lt c _

theorem Body.fail_foldl_push_le {body : Body} (h : body.fail ≤ maxOffset)
    (conditions : List Condition) : (conditions.foldl Body.push body).fail ≤ maxOffset := by
  induction conditions generalizing body with
  | nil => exact h
  | cons c conditions ih => exact ih (body.fail_push_le c)

theorem Body.overflows_eq_false (body : Body) (conditions : List Condition) :
    body.overflows conditions = false := by
  induction conditions generalizing body with
  | nil => rfl
  | cons c conditions ih =>
    rw [overflows, ih, Bool.or_false, decide_eq_false_iff_not, Nat.not_lt]
    exact body.fail_push_le c

theorem Chain.overflows_eq_false (chain : Chain) : chain.overflows = false := by
  cases chain with
  | always => rfl
  | anyOf rules => exact List.any_eq_false.mpr fun _ _ => by simp [Body.overflows_eq_false]

theorem fitsBefore_ruleCode (value : UInt32) (conditions : List Condition) {after : Nat}
    (hafter : 2 ≤ after) : fitsBefore after (ruleCode value conditions) := by
  have hbody := Body.fits_empty.foldl_push conditions
  have hfail := hbody.fail_le
  have hcode := hbody.code (show 3 ≤ 1 + after by omega)
  simp only [ruleCode, List.cons_append, List.nil_append, fitsBefore, fitsBefore_append,
    Instr.fits, List.length_cons, List.length_nil, List.length_append, hcode, Bool.and_true,
    Bool.and_eq_true, decide_eq_true_eq]
  omega

theorem fitsBefore_rules (value : UInt32) (rules : List (List Condition)) {after : Nat}
    (hafter : 2 ≤ after) : fitsBefore after (rules.flatMap (ruleCode value)) := by
  induction rules with
  | nil => rfl
  | cons conditions rules ih =>
    rw [List.flatMap_cons, fitsBefore_append, ih, fitsBefore_ruleCode value conditions (by omega),
      Bool.and_true]

theorem Chain.length_code_pos (value otherwise : UInt32) (chain : Chain) :
    0 < (chain.code value otherwise).length := by
  cases chain <;> simp [Chain.code]

theorem fitsBefore_chainCode (value otherwise : UInt32) (chain : Chain) {after : Nat}
    (hafter : 1 ≤ after) : fitsBefore after (chain.code value otherwise) := by
  cases chain with
  | always =>
    simp only [Chain.code, fitsBefore, Instr.fits, List.length_cons, List.length_nil,
      Bool.and_true, Bool.and_eq_true, decide_eq_true_eq]
    omega
  | anyOf rules =>
    rw [Chain.code, fitsBefore_append, fitsBefore_rules value rules (by simp; omega)]
    rfl

theorem fitsBefore_tableCode (value otherwise : UInt32) (table : Table) {after : Nat}
    (hafter : 1 ≤ after) : fitsBefore after (table.code value otherwise) := by
  induction table with
  | nil => rfl
  | cons entry table ih =>
    have hpos := entry.2.length_code_pos value otherwise
    have hchain : fitsBefore ((Table.code table value otherwise).length + after)
        (entry.2.code value otherwise) := fitsBefore_chainCode _ _ _ (by omega)
    rw [Table.code] at ih hchain
    simp only [Table.code, List.flatMap_cons, List.cons_append, fitsBefore, fitsBefore_append, ih,
      hchain, Instr.fits, List.length_append, Bool.and_true, decide_eq_true_eq]
    omega

/-- Every program made of a table is one that the kernel takes for a filter. -/
theorem Table.isAcceptable_program {table : Table} {mismatch onMatch : Verdict}
    {program : Program} (hprogram : table.program mismatch onMatch = .ok program) :
    program.isAcceptable := by
  unfold Table.program at hprogram
  split at hprogram
  · cases hprogram
  split at hprogram
  · cases hprogram
  split at hprogram
  · cases hprogram
    rfl
  split at hprogram
  · cases hprogram
  split at hprogram
  · cases hprogram
  dsimp only at hprogram
  split at hprogram
  · next hlength =>
    cases hprogram
    have htable := fitsBefore_tableCode onMatch.word mismatch.word table (Nat.le_refl 1)
    have hfits : fits (architectureCode ++ Instr.load 0 :: table.code onMatch.word mismatch.word ++
        [.ret mismatch.word]) := by
      simp [fits_eq_fitsBefore, fitsBefore_append, architectureCode, fitsBefore, Instr.fits, htable]
    have hend : endsInReturn (architectureCode ++ Instr.load 0 ::
        table.code onMatch.word mismatch.word ++ [.ret mismatch.word]) := by
      rw [endsInReturn, List.getLast?_concat]
    exact decide_eq_true ⟨Nat.le_of_lt hlength, hfits, hend⟩
  · cases hprogram

end SyscallPolicy.Bpf
