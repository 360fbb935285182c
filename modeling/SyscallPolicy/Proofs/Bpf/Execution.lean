import SyscallPolicy.Bpf.Emission
import SyscallPolicy.Proofs.Bpf.Halves

/-! What the code for conditions, rules, chains and tables does when it runs. Code is always run in
front of an arbitrary rest of a program, so that the statements compose. -/
namespace SyscallPolicy.Bpf

namespace Program
variable (call : Call) (a : UInt32) (rest : Program)

@[simp] theorem runFrom_skip (n : Nat) (instr : Instr) :
    runFrom call (n + 1) a (instr :: rest) = runFrom call n a rest := rfl

@[simp] theorem runFrom_jump (skip : Nat) :
    runFrom call 0 a (.jump skip :: rest) = runFrom call skip a rest := rfl

@[simp] theorem runFrom_mask (bits : UInt32) :
    runFrom call 0 a (.mask bits :: rest) = runFrom call 0 (a &&& bits) rest := rfl

theorem runFrom_branch (test : Test) (constant : UInt32) (yes no : Nat) :
    runFrom call 0 a (.branch test constant yes no :: rest) =
      runFrom call (if test.holds a constant then yes else no) a rest := rfl

@[simp] theorem runFrom_load_low (i : Fin 6) :
    runFrom call 0 a (.load (16 + 8 * i.val) :: rest) =
      runFrom call 0 (low (call.args i)) rest := by
  rw [runFrom, call.word?_low, Option.bind_some]

@[simp] theorem runFrom_load_high (i : Fin 6) :
    runFrom call 0 a (.load (16 + 8 * i.val + 4) :: rest) =
      runFrom call 0 (high (call.args i)) rest := by
  rw [runFrom, call.word?_high, Option.bind_some]

/-- A jump over a whole piece of code goes on behind it. -/
theorem runFrom_append (n : Nat) (code : Program) :
    runFrom call (n + code.length) a (code ++ rest) = runFrom call n a rest := by
  induction code with
  | nil => rfl
  | cons instr code ih =>
    rw [List.length_cons, ← Nat.add_assoc, List.cons_append, runFrom_skip, ih]

end Program

open Program

section Conditions
variable {call : Call} {rest : Program} {fail : Nat} {yes no : Option UInt32}

/-- Both halves of an argument are compared. If the high half differs, the answer is that of the
failed comparison of the low half. -/
theorem runFrom_halves {m n : Nat} {whenTrue whenFalse : Option UInt32}
    (htrue : ∀ a, runFrom call m a rest = whenTrue)
    (hfalse : ∀ a, runFrom call n a rest = whenFalse)
    (i : Fin 6) (test : Test) (a hi lo : UInt32) :
    runFrom call 0 a (.branch .eq hi 0 (n + 2) :: .load (16 + 8 * i.val) ::
        .branch test lo m n :: rest) =
      if a = hi ∧ test.holds (low (call.args i)) lo then whenTrue else whenFalse := by
  rw [runFrom_branch]
  by_cases heq : a = hi
  · rw [if_pos (by simp [Test.holds, heq]), runFrom_load_low, runFrom_branch]
    by_cases htest : test.holds (low (call.args i)) lo = true
    · rw [if_pos htest, if_pos ⟨heq, htest⟩, htrue]
    · rw [if_neg htest, if_neg (fun h => htest h.2), hfalse]
  · rw [if_neg (by simp [Test.holds, heq]), if_neg (fun h => heq h.1), runFrom_skip, runFrom_skip,
      hfalse]

/-- A high half that is greater decides at once; the low halves count only between equal high
ones. -/
theorem runFrom_above (hyes : ∀ a, runFrom call 0 a rest = yes)
    (hno : ∀ a, runFrom call fail a rest = no) (i : Fin 6) (test : Test) (a hi lo : UInt32) :
    runFrom call 0 a (.branch .gt hi 3 0 :: .branch .eq hi 0 (fail + 2) ::
        .load (16 + 8 * i.val) :: .branch test lo 0 fail :: rest) =
      if hi < a ∨ a = hi ∧ test.holds (low (call.args i)) lo then yes else no := by
  rw [runFrom_branch]
  by_cases hlt : hi < a
  · rw [if_pos (by simp [Test.holds, hlt]), if_pos (Or.inl hlt)]
    simp only [runFrom_skip, hyes]
  · rw [if_neg (by simp [Test.holds, hlt]), runFrom_halves hyes hno]
    simp only [hlt, false_or]

/-- As `runFrom_above`, for comparisons that a greater high half makes fail. -/
theorem runFrom_below (hyes : ∀ a, runFrom call 0 a rest = yes)
    (hno : ∀ a, runFrom call fail a rest = no) (i : Fin 6) (test : Test) (a hi lo : UInt32) :
    runFrom call 0 a (.branch .gt hi (fail + 3) 0 :: .branch .eq hi 0 2 ::
        .load (16 + 8 * i.val) :: .branch test lo fail 0 :: rest) =
      if hi < a ∨ a = hi ∧ test.holds (low (call.args i)) lo then no else yes := by
  rw [runFrom_branch]
  by_cases hlt : hi < a
  · rw [if_pos (by simp [Test.holds, hlt]), if_pos (Or.inl hlt)]
    simp only [runFrom_skip, hno]
  · rw [if_neg (by simp [Test.holds, hlt]), runFrom_halves (n := 0) hno hyes]
    simp only [hlt, false_or]

/-- The code of a condition runs on right behind itself if the condition holds, else at its
failure. It says nothing of the accumulator there, so neither place may depend on it. -/
theorem runFrom_conditionCode (hyes : ∀ a, runFrom call 0 a rest = yes)
    (hno : ∀ a, runFrom call fail a rest = no) (c : Condition) (a : UInt32) :
    runFrom call 0 a (conditionCode c fail ++ rest) =
      if c.holds call.args then yes else no := by
  obtain ⟨i, comparison, value⟩ := c
  unfold conditionCode Condition.holds
  cases comparison with
  | eq =>
    simp only [List.cons_append, List.nil_append, runFrom_load_high, runFrom_halves hyes hno,
      Comparison.holds, eq_iff_halves, Test.holds, decide_eq_true_eq]
  | ne =>
    simp only [List.cons_append, List.nil_append, runFrom_load_high,
      runFrom_halves (n := 0) hno hyes, Comparison.holds, ne_eq, eq_iff_halves, Test.holds,
      decide_eq_true_eq, ite_not]
  | gt =>
    simp only [List.cons_append, List.nil_append, runFrom_load_high, runFrom_above hyes hno,
      Comparison.holds, lt_iff_halves, Test.holds, decide_eq_true_eq, eq_comm (a := high value)]
  | ge =>
    simp only [List.cons_append, List.nil_append, runFrom_load_high, runFrom_above hyes hno,
      Comparison.holds, le_iff_halves, Test.holds, decide_eq_true_eq, eq_comm (a := high value)]
  | lt =>
    simp only [List.cons_append, List.nil_append, runFrom_load_high, runFrom_below hyes hno,
      Comparison.holds, ← UInt64.not_le, le_iff_halves, Test.holds, decide_eq_true_eq,
      eq_comm (a := high value), ite_not]
  | le =>
    simp only [List.cons_append, List.nil_append, runFrom_load_high, runFrom_below hyes hno,
      Comparison.holds, ← UInt64.not_lt, lt_iff_halves, Test.holds, decide_eq_true_eq,
      eq_comm (a := high value), ite_not]
  | maskedEq mask =>
    simp only [List.cons_append, List.nil_append, runFrom_load_high, runFrom_mask, runFrom_branch,
      Comparison.holds, eq_iff_halves, high_and, low_and, Test.holds, decide_eq_true_eq]
    by_cases hhigh : high (call.args i) &&& high mask = high value &&& high mask
    · by_cases hlow : low (call.args i) &&& low mask = low value &&& low mask
      · simp [hhigh, hlow, runFrom_branch, Test.holds, hyes]
      · simp [hhigh, hlow, runFrom_branch, Test.holds, hno]
    · simp [hhigh, hno]

end Conditions

section Rules

/-- What the code of conditions does in front of the return of their rule: it gets there if the
conditions pass, and fails right behind it if they do not. The failure and the exit next to it are
also reached by jumps alone, which keep the accumulator. -/
structure Body.Runs (call : Call) (value : UInt32) (body : Body) (passes : Bool) : Prop where
  enter : ∀ {rest r}, (∀ a, runFrom call 0 a rest = r) → ∀ a,
    runFrom call 0 a (body.code ++ .ret value :: rest) = if passes then some value else r
  fails : ∀ rest a, runFrom call body.fail a (body.code ++ .ret value :: rest) =
    runFrom call 0 a rest
  leaves : ∀ rest a, runFrom call (body.fail + 1) a (body.code ++ .ret value :: rest) =
    runFrom call 1 a rest

variable {call : Call} {value otherwise : UInt32}

theorem Body.runs_empty : Body.empty.Runs call value true where
  enter _ _ := rfl
  fails _ _ := rfl
  leaves _ _ := rfl

theorem Body.Runs.relay {body : Body} {passes : Bool} (h : body.Runs call value passes) :
    body.relay.Runs call value passes where
  enter hrest a := by
    simpa only [Body.relay, List.cons_append, List.nil_append, runFrom_jump, runFrom_skip] using
      h.enter hrest a
  fails rest a := by
    simpa only [Body.relay, List.cons_append, List.nil_append, runFrom_jump, runFrom_skip] using
      h.fails rest a
  leaves rest a := by
    simpa only [Body.relay, List.cons_append, List.nil_append, runFrom_jump, runFrom_skip] using
      h.leaves rest a

theorem Body.Runs.extend {body : Body} {passes : Bool} (h : body.Runs call value passes)
    (c : Condition) :
    Body.Runs call value
      ⟨body.fail + (conditionCode c body.fail).length, conditionCode c body.fail ++ body.code⟩
      (c.holds call.args && passes) where
  enter {rest r} hrest a := by
    have hfail (a : UInt32) : runFrom call body.fail a (body.code ++ .ret value :: rest) = r := by
      rw [h.fails, hrest]
    rw [List.append_assoc, runFrom_conditionCode (h.enter hrest) hfail]
    cases c.holds call.args <;> rfl
  fails rest a := by
    rw [List.append_assoc, runFrom_append, h.fails]
  leaves rest a := by
    rw [List.append_assoc, Nat.add_right_comm, runFrom_append, h.leaves]

theorem Body.Runs.push {body : Body} {passes : Bool} (h : body.Runs call value passes)
    (c : Condition) : (body.push c).Runs call value (c.holds call.args && passes) := by
  unfold Body.push
  by_cases hfar : body.fail + conditionRoom > maxOffset
  · simp only [if_pos hfar]
    exact h.relay.extend c
  · simp only [if_neg hfar]
    exact h.extend c

theorem Body.Runs.foldl_push {body : Body} {passes : Bool} (h : body.Runs call value passes)
    (conditions : List Condition) :
    (conditions.foldl Body.push body).Runs call value
      (conditions.all (·.holds call.args) && passes) := by
  induction conditions generalizing body passes with
  | nil => exact h
  | cons c conditions ih =>
    have hnext := ih (h.push c)
    rw [← Bool.and_assoc, Bool.and_comm (conditions.all _)] at hnext
    exact hnext

/-- The body of a rule gets to the rule's return if all its conditions hold. -/
theorem Body.runs_conditions (conditions : List Condition) :
    (conditions.foldl Body.push .empty).Runs call value (conditions.all (·.holds call.args)) := by
  have hbody : (conditions.foldl Body.push .empty).Runs call value
      (conditions.all (·.holds call.args) && true) := Body.runs_empty.foldl_push conditions
  rwa [Bool.and_true] at hbody

/-- The code of a rule returns the rule's value if all conditions hold, however many there are,
and else goes on behind itself. -/
theorem runFrom_ruleCode {rest : Program} {r : Option UInt32}
    (hrest : ∀ a, runFrom call 0 a rest = r) (conditions : List Condition) (a : UInt32) :
    runFrom call 0 a (ruleCode value conditions ++ rest) =
      if conditions.all (·.holds call.args) then some value else r := by
  simpa only [ruleCode, List.cons_append, List.nil_append, List.append_assoc, runFrom_jump,
    runFrom_skip] using (Body.runs_conditions conditions).enter hrest a

/-- A jump to the second instruction of a rule goes on at the second instruction behind it. -/
theorem runFrom_one_ruleCode (conditions : List Condition) (a : UInt32) (rest : Program) :
    runFrom call 1 a (ruleCode value conditions ++ rest) = runFrom call 1 a rest := by
  simpa only [ruleCode, List.cons_append, List.nil_append, List.append_assoc, runFrom_jump,
    runFrom_skip] using (Body.runs_conditions conditions).leaves rest a

end Rules

section Tables
variable {call : Call} {value otherwise : UInt32}

/-- Whether one of the rules of a chain holds on a call. -/
def Chain.holds (call : Call) : Chain → Bool
  | always => true
  | anyOf rules => rules.any fun conditions => conditions.all (·.holds call.args)

theorem runFrom_rules (rules : List (List Condition)) (a : UInt32) (rest : Program) :
    runFrom call 0 a (rules.flatMap (ruleCode value) ++ .ret otherwise :: rest) =
      if (Chain.anyOf rules).holds call then some value else some otherwise := by
  induction rules generalizing a with
  | nil => rfl
  | cons conditions rules ih =>
    rw [List.flatMap_cons, List.append_assoc, runFrom_ruleCode ih]
    have hholds : (Chain.anyOf (conditions :: rules)).holds call =
      (conditions.all (·.holds call.args) || (Chain.anyOf rules).holds call) := rfl
    cases hhead : conditions.all (·.holds call.args) with
    | true => rw [if_pos rfl, hholds, hhead, Bool.true_or, if_pos rfl]
    | false => rw [if_neg Bool.false_ne_true, hholds, hhead, Bool.false_or]

theorem runFrom_one_rules (rules : List (List Condition)) (a : UInt32) (rest : Program) :
    runFrom call 1 a (rules.flatMap (ruleCode value) ++ .ret otherwise :: rest) =
      runFrom call 0 a rest := by
  induction rules with
  | nil => rfl
  | cons conditions rules ih =>
    rw [List.flatMap_cons, List.append_assoc, runFrom_one_ruleCode, ih]

theorem runFrom_chainCode (chain : Chain) (a : UInt32) (rest : Program) :
    runFrom call 0 a (chain.code value otherwise ++ rest) =
      some (if chain.holds call then value else otherwise) := by
  cases chain with
  | always => rfl
  | anyOf rules =>
    rw [Chain.code, List.append_assoc, List.singleton_append, runFrom_rules, apply_ite some]

/-- Entered at its second instruction, the code for a call passes on to what follows. -/
theorem runFrom_one_chainCode (chain : Chain) (a : UInt32) (rest : Program) :
    runFrom call 1 a (chain.code value otherwise ++ rest) = runFrom call 0 a rest := by
  cases chain with
  | always => rfl
  | anyOf rules =>
    rw [Chain.code, List.append_assoc, List.singleton_append, runFrom_one_rules]

/-- Whether the rules for a call, the first that a table has for it, hold on the call. -/
def Table.holds (table : Table) (call : Call) : Bool :=
  (table.find? (·.1.toNat.toUInt32 = call.number)).elim false (·.2.holds call)

theorem Table.holds_cons (number : Int) (chain : Chain) (table : Table) :
    Table.holds ((number, chain) :: table) call =
      if number.toNat.toUInt32 = call.number then chain.holds call else table.holds call := by
  by_cases hnumber : number.toNat.toUInt32 = call.number <;>
    simp [Table.holds, hnumber]

theorem runFrom_tableCode (table : Table) :
    runFrom call 0 call.number (table.code value otherwise ++ [.ret otherwise]) =
      some (if table.holds call then value else otherwise) := by
  induction table with
  | nil => rfl
  | cons entry table ih =>
    obtain ⟨number, chain⟩ := entry
    rw [Table.code, List.flatMap_cons, List.append_assoc, List.cons_append, runFrom_branch,
      Table.holds_cons]
    by_cases hnumber : number.toNat.toUInt32 = call.number
    · rw [if_pos hnumber, if_pos (by simp [Test.holds, hnumber]), runFrom_chainCode]
    · rw [if_neg hnumber, if_neg (by simp [Test.holds, Ne.symm hnumber]), runFrom_one_chainCode]
      exact ih

/-- A program answers every call of the native architecture with one of its two verdicts. -/
theorem Table.run_program {table : Table} {mismatch onMatch : Verdict} {program : Program}
    (hprogram : table.program mismatch onMatch = .ok program)
    (hnative : call.architecture = Call.nativeArchitecture) :
    program.run call = some (if table.holds call then onMatch else mismatch).word := by
  have hentry (rest : Program) :
      runFrom call 0 0 (architectureCode ++ rest) = runFrom call 0 call.architecture rest := by
    simp only [architectureCode, List.cons_append, List.nil_append, runFrom, Call.word?,
      Option.bind_some, Test.holds, hnative, decide_true, if_true]
  unfold Table.program at hprogram
  split at hprogram
  · cases hprogram
  split at hprogram
  · cases hprogram
  split at hprogram
  · next hempty =>
    cases hprogram
    rw [List.isEmpty_iff.mp hempty, run, hentry]
    rfl
  split at hprogram
  · cases hprogram
  split at hprogram
  · cases hprogram
  dsimp only at hprogram
  split at hprogram
  · cases hprogram
    rw [run, List.append_assoc, hentry]
    exact (runFrom_tableCode table).trans (by rw [apply_ite Verdict.word])
  · cases hprogram

end Tables

end SyscallPolicy.Bpf
