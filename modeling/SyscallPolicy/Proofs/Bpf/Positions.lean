import SyscallPolicy.Proofs.Bpf.WellFormed

/-! Programs by the positions of their instructions: what the kernel demands of each of them, and
execution one instruction at a time. A program that meets the demands always comes to a return. -/
namespace SyscallPolicy.Bpf

/-- Every aligned word of the description of a call can be loaded. -/
theorem Call.exists_word? (call : Call) {offset : Nat} (haligned : 4 ∣ offset)
    (hinside : offset + 4 ≤ 64) : ∃ value, call.word? offset = some value := by
  unfold Call.word?
  split
  · exact ⟨_, rfl⟩
  · exact ⟨_, rfl⟩
  · exact ⟨_, rfl⟩
  · exact ⟨_, rfl⟩
  · next hnumber harchitecture hpointer hpointer' =>
    have hargs : 16 ≤ offset ∧ offset < 64 := by
      simp only [imp_false] at hnumber harchitecture hpointer hpointer'
      omega
    rw [dif_pos hargs]
    by_cases hlow : offset % 8 = 0
    · exact ⟨_, if_pos hlow⟩
    · have hhigh : offset % 8 = 4 := by omega
      exact ⟨_, by rw [if_neg hlow, if_pos hhigh]⟩

namespace Program

/-- What the kernel demands of a filter program. Jumps only go forward, so that they stay inside the
program if they do not lead past its end, and the offsets of a branch have eight bits. -/
structure Checked (program : Program) : Prop where
  length_pos : 0 < program.length
  length_le : program.length ≤ maxLength
  load : ∀ {i offset : Nat}, program[i]? = some (.load offset) → 4 ∣ offset ∧ offset + 4 ≤ 64
  jump : ∀ {i skip : Nat}, program[i]? = some (.jump skip) → i + 1 + skip < program.length
  branch : ∀ {i : Nat} {test constant yes no},
    program[i]? = some (.branch test constant yes no) →
      yes ≤ maxOffset ∧ no ≤ maxOffset ∧
        i + 1 + yes < program.length ∧ i + 1 + no < program.length
  last : ∃ value, program.getLast? = some (.ret value)

section Check
variable {program : Program}

theorem fits_iff : program.fits = true ↔
    ∀ (i : Nat) (instr : Instr), program[i]? = some instr →
      instr.fits (program.length - (i + 1)) = true := by
  induction program with
  | nil => simp [fits]
  | cons first rest ih =>
    rw [fits, Bool.and_eq_true, ih]
    constructor
    · rintro ⟨hfirst, hrest⟩ i instr hinstr
      cases i with
      | zero =>
        cases hinstr
        simpa using hfirst
      | succ i =>
        rw [List.getElem?_cons_succ] at hinstr
        rw [List.length_cons, Nat.add_sub_add_right]
        exact hrest i instr hinstr
    · intro h
      refine ⟨by simpa using h 0 first rfl, fun i instr hinstr => ?_⟩
      have hfits := h (i + 1) instr (by rwa [List.getElem?_cons_succ])
      rwa [List.length_cons, Nat.add_sub_add_right] at hfits

theorem endsInReturn_iff :
    program.endsInReturn = true ↔ ∃ value, program.getLast? = some (.ret value) := by
  unfold endsInReturn
  split
  · next value heq => simp [heq]
  · next hne =>
    constructor
    · exact fun h => absurd h Bool.false_ne_true
    · rintro ⟨value, heq⟩
      exact absurd heq (hne value)

/-- The kernel takes exactly the programs that meet its demands. -/
theorem isAcceptable_iff_checked : program.isAcceptable = true ↔ program.Checked := by
  rw [isAcceptable, decide_eq_true_eq, fits_iff, endsInReturn_iff]
  constructor
  · rintro ⟨hlength, hfits, hlast⟩
    refine ⟨?_, hlength, ?_, ?_, ?_, hlast⟩
    · obtain ⟨value, hvalue⟩ := hlast
      exact List.length_pos_of_mem (List.mem_of_getLast? hvalue)
    · intro i offset hload
      have h := hfits i _ hload
      simp only [Instr.fits, decide_eq_true_eq] at h
      omega
    · intro i skip hjump
      have h := hfits i _ hjump
      simp only [Instr.fits, decide_eq_true_eq] at h
      omega
    · intro i test constant yes no hbranch
      have h := hfits i _ hbranch
      simp only [Instr.fits, decide_eq_true_eq] at h
      unfold maxOffset
      omega
  · intro h
    refine ⟨h.length_le, fun i instr hinstr => ?_, h.last⟩
    cases instr with
    | load offset =>
      have := h.load hinstr
      simp only [Instr.fits, decide_eq_true_eq]
      omega
    | mask bits => rfl
    | jump skip =>
      have := h.jump hinstr
      simp only [Instr.fits, decide_eq_true_eq]
      omega
    | branch test constant yes no =>
      have := h.branch hinstr
      unfold maxOffset at this
      simp only [Instr.fits, decide_eq_true_eq]
      omega
    | ret value => rfl

/-- Every instruction but a return has another one behind it. -/
theorem Checked.lt_length (h : program.Checked) {i : Nat} {instr : Instr}
    (hinstr : program[i]? = some instr) (hne : ∀ value, instr ≠ .ret value) :
    i + 1 < program.length := by
  have hlt : i < program.length := (List.getElem?_eq_some_iff.mp hinstr).1
  rcases Nat.lt_or_ge (i + 1) program.length with hinside | hend
  · exact hinside
  · obtain ⟨value, hlast⟩ := h.last
    have hi : program.length - 1 = i := by omega
    rw [List.getLast?_eq_getElem?, hi, hinstr] at hlast
    exact absurd (Option.some.inj hlast) (hne value)

end Check

/-- The position of the next instruction, and the accumulator. -/
structure State where
  index : Nat
  a : UInt32

/-- What one instruction makes of a state. There is nothing next after a return, at a position
outside the program, and when a word outside the call is loaded. -/
def next? (program : Program) (call : Call) (s : State) : Option State :=
  match program[s.index]? with
  | some (.load offset) => (call.word? offset).map fun value => ⟨s.index + 1, value⟩
  | some (.mask bits) => some ⟨s.index + 1, s.a &&& bits⟩
  | some (.jump skip) => some ⟨s.index + 1 + skip, s.a⟩
  | some (.branch test constant yes no) =>
    some ⟨s.index + 1 + if test.holds s.a constant then yes else no, s.a⟩
  | some (.ret _) | none => none

/-- A state from which as many instructions as given are executed, the last of them a return of the
value. -/
inductive Returns (program : Program) (call : Call) (value : UInt32) : Nat → State → Prop
  | ret {s} : program[s.index]? = some (.ret value) → Returns program call value 1 s
  | next {steps s t} : program.next? call s = some t → Returns program call value steps t →
      Returns program call value (steps + 1) s

section Execution
variable {program : Program} {call : Call}

/-- An instruction of a program that is no return leads on, and only forward. -/
theorem Checked.progress (h : program.Checked) (call : Call) {s : State}
    (hs : s.index < program.length) :
    (∃ value, program[s.index]? = some (.ret value)) ∨
      ∃ t, program.next? call s = some t ∧ s.index < t.index ∧ t.index < program.length := by
  have hinstr := List.getElem?_eq_getElem hs
  unfold next?
  cases heq : program[s.index] with
  | load offset =>
    rw [heq] at hinstr
    obtain ⟨haligned, hinside⟩ := h.load hinstr
    obtain ⟨value, hvalue⟩ := call.exists_word? haligned hinside
    have hlt := h.lt_length hinstr (fun _ => Instr.noConfusion)
    exact Or.inr ⟨⟨s.index + 1, value⟩, by rw [hinstr]; simp [hvalue], by simp, hlt⟩
  | mask bits =>
    rw [heq] at hinstr
    have hlt := h.lt_length hinstr (fun _ => Instr.noConfusion)
    exact Or.inr ⟨_, by rw [hinstr], by simp, hlt⟩
  | jump skip =>
    rw [heq] at hinstr
    exact Or.inr ⟨_, by rw [hinstr], by simp; omega, h.jump hinstr⟩
  | branch test constant yes no =>
    rw [heq] at hinstr
    obtain ⟨-, -, hyes, hno⟩ := h.branch hinstr
    refine Or.inr ⟨_, by rw [hinstr], by simp; omega, ?_⟩
    dsimp only
    split
    · exact hyes
    · exact hno
  | ret value =>
    rw [heq] at hinstr
    exact Or.inl ⟨value, hinstr⟩

/-- From any position, no more instructions are executed than there are from there on. -/
theorem Checked.exists_returns (h : program.Checked) (call : Call) {s : State}
    (hs : s.index < program.length) :
    ∃ steps value, steps ≤ program.length - s.index ∧ program.Returns call value steps s := by
  -- On the number of instructions from the position on: every step is forward.
  induction hleft : program.length - s.index using Nat.strongRecOn generalizing s with
  | ind left ih =>
    rcases h.progress call hs with ⟨value, hret⟩ | ⟨t, hnext, hforward, hinside⟩
    · exact ⟨1, value, by omega, .ret hret⟩
    · obtain ⟨steps, value, hsteps, hreturns⟩ := ih _ (by omega) hinside rfl
      exact ⟨steps + 1, value, by omega, .next hnext hreturns⟩

theorem runFrom_add (n skip : Nat) (a : UInt32) :
    runFrom call (n + skip) a program = runFrom call skip a (program.drop n) := by
  induction n generalizing program with
  | zero => rw [Nat.zero_add, List.drop_zero]
  | succ n ih =>
    cases program with
    | nil => simp [runFrom]
    | cons instr rest => rw [Nat.add_right_comm, runFrom, ih, List.drop_succ_cons]

theorem runFrom_at {i : Nat} {instr : Instr} (hinstr : program[i]? = some instr) (a : UInt32) :
    runFrom call i a program = runFrom call 0 a (instr :: program.drop (i + 1)) := by
  obtain ⟨hlt, heq⟩ := List.getElem?_eq_some_iff.mp hinstr
  rw [← Nat.add_zero i, runFrom_add, Nat.add_zero, List.drop_eq_getElem_cons hlt, heq]

/-- One instruction leaves the value to be returned as it is. -/
theorem runFrom_of_next? {s t : State} (h : program.next? call s = some t) :
    runFrom call s.index s.a program = runFrom call t.index t.a program := by
  unfold next? at h
  split at h
  · next offset hinstr =>
    obtain ⟨value, hvalue, rfl⟩ := Option.map_eq_some_iff.mp h
    rw [runFrom_at hinstr, runFrom, hvalue, Option.bind_some, ← runFrom_add, Nat.add_zero]
  · next bits hinstr =>
    cases h
    rw [runFrom_at hinstr, runFrom, ← runFrom_add, Nat.add_zero]
  · next skip hinstr =>
    cases h
    rw [runFrom_at hinstr, runFrom, ← runFrom_add]
  · next test constant yes no hinstr =>
    cases h
    rw [runFrom_at hinstr, runFrom, ← runFrom_add]
  · cases h
  · cases h

/-- A program returns what it comes to instruction by instruction. -/
theorem Returns.runFrom_eq {value : UInt32} {steps : Nat} {s : State}
    (h : program.Returns call value steps s) :
    runFrom call s.index s.a program = some value := by
  induction h with
  | ret hret => rw [runFrom_at hret, runFrom]
  | next hnext _ ih => rw [runFrom_of_next? hnext, ih]

end Execution

end Program

end SyscallPolicy.Bpf
