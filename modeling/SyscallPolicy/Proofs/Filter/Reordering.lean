import Mathlib.Data.List.Perm.Basic
import SyscallPolicy.Proofs.Filter.Lowering

/-! Filters with the same rules in another order. Each verdict has the same program in both up to
the order of its instructions, so the programs are as many and as long. -/
namespace SyscallPolicy
open Bpf (Call Program Table)
open Kernel (Thread)

/-- Numbers put in one after the other end up at their places, whichever comes first. -/
theorem insertNumber_comm (m n : Int) (numbers : List Int) :
    insertNumber m (insertNumber n numbers) = insertNumber n (insertNumber m numbers) := by
  induction numbers with
  | nil => grind [insertNumber]
  | cons k numbers ih => grind [insertNumber]

namespace Rule
variable {rules others : List Rule}

theorem numbers_eq_of_perm (h : rules.Perm others) : numbers rules = numbers others := by
  have : LeftCommutative fun (rule : Rule) => insertNumber rule.number :=
    ⟨fun first second => insertNumber_comm first.number second.number⟩
  exact h.foldr_eq []

theorem chain_code_perm (h : rules.Perm others) (value otherwise : UInt32) :
    ((chain rules).code value otherwise).Perm ((chain others).code value otherwise) := by
  unfold chain
  rw [h.all_eq]
  split
  · exact ((h.map _).flatMap_right _).append_right _
  · exact List.Perm.refl _

theorem instructions_table_perm (h : rules.Perm others) (mismatch onMatch : Verdict) :
    ((table rules).instructions mismatch onMatch).Perm
      ((table others).instructions mismatch onMatch) := by
  have hcode : ((table rules).code onMatch.word mismatch.word).Perm
      ((table others).code onMatch.word mismatch.word) := by
    simp only [Table.code, table, List.flatMap_map, numbers_eq_of_perm h]
    exact List.Perm.flatMap_left _ fun n _ =>
      (chain_code_perm (h.filter _) onMatch.word mismatch.word).cons _
  have hempty : (table rules).isEmpty = (table others).isEmpty := by
    simp only [table, List.isEmpty_map, numbers_eq_of_perm h]
  unfold Table.instructions
  rw [hempty]
  split
  · exact List.Perm.refl _
  · exact ((hcode.cons _).append_left _).append_right _

end Rule

namespace Filter

/-- The same default verdict and the same rules, in whatever order. -/
structure Reorders (filter other : Filter) : Prop where
  verdict_eq : filter.verdict = other.verdict
  rules_perm : filter.rules.Perm other.rules

namespace Reorders
variable {filter other : Filter}

theorem symm (h : filter.Reorders other) : other.Reorders filter :=
  ⟨h.verdict_eq.symm, h.rules_perm.symm⟩

theorem instructions_perm (h : filter.Reorders other) (v : Verdict) :
    (filter.instructions v).Perm (other.instructions v) := by
  unfold instructions
  rw [h.verdict_eq]
  split
  · exact Rule.instructions_table_perm h.rules_perm _ _
  · exact Rule.instructions_table_perm (h.rules_perm.filter _) _ _

theorem length_instructions (h : filter.Reorders other) (v : Verdict) :
    (filter.instructions v).length = (other.instructions v).length :=
  (h.instructions_perm v).length_eq

theorem blocksSeccomp_eq (h : filter.Reorders other) :
    filter.blocksSeccomp = other.blocksSeccomp := by
  funext v
  unfold blocksSeccomp rulesFor
  rw [h.verdict_eq, (h.rules_perm.filter _).all_eq, (h.rules_perm.filter _).any_eq]

theorem mem_stageVerdicts_iff (h : filter.Reorders other) {v : Verdict} :
    v ∈ filter.stageVerdicts ↔ v ∈ other.stageVerdicts := by
  rw [mem_stageVerdicts, mem_stageVerdicts, h.verdict_eq]
  simp only [h.rules_perm.mem_iff]

theorem stageVerdicts_perm (h : filter.Reorders other) (hs : filter.Sound) (hs' : other.Sound) :
    filter.stageVerdicts.Perm other.stageVerdicts :=
  (List.perm_ext_iff_of_nodup hs.nodup_stageVerdicts hs'.nodup_stageVerdicts).mpr
    fun _ => h.mem_stageVerdicts_iff

/-- The programs are attached in another order, but they are for the same verdicts. -/
theorem attachedVerdicts_perm (h : filter.Reorders other) (hs : filter.Sound)
    (hs' : other.Sound) : filter.attachedVerdicts.Perm other.attachedVerdicts := by
  have hperm := h.stageVerdicts_perm hs hs'
  unfold attachedVerdicts
  rw [h.blocksSeccomp_eq]
  exact (hperm.filter _).append (hperm.filter _)

theorem blockers_eq (h : filter.Reorders other) (hs : filter.Sound) (hs' : other.Sound) :
    filter.blockers = other.blockers := by
  rw [← hs.length_blocking, ← hs'.length_blocking, h.blocksSeccomp_eq]
  exact ((h.stageVerdicts_perm hs hs').filter _).length_eq

end Reorders

section Lowered
variable {filter other : Filter} {programs programs' : List Program}

theorem Sound.exists_stage_of_lower (hs : filter.Sound) (h : filter.lower.result = .ok programs)
    {v : Verdict} (hv : v ∈ filter.stageVerdicts) : ∃ stage, filter.stage v = .ok stage := by
  obtain ⟨_, _, stage, hstage, _⟩ := exists_mem_of_forall₂
    (hs.programs_eq_ok (lower_eq_ok h)).1.flip (mem_attachedVerdicts.mpr hv)
  exact ⟨stage, hstage⟩

/-- A filter with a number that does not fit into a word is never lowered. -/
theorem Sound.number_lt_of_lower (hs : filter.Sound) (h : filter.lower.result = .ok programs) :
    ∀ rule ∈ filter.rules, rule.number < 0x100000000 := by
  intro rule hrule
  have hne := hs.verdict_ne rule hrule
  by_cases hallow : rule.verdict = .allow
  · -- There is no program for the rule's verdict, but then the base program is made of all rules.
    have hmem : filter.verdict ∈ filter.stageVerdicts :=
      mem_stageVerdicts.mpr ⟨fun heq => hne (hallow.trans heq.symm), .inl rfl⟩
    obtain ⟨stage, hstage⟩ := hs.exists_stage_of_lower h hmem
    rw [Filter.stage, if_pos rfl] at hstage
    exact Rule.number_lt_of_program (baseStage_eq_ok hstage).1 rule hrule
  · have hmem : rule.verdict ∈ filter.stageVerdicts :=
      mem_stageVerdicts.mpr ⟨hallow, .inr ⟨rule, hrule, rfl⟩⟩
    obtain ⟨stage, hstage⟩ := hs.exists_stage_of_lower h hmem
    rw [Filter.stage, if_neg hne] at hstage
    exact Rule.number_lt_of_program (verdictStage_eq_ok hne hstage).1 rule
      (List.mem_filter.mpr ⟨hrule, decide_eq_true rfl⟩)

theorem Sound.lower_eq_ok_iff (hs : filter.Sound)
    (hrange : ∀ rule ∈ filter.rules, rule.number < 0x100000000) :
    filter.lower.result = .ok programs ↔
      (∀ v ∈ filter.stageVerdicts, (filter.instructions v).length < Program.maxLength) ∧
        filter.blockers ≤ 1 ∧ programs = filter.attachedVerdicts.map filter.instructions :=
  (hs.lowers hrange).eq_ok_iff programs

theorem Sound.eq_map_instructions (hs : filter.Sound) (h : filter.lower.result = .ok programs) :
    programs = filter.attachedVerdicts.map filter.instructions :=
  ((hs.lower_eq_ok_iff (hs.number_lt_of_lower h)).mp h).2.2

theorem Reorders.exists_lower (h : filter.Reorders other) (hs : filter.Sound) (hs' : other.Sound)
    (hlower : filter.lower.result = .ok programs) :
    ∃ programs', other.lower.result = .ok programs' := by
  have hrange := hs.number_lt_of_lower hlower
  have hrange' : ∀ rule ∈ other.rules, rule.number < 0x100000000 :=
    fun rule hrule => hrange rule (h.rules_perm.mem_iff.mpr hrule)
  obtain ⟨hfit, hone, -⟩ := (hs.lower_eq_ok_iff hrange).mp hlower
  refine ⟨_, (hs'.lower_eq_ok_iff hrange').mpr ⟨fun v hv => ?_, ?_, rfl⟩⟩
  · rw [← h.length_instructions]
    exact hfit v (h.mem_stageVerdicts_iff.mpr hv)
  · rwa [← h.blockers_eq hs hs']

theorem Reorders.lengths_perm (h : filter.Reorders other) (hs : filter.Sound) (hs' : other.Sound)
    (hlower : filter.lower.result = .ok programs)
    (hlower' : other.lower.result = .ok programs') :
    (programs.map List.length).Perm (programs'.map List.length) := by
  have hlength : List.length ∘ filter.instructions = List.length ∘ other.instructions :=
    funext h.length_instructions
  rw [hs.eq_map_instructions hlower, hs'.eq_map_instructions hlower', List.map_map, List.map_map,
    hlength]
  exact (h.attachedVerdicts_perm hs hs').map _

end Lowered

section Foreign
variable {filter : Filter} {programs : List Program} {call : Call}

theorem run_instructions_foreign (hforeign : call.architecture ≠ Call.nativeArchitecture)
    (filter : Filter) (v : Verdict) :
    (filter.instructions v).run call = some Verdict.killProcess.word := by
  have hentry (rest : Program) :
      Program.run (Bpf.architectureCode ++ rest) call = some Verdict.killProcess.word := by
    simp only [Program.run, Bpf.architectureCode, List.cons_append, List.nil_append,
      Program.runFrom, Call.word?, Option.bind_some, Bpf.Test.holds, hforeign, decide_false,
      Bool.false_eq_true, if_false]
  have htable (table : Table) (mismatch onMatch : Verdict) :
      (table.instructions mismatch onMatch).run call = some Verdict.killProcess.word := by
    unfold Table.instructions
    split
    · exact hentry _
    · rw [List.append_assoc]
      exact hentry _
  unfold instructions
  split
  · exact htable _ _ _
  · exact htable _ _ _

/-- A filter with any program at all kills whoever makes a call of a foreign architecture. -/
theorem Sound.verdict_foreign (hs : filter.Sound) (hlower : filter.lower.result = .ok programs)
    (hforeign : call.architecture ≠ Call.nativeArchitecture) {thread : Thread}
    (hlayers : thread.layers.map (·.program) = programs.reverse) :
    thread.verdict call = if programs = [] then .allow else .killProcess := by
  have hprograms := hs.eq_map_instructions hlower
  have hrun : List.Forall₂ (fun _ program => program.run call = some Verdict.killProcess.word)
      filter.attachedVerdicts programs := by
    rw [hprograms, List.forall₂_map_right_iff]
    exact List.forall₂_same.mpr fun v _ => run_instructions_foreign hforeign filter v
  have hverdict : thread.verdict call = .strictest
      (filter.attachedVerdicts.reverse.map fun _ => Verdict.killProcess.returned) :=
    thread.verdict_eq hlayers hrun
  rw [hverdict]
  by_cases hnil : filter.attachedVerdicts = []
  · rw [hprograms, hnil]
    rfl
  · rw [if_neg (by rw [hprograms]; simpa using hnil)]
    refine Verdict.strictest_eq_of_forall (by simpa using hnil) fun w hw => ?_
    obtain ⟨_, -, heq⟩ := List.mem_map.mp hw
    exact heq.symm

end Foreign

end Filter

end SyscallPolicy
