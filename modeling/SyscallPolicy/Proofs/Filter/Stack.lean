import SyscallPolicy.Proofs.Bpf.WellFormed
import SyscallPolicy.Proofs.Filter.Reachable
import SyscallPolicy.Proofs.Filter.RuleTable
import SyscallPolicy.Proofs.Lists
import SyscallPolicy.Proofs.Verdict

/-! The programs of a filter: each is for one verdict, which it gives to the calls that the verdict
is a candidate for, and it allows all others. -/
namespace SyscallPolicy
open Bpf (Call Program Table)

namespace Filter

/-- The verdicts that are up for a call: those of the rules that hold on it, or the default one if
there is no such rule. -/
def candidates (filter : Filter) (call : Call) : List Verdict :=
  let holding := filter.rules.filter (·.holds call)
  if holding = [] then [filter.verdict] else holding.map (·.verdict)

/-- The verdicts that have a program of their own, the default one last. -/
def stageVerdicts (filter : Filter) : List Verdict :=
  filter.verdicts ++ if filter.verdict = .allow then [] else [filter.verdict]

/-- Whether the program for a verdict can stop the call that attaches further programs. -/
def blocksSeccomp (filter : Filter) (verdict : Verdict) : Bool :=
  verdict.stops &&
    if verdict = filter.verdict then
      (filter.rulesFor SyscallTable.seccomp).all Rule.isConditional
    else (filter.rules.filter (·.verdict = verdict)).any (·.number = SyscallTable.seccomp)

/-- The verdicts that have a program of their own in the order in which the programs are
attached. -/
def attachedVerdicts (filter : Filter) : List Verdict :=
  filter.stageVerdicts.filter (!filter.blocksSeccomp ·) ++
    filter.stageVerdicts.filter filter.blocksSeccomp

/-- The stage of the program for a verdict. -/
def stage (filter : Filter) (verdict : Verdict) : Except LoweringFault Stage :=
  if verdict = filter.verdict then filter.baseStage else filter.verdictStage verdict

variable {filter : Filter}

theorem mem_verdicts {v : Verdict} :
    v ∈ filter.verdicts ↔ v ≠ .allow ∧ ∃ rule ∈ filter.rules, rule.verdict = v := by
  simp [verdicts, List.mem_eraseDups, and_comm]

theorem Sound.ne_of_mem_verdicts (hs : filter.Sound) {v : Verdict} (hv : v ∈ filter.verdicts) :
    v ≠ filter.verdict := by
  obtain ⟨_, rule, hrule, rfl⟩ := mem_verdicts.mp hv
  exact hs.verdict_ne rule hrule

theorem mem_stageVerdicts {v : Verdict} :
    v ∈ filter.stageVerdicts ↔
      v ≠ .allow ∧ (v = filter.verdict ∨ ∃ rule ∈ filter.rules, rule.verdict = v) := by
  rw [stageVerdicts, List.mem_append, mem_verdicts]
  by_cases hallow : filter.verdict = .allow
  · rw [if_pos hallow, hallow]
    simp only [List.not_mem_nil, or_false]
    constructor
    · exact fun h => ⟨h.1, Or.inr h.2⟩
    · exact fun h => ⟨h.1, h.2.resolve_left h.1⟩
  · rw [if_neg hallow, List.mem_singleton]
    constructor
    · rintro (⟨hne, hrule⟩ | rfl)
      · exact ⟨hne, Or.inr hrule⟩
      · exact ⟨hallow, Or.inl rfl⟩
    · rintro ⟨hne, rfl | hrule⟩
      · exact Or.inr rfl
      · exact Or.inl ⟨hne, hrule⟩

theorem mem_attachedVerdicts {v : Verdict} :
    v ∈ filter.attachedVerdicts ↔ v ∈ filter.stageVerdicts := by
  rw [attachedVerdicts, List.mem_append, List.mem_filter, List.mem_filter]
  cases filter.blocksSeccomp v <;> simp

theorem Sound.nodup_stageVerdicts (hs : filter.Sound) : filter.stageVerdicts.Nodup := by
  unfold stageVerdicts
  by_cases hallow : filter.verdict = .allow
  · rw [if_pos hallow, List.append_nil]
    exact nodup_eraseDups _
  · rw [if_neg hallow]
    refine List.Nodup.append (nodup_eraseDups _) (List.nodup_singleton _) ?_
    rw [List.disjoint_singleton]
    exact fun h => hs.ne_of_mem_verdicts h rfl

theorem Sound.nodup_attachedVerdicts (hs : filter.Sound) : filter.attachedVerdicts.Nodup := by
  refine List.Nodup.append (hs.nodup_stageVerdicts.filter _) (hs.nodup_stageVerdicts.filter _) ?_
  intro v hfirst hlast
  simp only [List.mem_filter] at hfirst hlast
  simp [hlast.2] at hfirst

section Stages

theorem baseStage_eq_ok {stage : Stage} (h : filter.baseStage = .ok stage) :
    (Rule.table filter.rules).program filter.verdict .allow = .ok stage.program ∧
      stage.blocksSeccomp = filter.blocksSeccomp filter.verdict := by
  simp only [baseStage, bind_eq_ok, pure_eq_ok] at h
  obtain ⟨program, hprogram, rfl⟩ := h
  exact ⟨hprogram, by rw [blocksSeccomp, if_pos rfl]⟩

theorem verdictStage_eq_ok {v : Verdict} {stage : Stage} (hne : v ≠ filter.verdict)
    (h : filter.verdictStage v = .ok stage) :
    (Rule.table (filter.rules.filter (·.verdict = v))).program .allow v = .ok stage.program ∧
      stage.blocksSeccomp = filter.blocksSeccomp v := by
  simp only [verdictStage, bind_eq_ok, pure_eq_ok] at h
  obtain ⟨program, hprogram, rfl⟩ := h
  exact ⟨hprogram, by rw [blocksSeccomp, if_neg hne]⟩

theorem blocksSeccomp_of_stage {v : Verdict} {stage : Stage} (h : filter.stage v = .ok stage) :
    stage.blocksSeccomp = filter.blocksSeccomp v := by
  unfold Filter.stage at h
  split at h
  · next heq => rw [heq]; exact (baseStage_eq_ok h).2
  · next hne => exact (verdictStage_eq_ok hne h).2

theorem Sound.stages_eq (hs : filter.Sound) :
    filter.stages = filter.stageVerdicts.mapM filter.stage := by
  have hverdicts : filter.verdicts.mapM filter.verdictStage = filter.verdicts.mapM filter.stage :=
    mapM_congr fun v hv => by rw [Filter.stage, if_neg (hs.ne_of_mem_verdicts hv)]
  unfold Filter.stages stageVerdicts
  rw [hverdicts]
  by_cases hallow : filter.verdict = .allow
  · simp only [if_pos hallow, List.append_nil, bind_pure]
  · have hbase : filter.stage filter.verdict = filter.baseStage := if_pos rfl
    simp only [if_neg hallow, List.mapM_append, List.mapM_cons, List.mapM_nil, hbase, bind_assoc,
      pure_bind]

/-- The stages of a filter, one for each of its verdicts. -/
theorem Sound.stages_eq_ok (hs : filter.Sound) {stages : List Stage}
    (h : filter.stages = .ok stages) :
    List.Forall₂ (fun v stage => filter.stage v = .ok stage) filter.stageVerdicts stages := by
  rwa [hs.stages_eq, mapM_eq_ok] at h

/-- The programs of a filter in the order in which they are attached, with the verdicts that they
are for. At most one can stop the attaching, and it comes last. -/
theorem Sound.programs_eq_ok (hs : filter.Sound) {programs : List Program}
    (h : filter.programs = .ok programs) :
    List.Forall₂ (fun v program => ∃ stage, filter.stage v = .ok stage ∧ stage.program = program)
        filter.attachedVerdicts programs ∧
      (filter.stageVerdicts.filter filter.blocksSeccomp).length ≤ 1 := by
  simp only [Filter.programs, bind_eq_ok] at h
  obtain ⟨stages, hstages, h⟩ := h
  have hrel := hs.stages_eq_ok hstages
  have hfirst := List.rel_filter (p := (!filter.blocksSeccomp ·)) (q := (!·.blocksSeccomp))
    (fun v stage hstage => by simp [blocksSeccomp_of_stage hstage]) hrel
  have hlast := List.rel_filter (p := filter.blocksSeccomp) (q := (·.blocksSeccomp))
    (fun v stage hstage => by simp [blocksSeccomp_of_stage hstage]) hrel
  simp only [Filter.attachOrder, List.partition_eq_filter_filter] at h
  split at h
  · cases h
  · next hone =>
    cases h
    refine ⟨?_, hlast.length_eq ▸ Nat.not_lt.mp hone⟩
    rw [List.forall₂_map_right_iff]
    exact (List.rel_append hfirst hlast).imp fun v stage hstage => ⟨stage, hstage, rfl⟩

theorem isAcceptable_of_stage {v : Verdict} {stage : Stage} (h : filter.stage v = .ok stage) :
    stage.program.isAcceptable = true := by
  unfold Filter.stage at h
  split at h
  · exact Bpf.Table.isAcceptable_program (baseStage_eq_ok h).1
  · next hne => exact Bpf.Table.isAcceptable_program (verdictStage_eq_ok hne h).1

/-- The kernel takes each of the programs of a filter. -/
theorem Sound.isAcceptable_of_mem (hs : filter.Sound) {programs : List Program}
    (h : filter.programs = .ok programs) : ∀ program ∈ programs, program.isAcceptable = true := by
  intro program hprogram
  obtain ⟨v, _, stage, hstage, rfl⟩ := exists_mem_of_forall₂ (hs.programs_eq_ok h).1 hprogram
  exact isAcceptable_of_stage hstage

end Stages

end Filter

end SyscallPolicy
