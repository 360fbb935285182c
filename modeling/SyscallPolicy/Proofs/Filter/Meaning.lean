import SyscallPolicy.Kernel.Process
import SyscallPolicy.Proofs.Filter.Stack

/-! What the programs of a filter decide together: the default verdict for a call that no rule
holds on, else the strictest verdict among the rules that hold. -/
namespace SyscallPolicy
open Bpf (Call Program)
open Kernel (Thread)
open Verdict (Decides answer answer_of_mem answer_of_not_mem)

theorem Kernel.Layer.map_program_mk (programs : List Program) :
    (programs.map (Kernel.Layer.mk 0)).map (·.program) = programs := by
  rw [List.map_map]
  exact List.map_id _

/-- Programs that each answer with a verdict leave a thread with the strictest answer. -/
theorem Kernel.Thread.verdict_eq {thread : Thread} {call : Call} {programs : List Program}
    {order : List Verdict} {answers : Verdict → Verdict}
    (hlayers : thread.layers.map (·.program) = programs.reverse)
    (hrun : List.Forall₂ (fun v program => program.run call = some (answers v).word)
      order programs) :
    thread.verdict call = .strictest (order.reverse.map fun v => (answers v).returned) := by
  have hanswers : order.map (fun v => (answers v).returned) =
      programs.map fun program => (program.run call).elim .killProcess .ofWord := by
    refine map_eq_of_forall₂ (hrun.imp fun v program hanswer => ?_)
    rw [hanswer, Option.elim_some, Verdict.ofWord_word]
  have hverdicts : thread.layers.map (·.verdict call) =
      (thread.layers.map (·.program)).map fun program =>
        (program.run call).elim .killProcess .ofWord := by
    rw [List.map_map]
    rfl
  rw [verdict, hverdicts, hlayers, List.map_reverse, List.map_reverse, hanswers]

namespace Filter
variable {filter : Filter} {call : Call} {programs : List Program}

theorem mem_candidates {v : Verdict} :
    v ∈ filter.candidates call ↔
      (∃ rule ∈ filter.rules, rule.holds call ∧ rule.verdict = v) ∨
        v = filter.verdict ∧ ∀ rule ∈ filter.rules, rule.holds call = false := by
  simp only [candidates, ← List.filterMap_eq_map', mem_ite_filter, Option.some_inj,
    List.mem_singleton]

theorem candidates_ne_nil (filter : Filter) (call : Call) : filter.candidates call ≠ [] := by
  simp only [candidates]
  split
  · exact List.cons_ne_nil _ _
  · next h => exact mt List.map_eq_nil_iff.mp h

/-- The default verdict is up exactly for the calls that no rule holds on. -/
theorem Sound.verdict_mem_candidates (hs : filter.Sound) :
    filter.verdict ∈ filter.candidates call ↔ filter.rules.any (·.holds call) = false := by
  rw [mem_candidates, List.any_eq_false]
  constructor
  · rintro (⟨rule, hrule, _, heq⟩ | ⟨_, hnone⟩)
    · exact absurd heq (hs.verdict_ne rule hrule)
    · exact fun rule hrule => by rw [hnone rule hrule]; exact Bool.false_ne_true
  · intro hnone
    exact Or.inr ⟨rfl, fun rule hrule => Bool.eq_false_iff.mpr (hnone rule hrule)⟩

/-- Any other verdict is up for the calls that one of its rules holds on. -/
theorem mem_candidates_of_ne {v : Verdict} (hne : v ≠ filter.verdict) :
    v ∈ filter.candidates call ↔
      (filter.rules.filter (·.verdict = v)).any (·.holds call) = true := by
  rw [mem_candidates, List.any_filter, List.any_eq_true]
  simp only [hne, false_and, or_false, Bool.and_eq_true, decide_eq_true_eq]
  constructor
  · rintro ⟨rule, hrule, hholds, heq⟩
    exact ⟨rule, hrule, heq, hholds⟩
  · rintro ⟨rule, hrule, heq, hholds⟩
    exact ⟨rule, hrule, hholds, heq⟩

/-- The program for a verdict answers with it where it is up, and allows all other calls. -/
theorem Sound.run_stage (hs : filter.Sound) {v : Verdict} {stage : Stage}
    (hstage : filter.stage v = .ok stage) (hnative : call.architecture = Call.nativeArchitecture) :
    stage.program.run call = some (answer (filter.candidates call) v).word := by
  unfold Filter.stage at hstage
  split at hstage
  · next heq =>
    obtain ⟨hprogram, _⟩ := baseStage_eq_ok hstage
    rw [Rule.run_program hs.number_nonneg hprogram hnative, heq]
    cases hany : filter.rules.any (·.holds call) with
    | true =>
      have hmem : filter.verdict ∉ filter.candidates call := by
        rw [hs.verdict_mem_candidates, hany]
        exact Bool.noConfusion
      rw [answer_of_not_mem hmem, if_pos rfl]
    | false =>
      rw [answer_of_mem (hs.verdict_mem_candidates.mpr hany), if_neg Bool.false_ne_true]
  · next hne =>
    obtain ⟨hprogram, _⟩ := verdictStage_eq_ok hne hstage
    have hnonneg : ∀ rule ∈ filter.rules.filter (·.verdict = v), 0 ≤ rule.number :=
      fun rule hrule => hs.number_nonneg rule (List.mem_of_mem_filter hrule)
    rw [Rule.run_program hnonneg hprogram hnative]
    by_cases hmem : v ∈ filter.candidates call
    · rw [answer_of_mem hmem, if_pos ((mem_candidates_of_ne hne).mp hmem)]
    · rw [answer_of_not_mem hmem, if_neg (mt (mem_candidates_of_ne hne).mpr hmem)]

theorem lower_eq_ok (h : filter.lower.result = .ok programs) : filter.programs = .ok programs := by
  simp only [lower] at h
  split at h
  · cases h
  · next heq =>
    cases h
    exact heq

/-- The lowered programs, each with the verdict that it is for. -/
theorem Sound.run_programs (hs : filter.Sound) (h : filter.lower.result = .ok programs) :
    List.Forall₂ (fun v program => ∀ call : Call, call.architecture = Call.nativeArchitecture →
      program.run call = some (answer (filter.candidates call) v).word)
      filter.attachedVerdicts programs := by
  refine (hs.programs_eq_ok (lower_eq_ok h)).1.imp ?_
  rintro v program ⟨stage, hstage, rfl⟩ call hnative
  exact hs.run_stage hstage hnative

/-- Every verdict that is up for a call, apart from allowing it, has a program of its own. -/
theorem mem_attachedVerdicts_of_mem_candidates {v : Verdict} (hv : v ∈ filter.candidates call)
    (hne : v ≠ .allow) : v ∈ filter.attachedVerdicts := by
  rw [mem_attachedVerdicts, mem_stageVerdicts]
  rcases mem_candidates.mp hv with ⟨rule, hrule, _, heq⟩ | ⟨heq, _⟩
  · exact ⟨hne, Or.inr ⟨rule, hrule, heq⟩⟩
  · exact ⟨hne, Or.inl heq⟩

/-- Some verdict decides, and it is the strictest answer of the programs. -/
theorem exists_decides (filter : Filter) (call : Call) :
    ∃ v, Decides filter.attachedVerdicts (filter.candidates call) v ∧
      .strictest (filter.attachedVerdicts.reverse.map fun v =>
        (answer (filter.candidates call) v).returned) = v.returned :=
  Verdict.exists_decides (candidates_ne_nil filter call) fun _ hv hne =>
    mem_attachedVerdicts_of_mem_candidates hv hne

theorem Sound.existsUnique_decides (hs : filter.Sound) (call : Call) :
    ∃! v, Decides filter.attachedVerdicts (filter.candidates call) v := by
  obtain ⟨v, hv, _⟩ := exists_decides filter call
  exact ⟨v, hv, fun w hw => hv.unique hs.nodup_attachedVerdicts hw⟩

/-- Under the programs of a filter, a thread gets from the kernel the verdict that decides among
those that are up. -/
theorem Sound.verdict_eq (hs : filter.Sound) (h : filter.lower.result = .ok programs)
    (hnative : call.architecture = Call.nativeArchitecture) {thread : Thread}
    (hlayers : thread.layers.map (·.program) = programs.reverse) {v : Verdict}
    (hv : Decides filter.attachedVerdicts (filter.candidates call) v) :
    thread.verdict call = v.returned := by
  have hrun : List.Forall₂ (fun v program =>
      program.run call = some (answer (filter.candidates call) v).word)
      filter.attachedVerdicts programs :=
    (hs.run_programs h).imp fun _ _ hrun => hrun call hnative
  obtain ⟨w, hw, hstrictest⟩ := exists_decides filter call
  rw [thread.verdict_eq hlayers hrun, hstrictest, hv.unique hs.nodup_attachedVerdicts hw]

/-- Lowering keeps the meaning of a filter, whatever the number and the length of its rules. Each
program answers for its own verdict, and together they give every native call the one verdict that
decides, of whose code the lower half is left. -/
theorem lower_preserves_meaning (hreachable : filter.Reachable)
    (h : filter.lower.result = .ok programs) :
    List.Forall₂ (fun v program => ∀ call : Call, call.architecture = Call.nativeArchitecture →
        program.run call = some (answer (filter.candidates call) v).word)
      filter.attachedVerdicts programs ∧
    ∀ call : Call, call.architecture = Call.nativeArchitecture →
      (∃! v, Decides filter.attachedVerdicts (filter.candidates call) v) ∧
      ∀ v, Decides filter.attachedVerdicts (filter.candidates call) v →
        ∀ thread : Thread, thread.layers.map (·.program) = programs.reverse →
          thread.verdict call = v.returned := by
  have hs := hreachable.sound
  refine ⟨hs.run_programs h, fun call hnative => ⟨hs.existsUnique_decides call, ?_⟩⟩
  intro v hv thread hlayers
  exact hs.verdict_eq h hnative hlayers hv

/-- The first argument of a call. -/
def firstArgument : Fin 6 := 0

/-- A filter with codes that do not fit into a return value, and with a rule of so many conditions
on one argument that its code needs relays. -/
def longRule : Filter where
  verdict := .errno 0x10001
  architectures := [.native]
  noNewPrivs := true
  rules := [
    ⟨1, .trace 0x20003, (List.range 90).map fun n => ⟨0, .ne, n.toUInt64⟩⟩,
    ⟨1, .errno 0x10005, [⟨5, .gt, 0x100000000⟩]⟩,
    ⟨1, .errno 0x10006, [⟨5, .maskedEq 0x8000000000000000, 0⟩]⟩]

theorem lower_preserves_meaning_longRule :
    longRule.Reachable ∧ ∃ programs, longRule.lower.result = .ok programs ∧
      Thread.verdict ⟨true, programs.reverse.map (⟨0, ·⟩)⟩
        ⟨1, Call.nativeArchitecture, 0, fun _ => 0x100000001⟩ = .errno 6 := by
  have hreachable : longRule.Reachable :=
    reachable_iff.mpr ⟨longRule.verdict,
      longRule.rules.map fun rule => .addConditionalRule rule.number rule.verdict rule.conditions,
      by decide +kernel⟩
  obtain ⟨programs, hprograms⟩ :
      ∃ programs, longRule.lower.result = .ok programs :=
    ⟨longRule.programs.toOption.getD [], by decide +kernel⟩
  refine ⟨hreachable, programs, hprograms, ?_⟩
  refine ((lower_preserves_meaning hreachable hprograms).2 _ rfl).2 (.errno 0x10006) ?_ _ ?_
  · exact ⟨by decide +kernel, by decide +kernel, by decide +kernel⟩
  · rw [List.map_map]
    exact List.map_id _

end Filter

end SyscallPolicy
