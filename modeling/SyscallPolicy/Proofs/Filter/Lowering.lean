import SyscallPolicy.Proofs.Bpf.Positions
import SyscallPolicy.Proofs.Filter.Meaning

/-! What lowering a filter comes to: why it can fail, which programs it gives in which order, and
that each of them runs to a return. -/
namespace SyscallPolicy
open Bpf (Body Call Program Table maxOffset)

/-- The instructions of the program for a table, however many they are. -/
def Bpf.Table.instructions (table : Table) (mismatch onMatch : Verdict) : Program :=
  if table.isEmpty then architectureCode ++ [.ret mismatch.word]
  else
    architectureCode ++ .load 0 :: table.code onMatch.word mismatch.word ++ [.ret mismatch.word]

namespace Rule
variable {rules : List Rule} {mismatch onMatch : Verdict}

/-- Rules without conditions are never kept in a list of rules to be tried. -/
theorem hasEmptyRule_chain (rules : List Rule) : (chain rules).hasEmptyRule = false := by
  unfold chain
  split
  · next hall =>
    simp only [Bpf.Chain.hasEmptyRule, List.any_map, List.any_eq_false, Function.comp_apply]
    intro rule hrule
    simpa [isConditional] using List.all_eq_true.mp hall rule hrule
  · rfl

/-- The program of rules with two different verdicts fails to be made only if it is too long. -/
theorem program_eq (hne : mismatch ≠ onMatch)
    (hrange : ∀ rule ∈ rules, rule.number < 0x100000000) :
    (table rules).program mismatch onMatch =
      let code := (table rules).instructions mismatch onMatch
      if Program.maxLength ≤ code.length then .error (.tooLong code.length) else .ok code := by
  have hrules : (table rules).any (·.2.hasEmptyRule) = false := by
    simp only [table, List.any_map, List.any_eq_false, Function.comp_apply, hasEmptyRule_chain]
    exact fun _ _ => Bool.false_ne_true
  have hnumbers : (table rules).any (0x100000000 ≤ ·.1) = false := by
    simp only [table, List.any_map, List.any_eq_false, Function.comp_apply, decide_eq_true_eq]
    intro n hn
    obtain ⟨rule, hrule, rfl⟩ := mem_numbers.mp hn
    exact Int.not_le.mpr (hrange rule hrule)
  have hoffsets : (table rules).any (·.2.overflows) = false :=
    List.any_eq_false.mpr fun entry _ => by simp [Bpf.Chain.overflows_eq_false]
  unfold Table.program Table.instructions
  rw [hrules, hnumbers, hoffsets, if_neg Bool.false_ne_true, if_neg hne]
  by_cases hempty : (table rules).isEmpty = true
  · simp only [if_pos hempty]
    rfl
  · simp only [if_neg hempty, Bool.false_eq_true, if_false, ← Nat.not_lt, ite_not]

end Rule

namespace Filter
variable {filter : Filter} {v : Verdict} {programs : List Program}

/-- The instructions of the program for a verdict, however many they are. -/
def instructions (filter : Filter) (v : Verdict) : Program :=
  if v = filter.verdict then (Rule.table filter.rules).instructions filter.verdict .allow
  else (Rule.table (filter.rules.filter (·.verdict = v))).instructions .allow v

/-- Whether the program for a verdict is too long to be made. -/
def isTooLong (filter : Filter) (v : Verdict) : Bool :=
  Program.maxLength ≤ (filter.instructions v).length

theorem stage_eq (hv : v ∈ filter.stageVerdicts)
    (hrange : ∀ rule ∈ filter.rules, rule.number < 0x100000000) :
    filter.stage v =
      if filter.isTooLong v then .error (.tooLong (filter.instructions v).length)
      else .ok ⟨filter.instructions v, filter.blocksSeccomp v⟩ := by
  have hallow : v ≠ .allow := (mem_stageVerdicts.mp hv).1
  simp only [isTooLong, decide_eq_true_eq]
  by_cases heq : v = filter.verdict
  · subst heq
    simp only [stage, instructions, blocksSeccomp, if_true, baseStage,
      Rule.program_eq hallow hrange]
    split <;> rfl
  · have hrange : ∀ rule ∈ filter.rules.filter (·.verdict = v), rule.number < 0x100000000 :=
      fun rule hrule => hrange rule (List.mem_of_mem_filter hrule)
    simp only [stage, instructions, blocksSeccomp, if_neg heq, verdictStage,
      Rule.program_eq (Ne.symm hallow) hrange]
    split <;> rfl

/-- How many programs can stop the call that attaches further ones: one for each verdict that stops
calls and has a rule for this one, and the one for the default verdict if it stops calls and every
rule for this one has conditions. -/
def blockers (filter : Filter) : Nat :=
  let rules := filter.rulesFor SyscallTable.seccomp
  ((rules.map (·.verdict)).filter Verdict.stops).eraseDups.length +
    if filter.verdict.stops && rules.all Rule.isConditional then 1 else 0

theorem Sound.length_blocking (hs : filter.Sound) :
    (filter.stageVerdicts.filter filter.blocksSeccomp).length = filter.blockers := by
  rw [stageVerdicts, List.filter_append, List.length_append, blockers]
  congr 1
  · -- Neither list has a verdict twice, so it is enough that they have the same ones.
    refine List.Perm.length_eq ((List.perm_ext_iff_of_nodup
      ((nodup_eraseDups _).filter _) (nodup_eraseDups _)).mpr fun v => ?_)
    constructor
    · intro h
      obtain ⟨hv, hblocks⟩ := List.mem_filter.mp h
      rw [blocksSeccomp, if_neg (hs.ne_of_mem_verdicts hv), Bool.and_eq_true,
        List.any_eq_true] at hblocks
      obtain ⟨hstops, rule, hrule, hnumber⟩ := hblocks
      obtain ⟨hrule, hverdict⟩ := List.mem_filter.mp hrule
      exact List.mem_eraseDups.mpr (List.mem_filter.mpr ⟨List.mem_map.mpr
        ⟨rule, List.mem_filter.mpr ⟨hrule, hnumber⟩, of_decide_eq_true hverdict⟩, hstops⟩)
    · intro h
      obtain ⟨hv, hstops⟩ := List.mem_filter.mp (List.mem_eraseDups.mp h)
      obtain ⟨rule, hrule, rfl⟩ := List.mem_map.mp hv
      obtain ⟨hrule, hnumber⟩ := List.mem_filter.mp hrule
      have hallow : rule.verdict ≠ .allow := by
        intro heq
        rw [heq] at hstops
        cases hstops
      refine List.mem_filter.mpr ⟨mem_verdicts.mpr ⟨hallow, rule, hrule, rfl⟩, ?_⟩
      rw [blocksSeccomp, if_neg (hs.verdict_ne rule hrule), hstops, Bool.true_and]
      exact List.any_eq_true.mpr
        ⟨rule, List.mem_filter.mpr ⟨hrule, decide_eq_true rfl⟩, hnumber⟩
  · by_cases hallow : filter.verdict = .allow
    · rw [if_pos hallow, hallow]
      rfl
    · rw [if_neg hallow, List.filter_singleton, blocksSeccomp, if_pos rfl]
      cases filter.verdict.stops &&
        (filter.rulesFor SyscallTable.seccomp).all Rule.isConditional <;> rfl

theorem attachOrder_map (vs : List Verdict) :
    attachOrder (vs.map fun v => ⟨filter.instructions v, filter.blocksSeccomp v⟩) =
      let last := vs.filter filter.blocksSeccomp
      if 1 < last.length then .error (.seccompBlocked last.length)
      else .ok ((vs.filter (!filter.blocksSeccomp ·) ++ last).map filter.instructions) := by
  simp only [attachOrder, List.partition_eq_filter_filter, List.filter_map, List.length_map,
    ← List.map_append, List.map_map]
  rfl

/-- Making the programs of a filter either fails for the first one that is too long, or for too many
programs that can stop the attaching, or it gives all of them. -/
theorem Sound.programs_eq (hs : filter.Sound)
    (hrange : ∀ rule ∈ filter.rules, rule.number < 0x100000000) :
    filter.programs =
      match filter.stageVerdicts.find? filter.isTooLong with
      | some v => .error (.tooLong (filter.instructions v).length)
      | none =>
        if 1 < filter.blockers then .error (.seccompBlocked filter.blockers)
        else .ok (filter.attachedVerdicts.map filter.instructions) := by
  have hstages : filter.stages = (filter.stageVerdicts.find? filter.isTooLong).elim
      (.ok (filter.stageVerdicts.map fun v => ⟨filter.instructions v, filter.blocksSeccomp v⟩))
      fun v => .error (.tooLong (filter.instructions v).length) := by
    rw [hs.stages_eq]
    exact mapM_ite fun v hv => stage_eq hv hrange
  unfold Filter.programs
  rw [hstages]
  cases filter.stageVerdicts.find? filter.isTooLong with
  | some v => rfl
  | none =>
    rw [Option.elim_none]
    change attachOrder _ = _
    simp only [attachOrder_map, hs.length_blocking]
    rfl

theorem lower_result (filter : Filter) :
    filter.lower.result = filter.programs.mapError fun fault => .lowering (.lowering fault) := by
  unfold lower
  cases filter.programs <;> rfl

/-- The verdicts of the programs in the order in which they are attached are those of the rules in
order of first appearance and the default one, except that the one that can stop the attaching is
moved to the end. -/
theorem Sound.attachedVerdicts_eq (hs : filter.Sound) (hone : filter.blockers ≤ 1) :
    filter.attachedVerdicts = (filter.stageVerdicts.find? filter.blocksSeccomp).elim
      filter.stageVerdicts fun v => filter.stageVerdicts.erase v ++ [v] :=
  filter_not_append_filter hs.nodup_stageVerdicts (hs.length_blocking ▸ hone)

theorem attachedVerdicts_eq_nil_iff :
    filter.attachedVerdicts = [] ↔ filter.stageVerdicts = [] := by
  simp only [List.eq_nil_iff_forall_not_mem, mem_attachedVerdicts]

theorem Sound.stageVerdicts_eq_nil_iff (hs : filter.Sound) :
    filter.stageVerdicts = [] ↔ filter.verdict = .allow ∧ filter.rules = [] := by
  simp only [List.eq_nil_iff_forall_not_mem, mem_stageVerdicts]
  constructor
  · intro h
    have hallow : filter.verdict = .allow := by
      by_contra hne
      exact h _ ⟨hne, Or.inl rfl⟩
    refine ⟨hallow, fun rule hrule => ?_⟩
    have hne := hs.verdict_ne rule hrule
    rw [hallow] at hne
    exact h _ ⟨hne, Or.inr ⟨rule, hrule, rfl⟩⟩
  · rintro ⟨hallow, hrules⟩ v ⟨hne, rfl | ⟨rule, hrule, -⟩⟩
    · exact hne hallow
    · exact hrules rule hrule

/-- What lowering a filter with numbers in range can come to. -/
inductive Lowers (filter : Filter) : Except PolicyError (List Program) → Prop
  | tooLong {v : Verdict} (mem : v ∈ filter.stageVerdicts)
    (long : Program.maxLength ≤ (filter.instructions v).length) :
    Lowers filter (.error (.lowering (.lowering (.tooLong (filter.instructions v).length))))
  | blocked (fit : ∀ v ∈ filter.stageVerdicts, (filter.instructions v).length < Program.maxLength)
    (many : 2 ≤ filter.blockers) :
    Lowers filter (.error (.lowering (.lowering (.seccompBlocked filter.blockers))))
  | done (fit : ∀ v ∈ filter.stageVerdicts, (filter.instructions v).length < Program.maxLength)
    (one : filter.blockers ≤ 1) :
    Lowers filter (.ok (filter.attachedVerdicts.map filter.instructions))

theorem Sound.lowers (hs : filter.Sound)
    (hrange : ∀ rule ∈ filter.rules, rule.number < 0x100000000) :
    filter.Lowers filter.lower.result := by
  rw [lower_result, hs.programs_eq hrange]
  cases hfind : filter.stageVerdicts.find? filter.isTooLong with
  | some v =>
    have hlong : filter.isTooLong v = true := List.find?_some hfind
    exact .tooLong (List.mem_of_find?_eq_some hfind) (of_decide_eq_true hlong)
  | none =>
    rw [List.find?_eq_none] at hfind
    have hfit : ∀ v ∈ filter.stageVerdicts,
        (filter.instructions v).length < Program.maxLength :=
      fun v hv => by simpa [isTooLong] using hfind v hv
    by_cases hmany : 1 < filter.blockers
    · simp only [if_pos hmany]
      exact .blocked hfit hmany
    · simp only [if_neg hmany]
      exact .done hfit (Nat.not_lt.mp hmany)

namespace Lowers
variable {result : Except PolicyError (List Program)}

/-- Nothing else keeps a filter from being lowered. -/
theorem of_eq_error (h : filter.Lowers result) {e : PolicyError} (he : result = .error e) :
    ∃ n, e = .lowering (.lowering (.tooLong n)) ∨ e = .lowering (.lowering (.seccompBlocked n)) := by
  cases h with
  | tooLong _ _ =>
    cases he
    exact ⟨_, Or.inl rfl⟩
  | blocked _ _ =>
    cases he
    exact ⟨_, Or.inr rfl⟩
  | done _ _ => cases he

theorem eq_tooLong_iff (h : filter.Lowers result) :
    (∃ n, result = .error (.lowering (.lowering (.tooLong n)))) ↔
      ∃ v ∈ filter.stageVerdicts, Program.maxLength ≤ (filter.instructions v).length := by
  cases h with
  | tooLong hv hlong => exact iff_of_true ⟨_, rfl⟩ ⟨_, hv, hlong⟩
  | blocked hfit _ =>
    exact iff_of_false nofun fun ⟨v, hv, hlong⟩ => Nat.not_lt.mpr hlong (hfit v hv)
  | done hfit _ =>
    exact iff_of_false nofun fun ⟨v, hv, hlong⟩ => Nat.not_lt.mpr hlong (hfit v hv)

theorem eq_blocked_iff (h : filter.Lowers result) (n : Nat) :
    result = .error (.lowering (.lowering (.seccompBlocked n))) ↔
      (∀ v ∈ filter.stageVerdicts, (filter.instructions v).length < Program.maxLength) ∧
        n = filter.blockers ∧ 2 ≤ n := by
  cases h with
  | tooLong hv hlong =>
    exact iff_of_false nofun fun ⟨hfit, _⟩ => Nat.not_lt.mpr hlong (hfit _ hv)
  | blocked hfit hmany =>
    constructor
    · rintro ⟨⟩
      exact ⟨hfit, rfl, hmany⟩
    · rintro ⟨_, rfl, _⟩
      rfl
  | done hfit hone => exact iff_of_false nofun fun ⟨_, hn, hmany⟩ => by omega

theorem eq_ok_iff (h : filter.Lowers result) (programs : List Program) :
    result = .ok programs ↔
      (∀ v ∈ filter.stageVerdicts, (filter.instructions v).length < Program.maxLength) ∧
        filter.blockers ≤ 1 ∧ programs = filter.attachedVerdicts.map filter.instructions := by
  cases h with
  | tooLong hv hlong =>
    exact iff_of_false nofun fun ⟨hfit, _⟩ => Nat.not_lt.mpr hlong (hfit _ hv)
  | blocked hfit hmany => exact iff_of_false nofun fun ⟨_, hone, _⟩ => by omega
  | done hfit hone =>
    constructor
    · rintro ⟨⟩
      exact ⟨hfit, hone, rfl⟩
    · rintro ⟨_, _, rfl⟩
      rfl

end Lowers

/-- What lowering comes to: an error if a program would be too long, or else if more than one
program could stop the call that attaches further ones, and else a program for every verdict but to
allow calls. Nothing else goes wrong, no offset outgrowing eight bits either, and there is no
program only where nothing is to be done. -/
theorem lower_outcome (hreachable : filter.Reachable)
    (hrange : ∀ rule ∈ filter.rules, rule.number < 0x100000000) :
    (∀ e, filter.lower.result = .error e → ∃ n,
      e = .lowering (.lowering (.tooLong n)) ∨ e = .lowering (.lowering (.seccompBlocked n))) ∧
    (∀ rule ∈ filter.rules, ∀ n,
      ((rule.conditions.take n).foldl Body.push .empty).fail ≤ maxOffset) ∧
    ((∃ n, filter.lower.result = .error (.lowering (.lowering (.tooLong n)))) ↔
      ∃ v ∈ filter.stageVerdicts, Program.maxLength ≤ (filter.instructions v).length) ∧
    (∀ n, filter.lower.result = .error (.lowering (.lowering (.seccompBlocked n))) ↔
      (∀ v ∈ filter.stageVerdicts, (filter.instructions v).length < Program.maxLength) ∧
        n = filter.blockers ∧ 2 ≤ n) ∧
    (∀ programs, filter.lower.result = .ok programs ↔
      (∀ v ∈ filter.stageVerdicts, (filter.instructions v).length < Program.maxLength) ∧
        filter.blockers ≤ 1 ∧
        programs = ((filter.stageVerdicts.find? filter.blocksSeccomp).elim filter.stageVerdicts
          fun v => filter.stageVerdicts.erase v ++ [v]).map filter.instructions) ∧
    (filter.stageVerdicts.filter filter.blocksSeccomp).length = filter.blockers ∧
    (filter.lower.result = .ok [] ↔ filter.verdict = .allow ∧ filter.rules = []) := by
  have hs := hreachable.sound
  have hlowers := hs.lowers hrange
  have hlength := hs.length_blocking
  refine ⟨fun e => hlowers.of_eq_error,
    fun rule _ n => Body.fail_foldl_push_le (Nat.le_of_ble_eq_true rfl) _,
    hlowers.eq_tooLong_iff, hlowers.eq_blocked_iff, fun programs => ?_, hlength, ?_⟩
  · rw [hlowers.eq_ok_iff]
    refine and_congr_right fun _ => and_congr_right fun hone => ?_
    rw [hs.attachedVerdicts_eq hone]
  · rw [hlowers.eq_ok_iff, eq_comm, List.map_eq_nil_iff, attachedVerdicts_eq_nil_iff,
      ← hs.stageVerdicts_eq_nil_iff]
    refine ⟨fun h => h.2.2, fun hnone => ⟨?_, ?_, hnone⟩⟩
    · rw [hnone]
      exact fun _ h => absurd h List.not_mem_nil
    · rw [hnone] at hlength
      exact hlength ▸ Nat.zero_le 1

/-- A filter with a program that can stop the attaching of others and comes before them, since one of
its conditional rules for the call is followed by one without conditions. Another rule has so many
conditions that its code needs a relay. -/
def hasty : Filter where
  verdict := .errno 1
  architectures := [.native]
  noNewPrivs := true
  rules := [⟨317, .errno 38, [⟨firstArgument, .eq, 1⟩]⟩,
    ⟨39, .log, (List.range 90).map fun n => ⟨firstArgument, .ne, n.toUInt64⟩⟩,
    ⟨317, .errno 38, []⟩, ⟨1, .allow, []⟩]

theorem lower_outcome_hasty :
    hasty.Reachable ∧ (∀ rule ∈ hasty.rules, rule.number < 0x100000000) ∧
      hasty.stageVerdicts = [.errno 38, .log, .errno 1] ∧
      hasty.lower.result = .ok ([.log, .errno 1, .errno 38].map hasty.instructions) ∧
      ∀ rule ∈ hasty.rules, ∀ n,
        ((rule.conditions.take n).foldl Body.push .empty).fail ≤ maxOffset := by
  have hreachable : hasty.Reachable :=
    reachable_iff.mpr ⟨.errno 1, [.addConditionalRule 317 (.errno 38) [⟨firstArgument, .eq, 1⟩],
      .addConditionalRule 39 .log ((List.range 90).map fun n => ⟨firstArgument, .ne, n.toUInt64⟩),
      .addRule 317 (.errno 38), .addRule 1 .allow], by decide +kernel⟩
  have hrange : ∀ rule ∈ hasty.rules, rule.number < 0x100000000 := by decide +kernel
  obtain ⟨-, hoffsets, -, -, hprograms, -⟩ := lower_outcome hreachable hrange
  refine ⟨hreachable, hrange, by decide +kernel, (hprograms _).mpr ⟨?_, ?_, ?_⟩, hoffsets⟩ <;>
    decide +kernel

/-- Whatever its rules, each lowered program is one that the kernel takes, and comes to a return on
every call. The way to the failure of a rule fits into eight bits at each of its conditions. -/
theorem programs_come_to_return (hreachable : filter.Reachable)
    (hlower : filter.lower.result = .ok programs) :
    (∀ rule ∈ filter.rules, ∀ n,
      ((rule.conditions.take n).foldl Body.push .empty).fail ≤ maxOffset) ∧
    ∀ program ∈ programs, program.isAcceptable = true ∧ program.Checked ∧
      ∀ call : Call, ∃ steps value, steps ≤ program.length ∧
        program.Returns call value steps ⟨0, 0⟩ ∧ program.run call = some value := by
  constructor
  · exact fun rule _ n => Body.fail_foldl_push_le (Nat.le_of_ble_eq_true rfl) _
  · intro program hprogram
    have hacceptable := hreachable.sound.isAcceptable_of_mem (lower_eq_ok hlower) program hprogram
    have hchecked := Program.isAcceptable_iff_checked.mp hacceptable
    refine ⟨hacceptable, hchecked, fun call => ?_⟩
    obtain ⟨steps, value, hsteps, hreturns⟩ :=
      hchecked.exists_returns call (s := ⟨0, 0⟩) hchecked.length_pos
    exact ⟨steps, value, hsteps, hreturns, hreturns.runFrom_eq⟩

theorem programs_come_to_return_longRule :
    longRule.Reachable ∧ ∃ programs, longRule.lower.result = .ok programs ∧
      (∃ program ∈ programs, .jump 2 ∈ program) ∧
      ∀ program ∈ programs, program.Checked ∧ ∀ call : Call, ∃ steps value,
        steps ≤ program.length ∧ program.Returns call value steps ⟨0, 0⟩ := by
  have hreachable : longRule.Reachable :=
    reachable_iff.mpr ⟨longRule.verdict,
      longRule.rules.map fun rule => .addConditionalRule rule.number rule.verdict rule.conditions,
      by decide +kernel⟩
  obtain ⟨programs, hlower, hrelay⟩ : ∃ programs, longRule.lower.result = .ok programs ∧
      ∃ program ∈ programs, .jump 2 ∈ program :=
    ⟨longRule.programs.toOption.getD [], by decide +kernel⟩
  refine ⟨hreachable, programs, hlower, hrelay, fun program hprogram => ?_⟩
  obtain ⟨-, hchecked, hreturns⟩ :=
    (programs_come_to_return hreachable hlower).2 program hprogram
  refine ⟨hchecked, fun call => ?_⟩
  obtain ⟨steps, value, hsteps, hreturn, -⟩ := hreturns call
  exact ⟨steps, value, hsteps, hreturn⟩

end Filter

end SyscallPolicy
