import SyscallPolicy.Proofs.Filter.Meaning
import SyscallPolicy.Proofs.Policy.Construction

/-! What a policy decides about a system call, in terms of its entries alone, and that the programs
made of it decide the same. -/
namespace SyscallPolicy
open Bpf (Call Program)
open Kernel (Thread)
open Verdict (Decides answer)

/-- Whether a check passes on the arguments of a call, as the policy's author reads it: it compares
whole arguments, without sign. -/
def ArgCheck.passes (args : Fin 6 → UInt64) (check : ArgCheck) : Bool :=
  if h : check.index.toNat < 6 then
    let argument := args ⟨check.index.toNat, h⟩
    match check.op with
    | "SCMP_CMP_EQ" => argument = check.value
    | "SCMP_CMP_NE" => argument ≠ check.value
    | "SCMP_CMP_GT" => argument > check.value
    | "SCMP_CMP_GE" => argument ≥ check.value
    | "SCMP_CMP_LT" => argument < check.value
    | "SCMP_CMP_LE" => argument ≤ check.value
    | "SCMP_CMP_MASKED_EQ" => argument &&& check.valueTwo = check.value &&& check.valueTwo
    | _ => false
  else false

/-- The checks of an entry that are not null. -/
def Entry.checks (entry : Entry) : List ArgCheck := entry.args.filterMap id

/-- Whether an entry matches a call: its name is that of the call, and its checks pass. One of them
is enough if two are on the same argument. -/
def Entry.applies (resolve : Resolver) (call : Call) (entry : Entry) : Bool :=
  resolve entry.name = some (call.number.toNat : Int) ∧
    (entry.args = [] ∨
      if (entry.checks.map (·.index)).Nodup then ∀ check ∈ entry.checks, check.passes call.args
      else ∃ check ∈ entry.checks, check.passes call.args)

/-- The verdicts that are up for a call: those of the entries that match it, or the default one if
there is no such entry. -/
def Policy.candidates (resolve : Resolver) (policy : Policy) (call : Call) : List Verdict :=
  let matching := policy.entries.filter (·.applies resolve call)
  if matching = [] then policy.defaultVerdict?.toList else matching.filterMap (·.verdict?)

theorem ArgCheck.passes_eq_holds {check : ArgCheck} {operator : Operator}
    (hoperator : Operator.ofName? check.op = some operator) (h : check.index.toNat < 6)
    (args : Fin 6 → UInt64) :
    check.passes args =
      (operator.comparison check.valueTwo).holds check.value (args ⟨check.index.toNat, h⟩) := by
  have hname : operator.name = check.op := by simpa using List.find?_some hoperator
  unfold passes
  rw [dif_pos h, ← hname]
  cases operator <;> rfl

namespace ArgCheck
variable {checks : List (Option ArgCheck)}

/-- The conditions of faultless checks, one for each. -/
theorem forall₂_conditions (h : checks.flatMap faults = []) :
    List.Forall₂ (fun c check => c.argument.val = check.index.toNat ∧
        ∀ args, c.holds args = check.passes args)
      (conditions checks) (checks.filterMap id) := by
  rw [List.flatMap_eq_nil_iff] at h
  induction checks with
  | nil => exact List.Forall₂.nil
  | cons check checks ih =>
    have hcheck := h check List.mem_cons_self
    have hrest := ih fun other hother => h other (List.mem_cons_of_mem check hother)
    cases check with
    | none => cases hcheck
    | some check =>
      obtain ⟨operator, hoperator, hindex, hcondition⟩ := condition_eq_ok hcheck
      simp only [conditions, List.filterMap_cons, hcondition, Except.toOption, id]
      exact List.Forall₂.cons ⟨rfl, fun args => (passes_eq_holds hoperator hindex args).symm⟩ hrest

theorem conditions_eq_nil_iff (h : checks.flatMap faults = []) :
    conditions checks = [] ↔ checks = [] := by
  cases checks with
  | nil => exact iff_of_true rfl rfl
  | cons check rest =>
    rw [List.flatMap_cons, List.append_eq_nil_iff] at h
    obtain ⟨c, hc⟩ := exists_condition h.1
    simp [conditions, hc, Except.toOption]

theorem nodup_conditions_iff (h : checks.flatMap faults = []) :
    ((conditions checks).map (·.argument)).Nodup ↔
      ((checks.filterMap id).map (·.index)).Nodup := by
  have hindices : (conditions checks).map (·.argument.val) =
      (checks.filterMap id).map (·.index.toNat) :=
    map_eq_of_forall₂ ((forall₂_conditions h).imp fun _ _ hcheck => hcheck.1)
  rw [← List.nodup_map_iff (f := Fin.val) fun _ _ => Fin.eq_of_val_eq, List.map_map,
    ← List.nodup_map_iff (f := UInt32.toNat) fun _ _ => UInt32.toNat_inj.mp, List.map_map]
  exact iff_of_eq (congrArg List.Nodup hindices)

private theorem map_holds_conditions (h : checks.flatMap faults = []) (args : Fin 6 → UInt64) :
    (conditions checks).map (·.holds args) = (checks.filterMap id).map (·.passes args) :=
  map_eq_of_forall₂ ((forall₂_conditions h).imp fun _ _ hcheck => hcheck.2 args)

theorem forall_conditions_iff (h : checks.flatMap faults = []) (args : Fin 6 → UInt64) :
    (∀ c ∈ conditions checks, c.holds args = true) ↔
      ∀ check ∈ checks.filterMap id, check.passes args = true := by
  have hall := congrArg (List.all · id) (map_holds_conditions h args)
  rw [List.all_map, List.all_map, Bool.eq_iff_iff, List.all_eq_true, List.all_eq_true] at hall
  exact hall

theorem exists_conditions_iff (h : checks.flatMap faults = []) (args : Fin 6 → UInt64) :
    (∃ c ∈ conditions checks, c.holds args = true) ↔
      ∃ check ∈ checks.filterMap id, check.passes args = true := by
  have hany := congrArg (List.any · id) (map_holds_conditions h args)
  rw [List.any_map, List.any_map, Bool.eq_iff_iff, List.any_eq_true, List.any_eq_true] at hany
  exact hany

end ArgCheck

namespace Entry
variable {resolve : Resolver} {call : Call} {entry : Entry}

/-- One of the groups of an entry with faultless checks holds exactly if the checks pass. -/
theorem exists_mem_groups (h : entry.args.flatMap ArgCheck.faults = []) :
    (∃ group ∈ entry.groups, group.all (·.holds call.args) = true) ↔
      (entry.args = [] ∨
        if (entry.checks.map (·.index)).Nodup then ∀ check ∈ entry.checks, check.passes call.args
        else ∃ check ∈ entry.checks, check.passes call.args) := by
  simp only [groups, ArgCheck.conditions_eq_nil_iff h]
  by_cases hempty : entry.args = []
  · rw [if_pos hempty]
    exact iff_of_true ⟨[], List.mem_singleton_self [], rfl⟩ (Or.inl hempty)
  · have hne : (ArgCheck.conditions entry.args).map (fun c => (c.argument, c)) ≠ [] := by
      simpa [ArgCheck.conditions_eq_nil_iff h] using hempty
    have hnodup : (((ArgCheck.conditions entry.args).map fun c => (c.argument, c)).map
        (·.1)).Nodup ↔ (entry.checks.map (·.index)).Nodup := by
      rw [List.map_map]
      exact ArgCheck.nodup_conditions_iff h
    rw [if_neg hempty, Combination.exists_mem_groups hne, or_iff_right hempty]
    by_cases hchecks : (entry.checks.map (·.index)).Nodup
    · rw [if_pos (hnodup.mpr hchecks), if_pos hchecks, List.forall_mem_map]
      exact ArgCheck.forall_conditions_iff h call.args
    · rw [if_neg (mt hnodup.mp hchecks), if_neg hchecks]
      simp only [List.mem_map, exists_exists_and_eq_and]
      exact ArgCheck.exists_conditions_iff h call.args

theorem of_faults_eq_nil {default : Verdict} {number : Int}
    (h : faults resolve default (some entry) = []) (hresolve : resolve entry.name = some number) :
    entry.args.flatMap ArgCheck.faults = [] ∧ ∃ v, entry.verdict? = some v := by
  simp only [faults, callFaults, hresolve, List.append_eq_nil_iff, List.map_eq_nil_iff] at h
  obtain ⟨_, ⟨⟨hverdict, hchecks⟩, _⟩, _⟩ := h
  refine ⟨hchecks, Option.ne_none_iff_exists'.mp fun hnone => ?_⟩
  rw [if_pos hnone] at hverdict
  cases hverdict

/-- A rule of a faultless entry holds on the calls that the entry matches. -/
theorem exists_mem_rules {default v : Verdict} (h : faults resolve default (some entry) = []) :
    (∃ rule ∈ rules resolve (some entry), rule.holds call = true ∧ rule.verdict = v) ↔
      entry.applies resolve call = true ∧ entry.verdict? = some v := by
  unfold applies
  rw [decide_eq_true_iff]
  cases hresolve : resolve entry.name with
  | none => simp [rules, hresolve]
  | some number =>
    obtain ⟨hchecks, w, hw⟩ := of_faults_eq_nil h hresolve
    rw [← exists_mem_groups hchecks, hw]
    simp only [rules, hresolve, hw, List.mem_map, exists_exists_and_eq_and, Rule.holds,
      Bool.and_eq_true, decide_eq_true_eq, Option.some_inj]
    constructor
    · rintro ⟨group, hgroup, ⟨hnumber, hall⟩, hverdict⟩
      exact ⟨⟨hnumber, group, hgroup, hall⟩, hverdict⟩
    · rintro ⟨⟨hnumber, group, hgroup, hall⟩, hverdict⟩
      exact ⟨group, hgroup, ⟨hnumber, hall⟩, hverdict⟩

end Entry

namespace Policy
variable {resolve : Resolver} {policy : Policy} {filter : Filter} {call : Call}

theorem mem_entries {entry : Entry} : entry ∈ policy.entries ↔ some entry ∈ policy.syscalls := by
  simp [entries]

theorem exists_mem_rules {default v : Verdict}
    (h : ∀ entry ∈ policy.syscalls, Entry.faults resolve default entry = []) :
    (∃ rule ∈ policy.syscalls.flatMap (Entry.rules resolve),
        rule.holds call = true ∧ rule.verdict = v) ↔
      ∃ entry ∈ policy.entries, entry.applies resolve call = true ∧ entry.verdict? = some v := by
  constructor
  · rintro ⟨rule, hrule, hholds⟩
    obtain ⟨entry, hentry, hrule⟩ := List.mem_flatMap.mp hrule
    cases entry with
    | none => cases hrule
    | some entry =>
      exact ⟨entry, mem_entries.mpr hentry,
        (Entry.exists_mem_rules (h _ hentry)).mp ⟨rule, hrule, hholds⟩⟩
  · rintro ⟨entry, hentry, happlies⟩
    have hmem := mem_entries.mp hentry
    obtain ⟨rule, hrule, hholds⟩ := (Entry.exists_mem_rules (h _ hmem)).mpr happlies
    exact ⟨rule, List.mem_flatMap.mpr ⟨some entry, hmem, hrule⟩, hholds⟩

theorem forall_mem_rules {default : Verdict}
    (h : ∀ entry ∈ policy.syscalls, Entry.faults resolve default entry = []) :
    (∀ rule ∈ policy.syscalls.flatMap (Entry.rules resolve), rule.holds call = false) ↔
      ∀ entry ∈ policy.entries, entry.applies resolve call = false := by
  constructor
  · intro hnone entry hentry
    rw [← Bool.not_eq_true]
    intro happlies
    have hresolve := (of_decide_eq_true happlies).1
    obtain ⟨_, v, hv⟩ := Entry.of_faults_eq_nil (h _ (mem_entries.mp hentry)) hresolve
    obtain ⟨rule, hrule, hholds, _⟩ := (exists_mem_rules h).mpr ⟨entry, hentry, happlies, hv⟩
    rw [hnone rule hrule] at hholds
    cases hholds
  · intro hnone rule hrule
    rw [← Bool.not_eq_true]
    intro hholds
    obtain ⟨entry, hentry, happlies, _⟩ := (exists_mem_rules h).mp ⟨rule, hrule, hholds, rfl⟩
    rw [hnone entry hentry] at happlies
    cases happlies

theorem mem_candidates {v : Verdict} :
    v ∈ policy.candidates resolve call ↔
      (∃ entry ∈ policy.entries, entry.applies resolve call = true ∧ entry.verdict? = some v) ∨
        policy.defaultVerdict? = some v ∧
          ∀ entry ∈ policy.entries, entry.applies resolve call = false := by
  simp only [candidates, mem_ite_filter, Option.mem_toList]

/-- The filter that a policy is built into has the policy's verdicts up for every call. -/
theorem mem_candidates_iff (hbuild : (policy.build resolve).result = .ok filter) {v : Verdict} :
    v ∈ filter.candidates call ↔ v ∈ policy.candidates resolve call := by
  obtain ⟨hfaults, _, hdefault, hrules⟩ := of_build_eq_ok hbuild
  have hentries : ∀ entry ∈ policy.syscalls, Entry.faults resolve filter.verdict entry = [] := by
    rw [faults, hdefault, List.append_eq_nil_iff, List.flatMap_eq_nil_iff,
      List.flatMap_eq_nil_iff] at hfaults
    exact hfaults.2
  rw [Filter.mem_candidates, mem_candidates, hrules, exists_mem_rules hentries,
    forall_mem_rules hentries, hdefault, Option.some_inj, eq_comm]

theorem verdict_returned (action : ActionName) (code : Option UInt16) :
    (action.verdict code).returned = action.verdict code := by
  have hcode : ∀ n : UInt16, n.toUInt32 % 0x10000 = n.toUInt32 := by
    intro n
    apply UInt32.toNat_inj.mp
    rw [UInt32.toNat_mod, UInt16.toNat_toUInt32]
    exact Nat.mod_eq_of_lt n.toNat_lt
  cases action <;> simp only [ActionName.verdict, Verdict.returned, hcode]

/-- The codes of a policy fit into a return value. -/
theorem returned_of_mem_candidates {v : Verdict} (hv : v ∈ policy.candidates resolve call) :
    v.returned = v := by
  rcases mem_candidates.mp hv with ⟨entry, _, _, hverdict⟩ | ⟨hdefault, _⟩
  · obtain ⟨action, _, rfl⟩ := Option.map_eq_some_iff.mp hverdict
    exact verdict_returned action entry.errnoRet
  · obtain ⟨action, _, rfl⟩ := Option.map_eq_some_iff.mp hdefault
    exact verdict_returned action none

/-- The kernel's verdict under the programs of a policy is the one that decides among the policy's
verdicts for the call. -/
theorem decides_verdict {programs : List Program} {thread : Thread}
    (hbuild : (policy.build resolve).result = .ok filter)
    (hlower : filter.lower.result = .ok programs)
    (hlayers : thread.layers.map (·.program) = programs.reverse)
    (hnative : call.architecture = Call.nativeArchitecture) :
    Decides filter.attachedVerdicts (policy.candidates resolve call) (thread.verdict call) := by
  have hs := (of_build_eq_ok hbuild).2.1.sound
  obtain ⟨v, hv, -⟩ := hs.existsUnique_decides call
  have hpolicy : Decides filter.attachedVerdicts (policy.candidates resolve call) v :=
    hv.congr fun u => mem_candidates_iff hbuild
  rwa [hs.verdict_eq hlower hnative hlayers hv, returned_of_mem_candidates hpolicy.mem]

/-- The programs that a policy is made into decide every native call as the policy says: by the
strictest of the entries that match it, or by the default action if there is none. -/
theorem programs_decide_policy {programs : List Program}
    (hbuild : (policy.build resolve).result = .ok filter)
    (hlower : filter.lower.result = .ok programs) :
    List.Forall₂ (fun v program => ∀ call : Call, call.architecture = Call.nativeArchitecture →
        program.run call = some (answer (policy.candidates resolve call) v).word)
      filter.attachedVerdicts programs ∧
    ∀ call : Call, call.architecture = Call.nativeArchitecture →
      (∃! v, Decides filter.attachedVerdicts (policy.candidates resolve call) v) ∧
      ∀ v, Decides filter.attachedVerdicts (policy.candidates resolve call) v →
        ∀ thread : Thread, thread.layers.map (·.program) = programs.reverse →
          thread.verdict call = v := by
  have hs := (of_build_eq_ok hbuild).2.1.sound
  have hmem : ∀ call v, v ∈ filter.candidates call ↔ v ∈ policy.candidates resolve call :=
    fun call v => mem_candidates_iff hbuild
  constructor
  · refine (hs.run_programs hlower).imp fun v program hrun call hnative => ?_
    rw [hrun call hnative, Verdict.answer_congr (hmem call)]
  · intro call hnative
    constructor
    · obtain ⟨v, hv, hunique⟩ := hs.existsUnique_decides call
      exact ⟨v, hv.congr (hmem call), fun w hw => hunique w (hw.congr fun u => (hmem call u).symm)⟩
    · intro v hv thread hlayers
      have hdecides := hv.congr fun u => (hmem call u).symm
      rw [hs.verdict_eq hlower hnative hlayers hdecides, returned_of_mem_candidates hv.mem]

/-- Three entries for one call with different actions, two of them with codes. -/
def overlapping : Policy where
  defaultAction := "SCMP_ACT_ERRNO"
  syscalls := [
    some { name := "openat", action := "SCMP_ACT_ALLOW" },
    some { name := "openat", action := "SCMP_ACT_ERRNO", errnoRet := some 13,
           args := [some ⟨2, 0, 3, "SCMP_CMP_MASKED_EQ"⟩,
             some ⟨2, 0x100000000, 0, "SCMP_CMP_GE"⟩] },
    some { name := "openat", action := "SCMP_ACT_ERRNO", errnoRet := some 38,
           args := [some ⟨0, 7, 0, "SCMP_CMP_EQ"⟩, some ⟨1, 0, 0, "SCMP_CMP_NE"⟩] },
    some { name := "no_such_call", action := "SCMP_ACT_TRAP" }]

theorem programs_decide_overlapping :
    ∃ filter programs, (overlapping.build (.ofList [("openat", 257)])).result = .ok filter ∧
      filter.lower.result = .ok programs ∧
        Thread.verdict ⟨true, programs.reverse.map (⟨0, ·⟩)⟩
          ⟨257, Call.nativeArchitecture, 0, fun i => if i = 2 then 0x100000002 else 7⟩ =
            .errno 38 := by
  let filter :=
    (overlapping.build (.ofList [("openat", 257)])).result.toOption.getD (.empty .allow)
  have hbuild : (overlapping.build (.ofList [("openat", 257)])).result = .ok filter := by
    decide +kernel
  have hlower : filter.lower.result = .ok (filter.programs.toOption.getD []) := by
    decide +kernel
  refine ⟨filter, _, hbuild, hlower, ?_⟩
  refine ((programs_decide_policy hbuild hlower).2 _ rfl).2 (.errno 38) ?_ _ ?_
  · exact ⟨by decide +kernel, by decide +kernel, by decide +kernel⟩
  · rw [List.map_map]
    exact List.map_id _

end Policy

end SyscallPolicy
