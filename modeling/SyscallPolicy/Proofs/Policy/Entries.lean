import SyscallPolicy.Policy.Build
import SyscallPolicy.Proofs.Grouping
import SyscallPolicy.Proofs.Script

/-! What one entry of a policy does to a filter: the faults that it has, in the order in which they
are found, and the rules that it adds if it has none. -/
namespace SyscallPolicy

namespace ArgCheck

/-- What is wrong with a check. -/
def faults : Option ArgCheck → List PolicyError
  | none => [.nullCheck]
  | some check =>
    (if Operator.ofName? check.op = none then [.invalidOperator check.op] else []) ++
    (if check.index.toNat ≤ 5 then []
      else [.conditionConstruction check.index
        (if check.index.toNat < 256 then .indexTooGreat else .indexTooWide)])

/-- The conditions that checks stand for. -/
def conditions (checks : List (Option ArgCheck)) : List Condition :=
  checks.filterMap fun check => (condition check).toOption

theorem condition_eq_error {check : Option ArgCheck} {e : PolicyError}
    (h : (faults check).head? = some e) : condition check = .error e := by
  cases check with
  | none =>
    cases h
    rfl
  | some check =>
    simp only [faults] at h
    simp only [condition, Operator.ofName]
    cases hoperator : Operator.ofName? check.op with
    | none =>
      rw [if_pos hoperator] at h
      cases h
      rfl
    | some operator =>
      rw [hoperator, if_neg (Option.some_ne_none _)] at h
      by_cases hindex : check.index.toNat ≤ 5
      · rw [if_pos hindex] at h
        cases h
      · rw [if_neg hindex] at h
        cases h
        have hindex : ¬check.index.toNat < 6 := by omega
        simp only [bind, Except.bind, dif_neg hindex]
        rfl

/-- A check without faults stands for the comparison that its operator names. -/
theorem condition_eq_ok {check : ArgCheck} (h : faults (some check) = []) :
    ∃ operator, Operator.ofName? check.op = some operator ∧ ∃ hindex : check.index.toNat < 6,
      condition (some check) =
        .ok ⟨⟨check.index.toNat, hindex⟩, operator.comparison check.valueTwo, check.value⟩ := by
  rw [faults, List.append_eq_nil_iff] at h
  obtain ⟨hoperator, hindex⟩ := h
  cases hfound : Operator.ofName? check.op with
  | none =>
    rw [if_pos hfound] at hoperator
    cases hoperator
  | some operator =>
    by_cases hle : check.index.toNat ≤ 5
    · have hlt : check.index.toNat < 6 := by omega
      refine ⟨operator, rfl, hlt, ?_⟩
      simp only [condition, Operator.ofName, hfound, bind, Except.bind, dif_pos hlt]
      rfl
    · rw [if_neg hle] at hindex
      cases hindex

theorem exists_condition {check : Option ArgCheck} (h : faults check = []) :
    ∃ c, condition check = .ok c := by
  cases check with
  | none => cases h
  | some check =>
    obtain ⟨_, _, _, hcondition⟩ := condition_eq_ok h
    exact ⟨_, hcondition⟩

theorem faults_eq_nil_of_condition {check : Option ArgCheck} {c : Condition}
    (h : condition check = .ok c) : faults check = [] := by
  cases hfaults : faults check with
  | nil => rfl
  | cons e rest =>
    rw [condition_eq_error (by rw [hfaults, List.head?_cons])] at h
    cases h

theorem mapM_condition_eq_error {checks : List (Option ArgCheck)} {e : PolicyError}
    (h : (checks.flatMap faults).head? = some e) : checks.mapM condition = .error e := by
  rw [List.head?_flatMap] at h
  exact mapM_eq_error (fun _ _ => condition_eq_error)
    (fun _ hnone => exists_condition (List.head?_eq_none_iff.mp hnone)) h

theorem mapM_condition_eq_ok {checks : List (Option ArgCheck)}
    (h : checks.flatMap faults = []) : checks.mapM condition = .ok (conditions checks) := by
  rw [List.flatMap_eq_nil_iff] at h
  induction checks with
  | nil => rfl
  | cons check checks ih =>
    obtain ⟨c, hc⟩ := exists_condition (h check List.mem_cons_self)
    have hrest := ih fun other hother => h other (List.mem_cons_of_mem check hother)
    simp only [conditions, List.mapM_cons, hc, hrest, List.filterMap_cons, Except.toOption]
    rfl

end ArgCheck

namespace Entry

/-- The verdict that the action of an entry stands for. -/
def verdict? (entry : Entry) : Option Verdict :=
  (ActionName.ofName? entry.action).map (·.verdict entry.errnoRet)

/-- What is wrong with an entry for a call of the given number under a default verdict, in the
order in which it is looked for. -/
def callFaults (default : Verdict) (entry : Entry) (number : Int) : List PolicyError :=
  (if entry.verdict? = none then [.inAction entry.name (.invalidAction entry.action)] else []) ++
  (entry.args.flatMap ArgCheck.faults).map (.inCondition entry.name) ++
  (if number < 0 then [.ruleAddition entry.name (.rejection (.negativeNumber number))] else []) ++
  (if entry.verdict? = some default then
      [.ruleAddition entry.name (.rejection (.repeatsDefault number))]
    else [])

/-- What is wrong with an entry. Behind a name that stands for no call, nothing is. -/
def faults (resolve : Resolver) (default : Verdict) : Option Entry → List PolicyError
  | none => [.nullEntry]
  | some entry =>
    (if entry.name = "" then [.emptySyscallName] else []) ++
    match resolve entry.name with
    | none => []
    | some number => entry.callFaults default number

/-- The groups of conditions of an entry: a single empty one if it has no checks. -/
def groups (entry : Entry) : List (List Condition) :=
  let conditions := ArgCheck.conditions entry.args
  if conditions = [] then [[]]
  else Combination.groups (conditions.map fun c => (c.argument, c))

/-- The rules that an entry stands for, all with its verdict, one for each group. -/
def rules (resolve : Resolver) : Option Entry → List Rule
  | none => []
  | some entry =>
    match resolve entry.name, entry.verdict? with
    | some number, some verdict => entry.groups.map fun group => ⟨number, verdict, group⟩
    | _, _ => []

theorem verdictOf_eq_ok {entry : Entry} {v : Verdict} (h : entry.verdict? = some v) :
    ActionName.verdictOf entry.action entry.errnoRet = .ok v := by
  obtain ⟨action, haction, rfl⟩ := Option.map_eq_some_iff.mp h
  simp only [ActionName.verdictOf, haction]

theorem verdictOf_eq_error {entry : Entry} (h : entry.verdict? = none) :
    ActionName.verdictOf entry.action entry.errnoRet = .error (.invalidAction entry.action) := by
  simp only [ActionName.verdictOf, Option.map_eq_none_iff.mp h]

theorem verdictOf_eq_ok_iff {entry : Entry} {v : Verdict} :
    ActionName.verdictOf entry.action entry.errnoRet = .ok v ↔ entry.verdict? = some v := by
  refine ⟨fun h => ?_, verdictOf_eq_ok⟩
  cases hverdict : entry.verdict? with
  | none =>
    rw [verdictOf_eq_error hverdict] at h
    cases h
  | some w =>
    rw [verdictOf_eq_ok hverdict] at h
    cases h
    rfl

section
variable {resolve : Resolver} {default v : Verdict} {entry : Entry} {number : Int}

/-- The first of the faults that a filter finds in a rule is its reason to refuse the rule. -/
private theorem head?_ruleFaults (name : String) (conditions : List Condition) :
    ((if number < 0 then [PolicyError.ruleAddition name (.rejection (.negativeNumber number))]
        else []) ++
      (if some v = some default then
          [PolicyError.ruleAddition name (.rejection (.repeatsDefault number))]
        else [])).head? =
      (Rule.rejection? default ⟨number, v, conditions⟩).map fun reason =>
        (Purpose.entry name).refused (.rejection reason) := by
  unfold Rule.rejection?
  by_cases hnumber : number < 0
  · simp only [if_pos hnumber]
    rfl
  · by_cases hdefault : v = default
    · simp only [if_neg hnumber, if_pos hdefault, Option.some_inj]
      rfl
    · simp only [if_neg hnumber, if_neg hdefault, Option.some_inj]
      rfl

private theorem sequence_single (groups : List (List Condition)) (step : List Condition → Step) :
    Script.sequence (groups.map fun group => ⟨[step group], none⟩) =
      ⟨groups.map step, none⟩ := by
  induction groups with
  | nil => rfl
  | cons group groups ih =>
    rw [List.map_cons, Script.sequence, ih]
    rfl

private theorem findSome?_const {ι α : Type} {items : List ι} (h : items ≠ []) (a : Option α) :
    (items.findSome? fun _ => a) = a := by
  cases items with
  | nil => exact absurd rfl h
  | cons item items => cases a <;> simp

/-- The requests for the groups of an entry that has some add a rule for each. -/
private theorem yields_groups {groups : List (List Condition)} (hne : groups ≠ [])
    (hgroups : ∀ group ∈ groups, group ≠ []) (purpose : Purpose) :
    Script.Yields default
      ⟨groups.map fun group => .request (.addConditionalRule number v group) purpose, none⟩
      ((Rule.rejection? default ⟨number, v, []⟩).map fun reason =>
        purpose.refused (.rejection reason))
      (groups.map fun group => ⟨number, v, group⟩) := by
  have hrule : ∀ group ∈ groups, Script.Yields default
      ⟨[.request (.addConditionalRule number v group) purpose], none⟩
      ((Rule.rejection? default ⟨number, v, []⟩).map fun reason =>
        purpose.refused (.rejection reason)) [⟨number, v, group⟩] := by
    intro group hgroup
    have happly : ∀ filter : Filter, filter.apply (.addConditionalRule number v group) =
        filter.addRule ⟨number, v, group⟩ := by
      intro filter
      simp only [Filter.apply, List.isEmpty_iff, if_neg (hgroups group hgroup)]
    exact Script.yields_rule happly purpose
  have hall := Script.yields_sequence hrule
  rwa [sequence_single, findSome?_const hne, ← List.map_eq_flatMap] at hall

/-- The steps for an entry with a known action and faultless checks add its rules. -/
private theorem yields_rules (entry : Entry) :
    Script.Yields default
      (.ofExcept (if (ArgCheck.conditions entry.args).isEmpty then
          return [.request (.addRule number v) (.entry entry.name),
            .log (.ruleAdded entry.name number v)]
        else
          let groups :=
            Combination.groups ((ArgCheck.conditions entry.args).map fun c => (c.argument, c))
          return .log (.conditionalRules entry.name number v groups.length) ::
            groups.map fun group =>
              .request (.addConditionalRule number v group) (.entry entry.name)))
      ((Rule.rejection? default ⟨number, v, []⟩).map fun reason =>
        (Purpose.entry entry.name).refused (.rejection reason))
      (entry.groups.map fun group => ⟨number, v, group⟩) := by
  unfold groups
  by_cases hempty : ArgCheck.conditions entry.args = []
  · rw [hempty]
    have hrule : Script.Yields default ⟨[.request (.addRule number v) (.entry entry.name)], none⟩
        _ [⟨number, v, []⟩] := Script.yields_rule (fun _ => rfl) _
    have hsteps := hrule.andThen (Script.yields_log (.ruleAdded entry.name number v))
    rwa [Option.or_none] at hsteps
  · simp only [List.isEmpty_iff, if_neg hempty]
    have hne : (ArgCheck.conditions entry.args).map (fun c => (c.argument, c)) ≠ [] := by
      simpa using hempty
    exact (Script.yields_log _).andThen (yields_groups (Combination.groups_ne_nil hne)
      (fun _ => Combination.ne_nil_of_mem_groups) _)

end

theorem yields_steps (resolve : Resolver) (default : Verdict) (entry : Option Entry) :
    Script.Yields default (.ofExcept (steps resolve entry)) (faults resolve default entry).head?
      (rules resolve entry) := by
  cases entry with
  | none => exact Script.yields_error _ _
  | some entry =>
    simp only [steps, faults, rules]
    by_cases hname : entry.name = ""
    · simp only [if_pos hname]
      exact Script.yields_error _ _
    rw [if_neg hname, if_neg hname, List.nil_append]
    cases resolve entry.name with
    | none => exact Script.yields_log _
    | some number =>
      unfold callFaults
      cases hverdict : entry.verdict? with
      | none =>
        simp only [verdictOf_eq_error hverdict]
        exact Script.yields_error _ _
      | some v =>
        cases hchecks : entry.args.flatMap ArgCheck.faults with
        | cons e rest =>
          have hhead : (entry.args.flatMap ArgCheck.faults).head? = some e := by rw [hchecks]; rfl
          simp only [verdictOf_eq_ok hverdict, ArgCheck.mapM_condition_eq_error hhead]
          exact Script.yields_error _ _
        | nil =>
          simp only [verdictOf_eq_ok hverdict, ArgCheck.mapM_condition_eq_ok hchecks]
          rw [if_neg (Option.some_ne_none _), List.map_nil, List.append_nil, List.nil_append,
            head?_ruleFaults entry.name []]
          exact yields_rules entry

end Entry

end SyscallPolicy
