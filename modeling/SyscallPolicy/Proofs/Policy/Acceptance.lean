import SyscallPolicy.Proofs.Policy.Construction

/-! Which policies can be built, and which error is reported for the others. -/
namespace SyscallPolicy

/-- A known operator, on one of the six arguments. -/
structure ArgCheck.IsAcceptable (check : ArgCheck) : Prop where
  operator : Operator.ofName? check.op ≠ none
  index_le : check.index.toNat ≤ 5

/-- An entry with a name. If that stands for a system call, the number, the action and the checks
count too. -/
structure Entry.IsAcceptable (resolve : Resolver) (default : Verdict) (entry : Entry) : Prop where
  name_ne : entry.name ≠ ""
  number_nonneg : ∀ number, resolve entry.name = some number → 0 ≤ number
  verdict : ∀ number, resolve entry.name = some number →
    ∃ v, entry.verdict? = some v ∧ v ≠ default
  checks : ∀ number, resolve entry.name = some number →
    ∀ check ∈ entry.args, ∃ c, check = some c ∧ c.IsAcceptable

/-- Known names of actions and architectures, and acceptable entries only. -/
def Policy.IsAcceptable (resolve : Resolver) (policy : Policy) : Prop :=
  ∃ default, policy.defaultVerdict? = some default ∧
    (∀ name ∈ policy.architectures, Architecture.ofName? name ≠ none) ∧
    ∀ entry ∈ policy.syscalls, ∃ e, entry = some e ∧ e.IsAcceptable resolve default

/-- The kinds of errors that a policy itself is to blame for. -/
def ErrorKind.ofPolicy : List ErrorKind :=
  [.invalidAction, .invalidOperator, .invalidArchitecture, .emptySyscallName, .nullEntry,
    .nullCheck, .conditionConstruction, .ruleAddition]

theorem ArgCheck.faults_eq_nil_iff {check : Option ArgCheck} :
    faults check = [] ↔ ∃ c, check = some c ∧ c.IsAcceptable := by
  cases check with
  | none => simp [faults]
  | some check =>
    rw [faults, List.append_eq_nil_iff]
    constructor
    · intro h
      refine ⟨check, rfl, ?_, ?_⟩
      · intro hnone
        rw [if_pos hnone] at h
        cases h.1
      · by_cases hindex : check.index.toNat ≤ 5
        · exact hindex
        · rw [if_neg hindex] at h
          cases h.2
    · rintro ⟨c, hc, hacceptable⟩
      cases hc
      exact ⟨if_neg hacceptable.operator, if_pos hacceptable.index_le⟩

theorem ArgCheck.kind_of_mem_faults {check : Option ArgCheck} {e : PolicyError}
    (h : e ∈ faults check) : e.kind ∈ ErrorKind.ofPolicy := by
  cases check with
  | none =>
    cases List.mem_singleton.mp h
    exact List.mem_of_elem_eq_true rfl
  | some check =>
    simp only [faults, List.mem_append, List.mem_ite_nil_right, List.mem_ite_nil_left,
      List.mem_singleton] at h
    rcases h with ⟨-, rfl⟩ | ⟨-, rfl⟩ <;> exact List.mem_of_elem_eq_true rfl

theorem Entry.callFaults_eq_nil_iff {default : Verdict} {entry : Entry} {number : Int} :
    entry.callFaults default number = [] ↔
      0 ≤ number ∧ (∃ v, entry.verdict? = some v ∧ v ≠ default) ∧
        ∀ check ∈ entry.args, ∃ c, check = some c ∧ c.IsAcceptable := by
  simp only [callFaults, List.append_eq_nil_iff, List.map_eq_nil_iff, List.flatMap_eq_nil_iff,
    ArgCheck.faults_eq_nil_iff, ite_eq_right_iff, List.cons_ne_nil, imp_false, Int.not_lt]
  constructor
  · rintro ⟨⟨⟨hverdict, hchecks⟩, hnumber⟩, hdefault⟩
    obtain ⟨v, hv⟩ := Option.ne_none_iff_exists'.mp hverdict
    refine ⟨hnumber, ⟨v, hv, ?_⟩, hchecks⟩
    rintro rfl
    exact hdefault hv
  · rintro ⟨hnumber, ⟨v, hv, hne⟩, hchecks⟩
    rw [hv, Option.some_inj]
    exact ⟨⟨⟨Option.some_ne_none v, hchecks⟩, hnumber⟩, hne⟩

theorem Entry.faults_eq_nil_iff {resolve : Resolver} {default : Verdict} {entry : Option Entry} :
    faults resolve default entry = [] ↔ ∃ e, entry = some e ∧ e.IsAcceptable resolve default := by
  cases entry with
  | none => simp [faults]
  | some entry =>
    have hname : (if entry.name = "" then [PolicyError.emptySyscallName] else []) = [] ↔
        entry.name ≠ "" := by
      by_cases hname : entry.name = "" <;> simp [hname]
    simp only [faults, List.append_eq_nil_iff, hname, Option.some_inj, exists_eq_left']
    cases hresolve : resolve entry.name with
    | none =>
      constructor
      · exact fun h => ⟨h.1, by simp [hresolve], by simp [hresolve], by simp [hresolve]⟩
      · exact fun h => ⟨h.name_ne, rfl⟩
    | some number =>
      rw [callFaults_eq_nil_iff]
      constructor
      · rintro ⟨hne, hnumber, hverdict, hchecks⟩
        refine ⟨hne, fun n hn => ?_, fun _ _ => hverdict, fun _ _ => hchecks⟩
        rw [hresolve, Option.some_inj] at hn
        rwa [← hn]
      · exact fun h => ⟨h.name_ne, h.number_nonneg number hresolve, h.verdict number hresolve,
          h.checks number hresolve⟩

theorem Entry.kind_of_mem_callFaults {default : Verdict} {entry : Entry} {number : Int}
    {e : PolicyError} (h : e ∈ entry.callFaults default number) :
    e.kind ∈ ErrorKind.ofPolicy := by
  simp only [callFaults, List.mem_append, List.mem_map, List.mem_flatMap, List.mem_ite_nil_right,
    List.mem_singleton] at h
  rcases h with ((⟨-, rfl⟩ | ⟨beneath, ⟨check, -, hbeneath⟩, rfl⟩) | ⟨-, rfl⟩) | ⟨-, rfl⟩
  · exact List.mem_of_elem_eq_true rfl
  · have hkind := ArgCheck.kind_of_mem_faults hbeneath
    exact hkind
  · exact List.mem_of_elem_eq_true rfl
  · exact List.mem_of_elem_eq_true rfl

theorem Entry.kind_of_mem_faults {resolve : Resolver} {default : Verdict} {entry : Option Entry}
    {e : PolicyError} (h : e ∈ faults resolve default entry) : e.kind ∈ ErrorKind.ofPolicy := by
  cases entry with
  | none =>
    cases List.mem_singleton.mp h
    exact List.mem_of_elem_eq_true rfl
  | some entry =>
    simp only [faults, List.mem_append, List.mem_ite_nil_right, List.mem_singleton] at h
    rcases h with ⟨-, rfl⟩ | h
    · exact List.mem_of_elem_eq_true rfl
    · split at h
      · cases h
      · exact kind_of_mem_callFaults h

namespace Policy
variable {resolve : Resolver} {policy : Policy}

theorem faults_eq_nil_iff : policy.faults resolve = [] ↔ policy.IsAcceptable resolve := by
  have harchitecture : ∀ name, architectureFaults name = [] ↔ Architecture.ofName? name ≠ none := by
    intro name
    unfold architectureFaults
    cases Architecture.ofName? name <;> simp
  unfold faults IsAcceptable
  cases policy.defaultVerdict? with
  | none => simp
  | some v =>
    simp only [List.append_eq_nil_iff, List.flatMap_eq_nil_iff, harchitecture,
      Entry.faults_eq_nil_iff]
    constructor
    · exact fun h => ⟨v, rfl, h⟩
    · rintro ⟨default, heq, h⟩
      cases heq
      exact h

theorem kind_of_mem_faults {e : PolicyError} (h : e ∈ policy.faults resolve) :
    e.kind ∈ ErrorKind.ofPolicy := by
  unfold faults at h
  split at h
  · cases List.mem_singleton.mp h
    exact List.mem_of_elem_eq_true rfl
  · rcases List.mem_append.mp h with h | h
    · obtain ⟨name, -, h⟩ := List.mem_flatMap.mp h
      simp only [architectureFaults, List.mem_ite_nil_right, List.mem_singleton] at h
      rw [h.2]
      exact List.mem_of_elem_eq_true rfl
    · obtain ⟨entry, -, h⟩ := List.mem_flatMap.mp h
      exact Entry.kind_of_mem_faults h

theorem build_eq_error_iff {e : PolicyError} :
    (policy.build resolve).result = .error e ↔ (policy.faults resolve).head? = some e := by
  constructor
  · intro h
    cases hfaults : policy.faults resolve with
    | nil =>
      obtain ⟨filter, hok, _⟩ := build_eq_ok hfaults
      rw [hok] at h
      cases h
    | cons first rest =>
      have hfirst : (policy.faults resolve).head? = some first := by
        rw [hfaults]
        rfl
      rw [build_eq_error hfirst] at h
      cases h
      rfl
  · exact build_eq_error

theorem kind_of_build_eq_error {e : PolicyError} (h : (policy.build resolve).result = .error e) :
    e.kind ∈ ErrorKind.ofPolicy :=
  kind_of_mem_faults (List.mem_of_mem_head? (build_eq_error_iff.mp h))

theorem exists_build_iff :
    (∃ filter, (policy.build resolve).result = .ok filter) ↔ policy.IsAcceptable resolve := by
  rw [← faults_eq_nil_iff]
  constructor
  · rintro ⟨filter, hok⟩
    exact (of_build_eq_ok hok).1
  · intro h
    obtain ⟨filter, hok, _⟩ := build_eq_ok h
    exact ⟨filter, hok⟩

theorem validate_result :
    (policy.validate resolve).result =
      ((policy.build resolve).result.map fun _ => ()).mapError .inBuild := by
  unfold validate
  cases hresult : (policy.build resolve).result with
  | ok filter => simp only [hresult]; rfl
  | error e => simp only [hresult]; rfl

/-- A policy is accepted exactly if it has none of the documented faults, and of several faults the
first is reported. Validation decides alike and wraps the same error. -/
theorem build_decides_acceptance (resolve : Resolver) (policy : Policy) :
    ((∃ filter, (policy.build resolve).result = .ok filter) ↔ policy.IsAcceptable resolve) ∧
    (∀ e, (policy.build resolve).result = .error e ↔ (policy.faults resolve).head? = some e) ∧
    ((policy.validate resolve).result = .ok () ↔ policy.IsAcceptable resolve) ∧
    ∀ e, (policy.validate resolve).result = .error e ↔
      ∃ beneath, (policy.build resolve).result = .error beneath ∧ e = .inBuild beneath := by
  refine ⟨exists_build_iff, fun e => build_eq_error_iff, ?_, ?_⟩
  · rw [← exists_build_iff, validate_result]
    cases (policy.build resolve).result with
    | ok filter => exact ⟨fun _ => ⟨filter, rfl⟩, fun _ => rfl⟩
    | error e => exact ⟨nofun, nofun⟩
  · intro e
    rw [validate_result]
    cases (policy.build resolve).result with
    | ok filter => exact ⟨nofun, nofun⟩
    | error beneath =>
      constructor
      · intro h
        cases h
        exact ⟨beneath, rfl, rfl⟩
      · rintro ⟨_, h, rfl⟩
        cases h
        rfl

end Policy

end SyscallPolicy
