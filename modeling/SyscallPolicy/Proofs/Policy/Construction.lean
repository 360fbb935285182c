import SyscallPolicy.Proofs.Policy.Entries

/-! What a policy is built into: the first of its faults, or a filter with the rules of all its
entries. -/
namespace SyscallPolicy.Policy

/-- The verdict that the default action of a policy stands for. -/
def defaultVerdict? (policy : Policy) : Option Verdict :=
  (ActionName.ofName? policy.defaultAction).map (·.verdict none)

/-- What is wrong with the name of an architecture. -/
def architectureFaults (name : String) : List PolicyError :=
  if Architecture.ofName? name = none then [.invalidArchitecture name] else []

/-- What is wrong with a policy, in the order in which it is looked for. Without a default verdict
nothing else is. -/
def faults (resolve : Resolver) (policy : Policy) : List PolicyError :=
  match policy.defaultVerdict? with
  | none => [.inDefaultAction (.invalidAction policy.defaultAction)]
  | some default =>
    policy.architectures.flatMap architectureFaults ++
      policy.syscalls.flatMap (Entry.faults resolve default)

variable {resolve : Resolver} {policy : Policy}

theorem yields_architectureSteps {verdict : Verdict} (name : String) :
    Script.Yields verdict (.ofExcept (architectureSteps name)) (architectureFaults name).head?
      [] := by
  unfold architectureFaults
  simp only [architectureSteps, Architecture.ofName]
  cases Architecture.ofName? name with
  | none => exact Script.yields_error _ _
  | some architecture =>
    refine Script.yields_request _ fun filter => ⟨_, rfl, ?_, ?_⟩
    · unfold Filter.addArchitecture
      split <;> rfl
    · unfold Filter.addArchitecture
      split <;> rfl

theorem yields_script (resolve : Resolver) (policy : Policy) (verdict : Verdict) :
    Script.Yields verdict (policy.script resolve verdict)
      (policy.architectures.flatMap architectureFaults ++
        policy.syscalls.flatMap (Entry.faults resolve verdict)).head?
      (policy.syscalls.flatMap (Entry.rules resolve)) := by
  have harchitectures : Script.Yields verdict
      (.sequence (policy.architectures.map fun name => .ofExcept (architectureSteps name)))
      (policy.architectures.findSome? fun name => (architectureFaults name).head?)
      (policy.architectures.flatMap fun _ => []) :=
    Script.yields_sequence fun name _ => yields_architectureSteps name
  have hprivs : Script.Yields verdict
      (.sequence [⟨[.request (.setNoNewPrivs false) .noNewPrivs], none⟩]) none [] :=
    Script.yields_request _ fun _ => ⟨_, rfl, rfl, rfl⟩
  have hentries := Script.yields_sequence
    fun entry (_ : entry ∈ policy.syscalls) => Entry.yields_steps resolve verdict entry
  have hbuilt : Script.Yields verdict
      (.sequence [⟨[.log (.built verdict policy.syscalls.length)], none⟩]) none [] :=
    Script.yields_log _
  have hnone : policy.architectures.flatMap (fun _ => []) = ([] : List Rule) :=
    List.flatMap_eq_nil_iff.mpr fun _ _ => rfl
  have hall := ((harchitectures.andThen hprivs).andThen hentries).andThen hbuilt
  simpa only [script, Script.sequence_append, List.head?_append, List.head?_flatMap,
    Option.or_none, List.append_nil, List.nil_append, hnone] using hall

theorem defaultVerdict_eq_ok {v : Verdict} (h : policy.defaultVerdict? = some v) :
    policy.defaultVerdict = .ok v := by
  obtain ⟨action, haction, rfl⟩ := Option.map_eq_some_iff.mp h
  simp only [defaultVerdict, ActionName.verdictOf, haction]
  rfl

theorem defaultVerdict_eq_error (h : policy.defaultVerdict? = none) :
    policy.defaultVerdict = .error (.inDefaultAction (.invalidAction policy.defaultAction)) := by
  simp only [defaultVerdict, ActionName.verdictOf, Option.map_eq_none_iff.mp h]
  rfl

/-- A policy with a fault is not built, and its first fault is the error. -/
theorem build_eq_error {e : PolicyError} (h : (policy.faults resolve).head? = some e) :
    (policy.build resolve).result = .error e := by
  unfold faults at h
  cases hdefault : policy.defaultVerdict? with
  | none =>
    rw [hdefault] at h
    cases h
    simp only [build, buildInto, defaultVerdict_eq_error hdefault]
    rfl
  | some v =>
    rw [hdefault] at h
    obtain ⟨reached, hrun⟩ := (yields_script resolve policy v).error e h (.empty v) rfl
    simp only [build, buildInto, defaultVerdict_eq_ok hdefault, Filter.backend] at hrun ⊢
    rw [hrun]
    rfl

/-- A policy without faults is built into a filter with its default verdict and the rules of its
entries. -/
theorem build_eq_ok (h : policy.faults resolve = []) :
    ∃ filter, (policy.build resolve).result = .ok filter ∧ filter.Reachable ∧
      policy.defaultVerdict? = some filter.verdict ∧
      filter.rules = policy.syscalls.flatMap (Entry.rules resolve) := by
  unfold faults at h
  cases hdefault : policy.defaultVerdict? with
  | none =>
    rw [hdefault] at h
    cases h
  | some v =>
    rw [hdefault] at h
    obtain ⟨filter, hrun, hverdict, hrules⟩ :=
      (yields_script resolve policy v).ok (List.head?_eq_none_iff.mpr h) (.empty v) rfl
    refine ⟨filter, ?_, (Filter.Reachable.empty v).run hrun, by rw [hverdict], hrules⟩
    simp only [build, buildInto, defaultVerdict_eq_ok hdefault, Filter.backend] at hrun ⊢
    rw [hrun]
    rfl

/-- A filter is built of policies without faults only. -/
theorem of_build_eq_ok {filter : Filter} (h : (policy.build resolve).result = .ok filter) :
    policy.faults resolve = [] ∧ filter.Reachable ∧
      policy.defaultVerdict? = some filter.verdict ∧
      filter.rules = policy.syscalls.flatMap (Entry.rules resolve) := by
  cases hfaults : policy.faults resolve with
  | nil =>
    obtain ⟨built, hbuilt, hspec⟩ := build_eq_ok hfaults
    rw [h] at hbuilt
    cases hbuilt
    exact ⟨rfl, hspec⟩
  | cons e rest =>
    have hfirst : (policy.faults resolve).head? = some e := by
      rw [hfaults]
      rfl
    rw [build_eq_error hfirst] at h
    cases h

end SyscallPolicy.Policy
