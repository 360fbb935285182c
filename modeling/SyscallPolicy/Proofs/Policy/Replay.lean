import SyscallPolicy.Proofs.Policy.Calls

/-! A filter is what its build's calls make of it: they can be recorded first and then made on an
empty filter. -/
namespace SyscallPolicy

/-- Makes requests of a filter. Gives the number of the first that it refuses, `made` of them coming
before. -/
def Filter.replay : (made : Nat) → List Request → Filter → Except (Nat × Rejection) Filter
  | _, [], filter => .ok filter
  | made, request :: requests, filter =>
    match filter.apply request with
    | .ok next => replay (made + 1) requests next
    | .error reason => .error (made, reason)

/-- Makes recorded calls on a filter. Its creation is the call with number 0, which no filter
refuses. -/
def Recording.replay (recording : Recording) : Except (Nat × Rejection) Filter :=
  Filter.replay 1 recording.requests (.empty recording.verdict)

namespace Filter
variable {filter next : Filter}

theorem backend_apply_eq_ok {request : Request} (h : filter.apply request = .ok next) :
    backend.apply request filter = .ok next := by
  simp only [backend, h]
  rfl

theorem backend_apply_eq_error {request : Request} {reason : Rejection}
    (h : filter.apply request = .error reason) :
    backend.apply request filter = .error (.rejection reason) := by
  simp only [backend, h]
  rfl

/-- Only rules are refused. -/
theorem exists_rule_of_apply_eq_error {request : Request} {reason : Rejection}
    (h : filter.apply request = .error reason) :
    ∃ number verdict, request = .addRule number verdict ∨
      ∃ conditions, request = .addConditionalRule number verdict conditions := by
  cases request with
  | addArchitecture architecture => cases h
  | setNoNewPrivs on => cases h
  | addRule number verdict => exact ⟨number, verdict, .inl rfl⟩
  | addConditionalRule number verdict conditions => exact ⟨number, verdict, .inr ⟨conditions, rfl⟩⟩

theorem applyAll_of_replay_eq_ok {made : Nat} {requests : List Request}
    (h : replay made requests filter = .ok next) : backend.applyAll requests filter = .ok next := by
  induction requests generalizing made filter with
  | nil =>
    cases h
    rfl
  | cons request requests ih =>
    cases happly : filter.apply request with
    | ok between =>
      rw [replay, happly] at h
      exact Backend.applyAll_cons_eq_ok.mpr ⟨between, backend_apply_eq_ok happly, ih h⟩
    | error reason =>
      rw [replay, happly] at h
      cases h

/-- A replay that ends early has come to a request that the filter reached by then refuses. -/
theorem exists_of_replay_eq_error {made k : Nat} {reason : Rejection} {requests : List Request}
    (h : replay made requests filter = .error (k, reason)) :
    ∃ j request reached, k = made + j ∧ requests[j]? = some request ∧
      backend.applyAll (requests.take j) filter = .ok reached ∧
      reached.apply request = .error reason := by
  induction requests generalizing made filter with
  | nil => cases h
  | cons request requests ih =>
    cases happly : filter.apply request with
    | ok between =>
      rw [replay, happly] at h
      obtain ⟨j, refused, reached, rfl, hget, hreached, hrefused⟩ := ih h
      refine ⟨j + 1, refused, reached, by omega, hget, ?_, hrefused⟩
      exact Backend.applyAll_cons_eq_ok.mpr ⟨between, backend_apply_eq_ok happly, hreached⟩
    | error reason' =>
      rw [replay, happly] at h
      cases h
      exact ⟨0, request, filter, rfl, rfl, rfl, happly⟩

end Filter

namespace Policy
variable {resolve : Resolver} {policy : Policy} {v : Verdict}

theorem build_result (h : policy.defaultVerdict = .ok v) :
    (policy.build resolve).result =
      (Filter.backend.run (policy.script resolve v) (.empty v)).result.mapError (·.error) := by
  have hcreate : Filter.backend.create v = .ok (.empty v) := rfl
  simp only [build, buildInto, h, hcreate]
  cases (Filter.backend.run (policy.script resolve v) (.empty v)).result <;> rfl

theorem recorded_of_reached {recording : Recording}
    (h : Recording.reached? (policy.recorded resolve).result = some recording) :
    ∃ v, policy.defaultVerdict = .ok v ∧ recording = policy.recording resolve v := by
  cases hdefault : policy.defaultVerdict with
  | error e =>
    rw [recorded, buildInto_eq_of_error _ hdefault] at h
    cases h
  | ok v =>
    rw [reached?_recorded hdefault] at h
    exact ⟨v, rfl, (Option.some.inj h).symm⟩

/-- A filter that refuses none of the recorded calls is what the build ends with, if the recording
build ended well. -/
theorem build_of_replay_eq_ok {recording : Recording} {filter : Filter}
    (h : Recording.reached? (policy.recorded resolve).result = some recording)
    (hreplay : recording.replay = .ok filter) :
    (policy.build resolve).result =
      ((policy.recorded resolve).result.mapError (·.error)).map fun _ => filter := by
  obtain ⟨v, hdefault, rfl⟩ := recorded_of_reached h
  have haccepted := Backend.run_of_accepted (Filter.applyAll_of_replay_eq_ok hreplay)
  rw [build_result hdefault, recorded_eq hdefault]
  simp only [recording] at haccepted
  rw [haccepted]
  cases (policy.script resolve v).fault <;> rfl

/-- The first recorded call that a filter refuses ends the build, with an error for the entry that
made the call. -/
theorem build_of_replay_eq_error {recording : Recording} {k : Nat} {reason : Rejection}
    (h : Recording.reached? (policy.recorded resolve).result = some recording)
    (hreplay : recording.replay = .error (k, reason)) :
    ∃ i entry, policy.Makes resolve i entry k ∧
      (policy.build resolve).result = .error (.ruleAddition entry.name (.rejection reason)) := by
  obtain ⟨v, hdefault, rfl⟩ := recorded_of_reached h
  obtain ⟨j, request, reached, rfl, hget, hreached, hrefused⟩ :=
    Filter.exists_of_replay_eq_error hreplay
  simp only [recording, List.getElem?_map, Option.map_eq_some_iff] at hget
  obtain ⟨⟨_, purpose⟩, hasked, rfl⟩ := hget
  simp only [recording, ← List.map_take] at hreached
  have hresult : (policy.build resolve).result = .error (purpose.refused (.rejection reason)) := by
    rw [build_result hdefault, Backend.run_of_refused (eq_take_append_cons_drop hasked) hreached
      (Filter.backend_apply_eq_error hrefused)]
    rfl
  have hentry := refused_of_asked hdefault hasked (.rejection reason)
  rw [Nat.add_comm 1 j, hresult]
  obtain ⟨number, verdict, rfl | ⟨conditions, rfl⟩⟩ :=
    Filter.exists_rule_of_apply_eq_error hrefused
  · generalize purpose.refused (.rejection reason) = e at hentry ⊢
    cases hentry with
    | rule _ _ hmakes => exact ⟨_, _, hmakes, rfl⟩
  · generalize purpose.refused (.rejection reason) = e at hentry ⊢
    cases hentry with
    | conditionalRule _ _ _ hmakes => exact ⟨_, _, hmakes, rfl⟩

/-- Without recorded calls, the default action is to blame, whatever the target. -/
theorem build_of_not_reached (h : Recording.reached? (policy.recorded resolve).result = none) :
    ∃ e, policy.recorded resolve = ⟨[], .error ⟨e, none⟩⟩ ∧
      (policy.build resolve).result = .error e := by
  cases hdefault : policy.defaultVerdict with
  | ok v =>
    rw [reached?_recorded hdefault] at h
    cases h
  | error e =>
    refine ⟨e, buildInto_eq_of_error _ hdefault, ?_⟩
    rw [build, buildInto_eq_of_error _ hdefault]
    rfl

/-- A build makes a filter of the calls that are recorded for any other target: it has the result of
the recording build if the filter refuses none of them, and else it fails at the first that the
filter refuses, on the entry that makes it. -/
theorem build_replays_recorded (resolve : Resolver) (policy : Policy) :
    (∀ recording filter, Recording.reached? (policy.recorded resolve).result = some recording →
      recording.replay = .ok filter →
        (policy.build resolve).result =
          ((policy.recorded resolve).result.mapError (·.error)).map fun _ => filter) ∧
    (∀ recording k reason,
      Recording.reached? (policy.recorded resolve).result = some recording →
      recording.replay = .error (k, reason) →
        ∃ i entry, policy.Makes resolve i entry k ∧
          (policy.build resolve).result =
            .error (.ruleAddition entry.name (.rejection reason))) ∧
    (Recording.reached? (policy.recorded resolve).result = none →
      ∃ e, policy.recorded resolve = ⟨[], .error ⟨e, none⟩⟩ ∧
        (policy.build resolve).result = .error e) :=
  ⟨fun _ _ => build_of_replay_eq_ok, fun _ _ _ => build_of_replay_eq_error, build_of_not_reached⟩

/-- An entry that repeats the default action, and one that is null. -/
def repeating : Policy where
  defaultAction := "SCMP_ACT_ALLOW"
  syscalls := [some { name := "read", action := "SCMP_ACT_ALLOW" }, none]

/-- The recording build ends on the null entry, and the build of a filter on the entry before. -/
theorem build_replays_recorded_repeating :
    let resolve : Resolver := .ofList [("read", 0)]
    (repeating.recorded resolve).result =
        .error ⟨.nullEntry, some ⟨.allow, [.setNoNewPrivs false, .addRule 0 .allow]⟩⟩ ∧
      ∃ i entry, repeating.Makes resolve i entry 2 ∧ (repeating.build resolve).result =
        .error (.ruleAddition entry.name (.rejection (.repeatsDefault 0))) := by
  intro resolve
  have hrecorded : (repeating.recorded resolve).result =
      .error ⟨.nullEntry, some ⟨.allow, [.setNoNewPrivs false, .addRule 0 .allow]⟩⟩ := by
    decide +kernel
  have hreached : Recording.reached? (repeating.recorded resolve).result =
      some ⟨.allow, [.setNoNewPrivs false, .addRule 0 .allow]⟩ := by
    rw [hrecorded]
    rfl
  have hreplay : Recording.replay ⟨.allow, [.setNoNewPrivs false, .addRule 0 .allow]⟩ =
      .error (2, .repeatsDefault 0) := by
    decide +kernel
  exact ⟨hrecorded, (build_replays_recorded resolve repeating).2.1 _ _ _ hreached hreplay⟩

end Policy

end SyscallPolicy
