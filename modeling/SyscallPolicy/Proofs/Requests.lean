import SyscallPolicy.Proofs.Script

/-! What a script asks of a target. A target that accepts all requests has been asked each of them
in order, and the first that it refuses is the last one. -/
namespace SyscallPolicy

/-- The request of a step, with what it is for. -/
def Step.asked? : Step → Option (Request × Purpose)
  | request asked purpose => some (asked, purpose)
  | log _ => none

def Step.event? : Step → Option Event
  | request _ _ => none
  | log event => some event

/-- The requests among steps, each with what it is for. -/
def asked (steps : List Step) : List (Request × Purpose) := steps.filterMap Step.asked?

/-- Makes requests of a target, up to the first that it refuses. -/
def Backend.applyAll {β : Type} (backend : Backend β) (requests : List Request) (state : β) :
    Except Cause β :=
  requests.foldlM (fun state request => backend.apply request state) state

section Runs
variable {β : Type} {backend : Backend β} {state next reached : β}

theorem Backend.applyAll_cons_eq_ok {request : Request} {requests : List Request} :
    backend.applyAll (request :: requests) state = .ok next ↔
      ∃ between, backend.apply request state = .ok between ∧
        backend.applyAll requests between = .ok next := by
  rw [applyAll, List.foldlM_cons, bind_eq_ok]
  rfl

theorem asked_append (first second : List Step) :
    asked (first ++ second) = asked first ++ asked second :=
  List.filterMap_append

/-- A run in which every request is accepted logs all events. -/
theorem Backend.perform_of_accepted {steps : List Step}
    (h : backend.applyAll ((asked steps).map (·.1)) state = .ok next) :
    backend.perform steps state = ⟨steps.filterMap Step.event?, .ok next⟩ := by
  induction steps generalizing state with
  | nil =>
    cases h
    rfl
  | cons step steps ih =>
    cases step with
    | log event => simp only [perform, ih h, List.filterMap_cons, Step.event?]
    | request request purpose =>
      obtain ⟨between, happly, hrest⟩ := applyAll_cons_eq_ok.mp h
      simp only [perform, happly, ih hrest, List.filterMap_cons, Step.event?]

/-- The first request that is refused ends a run, and its purpose decides the error. -/
theorem Backend.perform_of_refused {steps : List Step} {before after : List (Request × Purpose)}
    {request : Request} {purpose : Purpose} {cause : Cause}
    (hasked : asked steps = before ++ (request, purpose) :: after)
    (hbefore : backend.applyAll (before.map (·.1)) state = .ok reached)
    (hrefused : backend.apply request reached = .error cause) :
    (backend.perform steps state).result = .error ⟨purpose.refused cause, reached⟩ := by
  induction steps generalizing state before with
  | nil => simp [asked] at hasked
  | cons step steps ih =>
    cases step with
    | log event => exact ih hasked hbefore
    | request request' purpose' =>
      have hcons : (request', purpose') :: asked steps = before ++ (request, purpose) :: after :=
        hasked
      cases before with
      | nil =>
        cases hcons
        cases hbefore
        simp only [perform, hrefused]
      | cons first before =>
        obtain ⟨rfl, hrest⟩ := List.cons.inj hcons
        obtain ⟨between, happly, hbetween⟩ := applyAll_cons_eq_ok.mp hbefore
        simp only [perform, happly]
        exact ih hrest hbetween

theorem Backend.run_of_accepted {script : Script}
    (h : backend.applyAll ((asked script.steps).map (·.1)) state = .ok next) :
    backend.run script state = ⟨script.steps.filterMap Step.event?,
      script.fault.elim (.ok next) fun e => .error ⟨e, next⟩⟩ := by
  cases hfault : script.fault with
  | none => simp only [run, perform_of_accepted h, hfault, Option.elim_none]
  | some e => simp only [run, perform_of_accepted h, hfault, Option.elim_some]

theorem Backend.run_of_refused {script : Script} {before after : List (Request × Purpose)}
    {request : Request} {purpose : Purpose} {cause : Cause}
    (hasked : asked script.steps = before ++ (request, purpose) :: after)
    (hbefore : backend.applyAll (before.map (·.1)) state = .ok reached)
    (hrefused : backend.apply request reached = .error cause) :
    (backend.run script state).result = .error ⟨purpose.refused cause, reached⟩ := by
  rw [run_result, perform_of_refused hasked hbefore hrefused]
  rfl

/-- The requests that a target is asked in a row, up to the first that it refuses. -/
def Backend.attempted (backend : Backend β) : List Request → β → List Request
  | [], _ => []
  | request :: requests, state =>
    request :: match backend.apply request state with
      | .ok next => backend.attempted requests next
      | .error _ => []

theorem Backend.attempted_of_accepted {requests : List Request}
    (h : backend.applyAll requests state = .ok next) :
    backend.attempted requests state = requests := by
  induction requests generalizing state with
  | nil => rfl
  | cons request requests ih =>
    obtain ⟨between, happly, hrest⟩ := applyAll_cons_eq_ok.mp h
    simp only [attempted, happly, ih hrest]

/-- A run makes all requests of its steps, or it ends with the first that is refused. -/
theorem Backend.perform_cases (backend : Backend β) (steps : List Step) (state : β) :
    (∃ next, backend.applyAll ((asked steps).map (·.1)) state = .ok next ∧
      (backend.perform steps state).result = .ok next) ∨
    ∃ before request purpose after reached cause,
      asked steps = before ++ (request, purpose) :: after ∧
      backend.applyAll (before.map (·.1)) state = .ok reached ∧
      backend.apply request reached = .error cause ∧
      backend.attempted ((asked steps).map (·.1)) state = before.map (·.1) ++ [request] ∧
      (backend.perform steps state).result = .error ⟨purpose.refused cause, reached⟩ := by
  induction steps generalizing state with
  | nil => exact .inl ⟨state, rfl, rfl⟩
  | cons step steps ih =>
    cases step with
    | log event => exact ih state
    | request request purpose =>
      have hasked : asked (.request request purpose :: steps) = (request, purpose) :: asked steps :=
        rfl
      simp only [hasked, List.map_cons, perform, attempted]
      cases happly : backend.apply request state with
      | error cause =>
        exact .inr ⟨[], request, purpose, _, state, cause, rfl, rfl, happly, rfl, rfl⟩
      | ok between =>
        rcases ih between with ⟨next, hall, hresult⟩ |
          ⟨before, last, purpose', after, reached, cause, hasked', hbefore, hlast, hmade, hresult⟩
        · exact .inl ⟨next, applyAll_cons_eq_ok.mpr ⟨between, happly, hall⟩, hresult⟩
        · refine .inr ⟨(request, purpose) :: before, last, purpose', after, reached, cause,
            by rw [hasked', List.cons_append], ?_, hlast, ?_, hresult⟩
          · exact applyAll_cons_eq_ok.mpr ⟨between, happly, hbefore⟩
          · simp only [hmade, List.map_cons, List.cons_append]

/-- What a run ends with does not depend on what is logged on the way. -/
theorem Backend.run_result_congr (backend : Backend β) {script script' : Script}
    (hasked : asked script.steps = asked script'.steps) (hfault : script.fault = script'.fault)
    (state : β) : (backend.run script state).result = (backend.run script' state).result := by
  have hperform : (backend.perform script.steps state).result =
      (backend.perform script'.steps state).result := by
    rcases backend.perform_cases script'.steps state with ⟨next, hall, hresult⟩ |
      ⟨_, _, _, _, _, _, hsplit, hbefore, hrefused, _, hresult⟩
    · rw [← hasked] at hall
      rw [hresult, perform_of_accepted hall]
    · rw [hresult, perform_of_refused (hasked.trans hsplit) hbefore hrefused]
  rw [run_result, run_result, hperform, hfault]

end Runs

namespace Script

theorem asked_andThen (first second : Script) :
    asked (first.andThen second).steps =
      asked first.steps ++ if first.fault = none then asked second.steps else [] := by
  unfold andThen
  cases first.fault with
  | some e => simp
  | none => simp [asked_append]

theorem fault_andThen (first second : Script) :
    (first.andThen second).fault = first.fault.or second.fault := by
  unfold andThen
  cases hfault : first.fault with
  | some e => simp [hfault]
  | none => simp

theorem fault_sequence (scripts : List Script) :
    (sequence scripts).fault = scripts.findSome? (·.fault) := by
  induction scripts with
  | nil => rfl
  | cons script scripts ih =>
    rw [sequence, fault_andThen, ih, List.findSome?_cons]
    cases script.fault <;> rfl

/-- Scripts that ask for nothing and end without an error can be left out of a sequence. -/
theorem sequence_filter {ι : Type} {items : List ι} {script : ι → Script} {p : ι → Bool}
    (h : ∀ item ∈ items, p item = false →
      asked (script item).steps = [] ∧ (script item).fault = none) :
    asked (sequence ((items.filter p).map script)).steps =
        asked (sequence (items.map script)).steps ∧
      (sequence ((items.filter p).map script)).fault = (sequence (items.map script)).fault := by
  induction items with
  | nil => exact ⟨rfl, rfl⟩
  | cons item items ih =>
    obtain ⟨hasked, hfault⟩ := ih fun other hother => h other (List.mem_cons_of_mem item hother)
    cases hp : p item with
    | true =>
      simp only [List.filter_cons_of_pos hp, List.map_cons, sequence, asked_andThen, fault_andThen,
        hasked, hfault, and_self]
    | false =>
      obtain ⟨hnone, hclean⟩ := h item List.mem_cons_self hp
      rw [List.filter_cons_of_neg (by simp [hp]), List.map_cons, sequence, asked_andThen,
        fault_andThen, hnone, hclean, if_pos rfl, List.nil_append, Option.none_or]
      exact ⟨hasked, hfault⟩

/-- A request in a sequence comes from one of its scripts, the one that it is counted in with. -/
theorem exists_script_of_asked {scripts : List Script} {j : Nat} {request : Request × Purpose}
    (h : (asked (sequence scripts).steps)[j]? = some request) :
    ∃ i script, scripts[i]? = some script ∧ request ∈ asked script.steps ∧
      (asked (sequence (scripts.take i)).steps).length ≤ j ∧
      j < (asked (sequence (scripts.take (i + 1))).steps).length := by
  induction scripts generalizing j with
  | nil => simp [sequence, asked] at h
  | cons script scripts ih =>
    rw [sequence, asked_andThen] at h
    by_cases hj : j < (asked script.steps).length
    · rw [List.getElem?_append_left hj] at h
      refine ⟨0, script, rfl, List.mem_of_getElem? h, Nat.zero_le _, ?_⟩
      simp only [List.take_succ_cons, sequence, asked_andThen, List.length_append]
      omega
    · rw [List.getElem?_append_right (Nat.not_lt.mp hj)] at h
      split at h
      · next hfault =>
        obtain ⟨i, found, hget, hmem, hle, hlt⟩ := ih h
        refine ⟨i + 1, found, hget, hmem, ?_, ?_⟩
        · simp only [List.take_succ_cons, sequence, asked_andThen, hfault, if_true,
            List.length_append]
          omega
        · simp only [List.take_succ_cons (i := i + 1), sequence, asked_andThen, hfault, if_true,
            List.length_append]
          omega
      · cases h

end Script

namespace Recording

/-- A recording target that refuses a later call, if any, has recorded all requests. -/
theorem applyAll_backend {failAt : Option Nat} {cause : Cause} {recording : Recording}
    {requests : List Request}
    (h : ∀ k ∈ failAt, recording.requests.length + requests.length < k) :
    (backend failAt cause).applyAll requests recording =
      .ok { recording with requests := recording.requests ++ requests } := by
  induction requests generalizing recording with
  | nil =>
    rw [List.append_nil]
    rfl
  | cons request requests ih =>
    have hnext : failAt ≠ some (recording.requests.length + 1) := by
      intro heq
      have hlt := h _ heq
      rw [List.length_cons] at hlt
      omega
    refine Backend.applyAll_cons_eq_ok.mpr ⟨_, if_neg hnext, ?_⟩
    rw [ih]
    · rw [List.append_assoc, List.singleton_append]
    · intro k hk
      have hlt := h k hk
      simp only [List.length_append, List.length_cons, List.length_nil] at hlt ⊢
      omega

/-- A recording target that refuses a call is asked that call last. -/
theorem attempted_backend {k : Nat} {cause : Cause} {recording : Recording}
    {requests : List Request} (h : recording.requests.length < k) :
    (backend (some k) cause).attempted requests recording =
      requests.take (k - recording.requests.length) := by
  induction requests generalizing recording with
  | nil => rw [List.take_nil, Backend.attempted]
  | cons request requests ih =>
    have hroom : k - recording.requests.length = k - (recording.requests.length + 1) + 1 := by
      omega
    rw [hroom, List.take_succ_cons, Backend.attempted]
    by_cases hrefused : k = recording.requests.length + 1
    · have happly : (backend (some k) cause).apply request recording = .error cause :=
        if_pos (congrArg some hrefused)
      rw [happly, hrefused, Nat.sub_self, List.take_zero]
    · have happly : (backend (some k) cause).apply request recording =
          .ok { recording with requests := recording.requests ++ [request] } :=
        if_neg fun heq => hrefused (Option.some.inj heq)
      have hlength : (recording.requests ++ [request]).length = recording.requests.length + 1 :=
        List.length_append
      simp only [happly]
      rw [ih (by rw [hlength]; omega), hlength]

end Recording

end SyscallPolicy
