import SyscallPolicy.Proofs.Filter.Reachable
import SyscallPolicy.Proofs.Lists
import SyscallPolicy.Script

/-! Scripts run one after the other, and what a script makes of a filter: it ends with an error, or
it adds rules. -/
namespace SyscallPolicy

section Runs
variable {β : Type}

theorem Backend.perform_append (backend : Backend β) (first second : List Step) (state : β) :
    (backend.perform (first ++ second) state).result =
      (backend.perform first state).result >>= fun next =>
        (backend.perform second next).result := by
  induction first generalizing state with
  | nil => rfl
  | cons step first ih =>
    cases step with
    | log event => exact ih state
    | request request purpose =>
      simp only [List.cons_append, perform]
      cases backend.apply request state with
      | ok next => exact ih next
      | error cause => rfl

theorem Backend.run_result (backend : Backend β) (script : Script) (state : β) :
    (backend.run script state).result =
      (backend.perform script.steps state).result >>= fun next =>
        script.fault.elim (.ok next) fun e => .error ⟨e, next⟩ := by
  cases hresult : (backend.perform script.steps state).result with
  | error halted =>
    simp only [run, hresult]
    rfl
  | ok next =>
    cases hfault : script.fault with
    | none =>
      simp only [run, hresult, hfault]
      rfl
    | some e =>
      simp only [run, hresult, hfault]
      rfl

theorem Backend.run_andThen (backend : Backend β) (first second : Script) (state : β) :
    (backend.run (first.andThen second) state).result =
      (backend.run first state).result >>= fun next => (backend.run second next).result := by
  unfold Script.andThen
  cases hfault : first.fault with
  | some e =>
    simp only [run_result, hfault, Option.elim_some]
    cases (backend.perform first.steps state).result <;> rfl
  | none =>
    simp only [run_result, perform_append, hfault, Option.elim_none]
    cases (backend.perform first.steps state).result <;> rfl

theorem Script.andThen_assoc (first second third : Script) :
    (first.andThen second).andThen third = first.andThen (second.andThen third) := by
  cases hfirst : first.fault with
  | some e => simp only [andThen, hfirst]
  | none =>
    cases hsecond : second.fault with
    | some e => simp only [andThen, hfirst, hsecond]
    | none => simp only [andThen, hfirst, hsecond, List.append_assoc]

theorem Script.sequence_append (first second : List Script) :
    sequence (first ++ second) = (sequence first).andThen (sequence second) := by
  induction first with
  | nil => rfl
  | cons script first ih => rw [List.cons_append, sequence, sequence, ih, andThen_assoc]

end Runs

namespace Filter

/-- A filter that a run ends with has been reached by requests. -/
theorem Reachable.perform {filter next : Filter} (hr : filter.Reachable) {steps : List Step}
    (h : (backend.perform steps filter).result = .ok next) : next.Reachable := by
  induction steps generalizing filter with
  | nil =>
    cases h
    exact hr
  | cons step steps ih =>
    cases step with
    | log event => exact ih hr h
    | request request purpose =>
      simp only [Backend.perform, backend] at h
      cases happly : filter.apply request with
      | error reason =>
        rw [happly] at h
        cases h
      | ok between =>
        rw [happly] at h
        exact ih (hr.apply request happly) h

theorem Reachable.run {filter next : Filter} (hr : filter.Reachable) {script : Script}
    (h : (backend.run script filter).result = .ok next) : next.Reachable := by
  rw [Backend.run_result, bind_eq_ok] at h
  obtain ⟨between, hperform, hfault⟩ := h
  have hbetween := hr.perform hperform
  cases hscript : script.fault with
  | some e =>
    rw [hscript] at hfault
    cases hfault
  | none =>
    rw [hscript] at hfault
    cases hfault
    exact hbetween

end Filter

namespace Script

/-- What a script makes of any filter with the given default verdict: it ends with a fault if it
has one, and else adds rules. -/
structure Yields (verdict : Verdict) (script : Script) (fault : Option PolicyError)
    (rules : List Rule) : Prop where
  ok : fault = none → ∀ filter : Filter, filter.verdict = verdict →
    ∃ next, (Filter.backend.run script filter).result = .ok next ∧ next.verdict = verdict ∧
      next.rules = filter.rules ++ rules
  error : ∀ e, fault = some e → ∀ filter : Filter, filter.verdict = verdict →
    ∃ reached, (Filter.backend.run script filter).result = .error ⟨e, reached⟩

variable {verdict : Verdict}

section Faults
variable {script : Script} {fault : Option PolicyError} {rules : List Rule} {filter : Filter}

/-- A run that goes through shows that there is no fault. -/
theorem Yields.fault_eq_none (h : Yields verdict script fault rules)
    (hverdict : filter.verdict = verdict) {next : Filter}
    (hrun : (Filter.backend.run script filter).result = .ok next) : fault = none := by
  cases fault with
  | none => rfl
  | some e =>
    obtain ⟨reached, herror⟩ := h.error e rfl filter hverdict
    rw [herror] at hrun
    cases hrun

/-- A run that ends with an error ends with the fault. -/
theorem Yields.fault_eq_some (h : Yields verdict script fault rules)
    (hverdict : filter.verdict = verdict) {halted : Halted Filter}
    (hrun : (Filter.backend.run script filter).result = .error halted) :
    fault = some halted.error := by
  cases fault with
  | none =>
    obtain ⟨next, hok, -⟩ := h.ok rfl filter hverdict
    rw [hok] at hrun
    cases hrun
  | some e =>
    obtain ⟨reached, herror⟩ := h.error e rfl filter hverdict
    rw [herror] at hrun
    cases hrun
    rfl

end Faults

theorem yields_empty : Yields verdict {} none [] where
  ok _ filter hverdict := ⟨filter, rfl, hverdict, (List.append_nil _).symm⟩
  error _ h := nomatch h

theorem yields_error (e : PolicyError) (rules : List Rule) :
    Yields verdict (ofExcept (.error e)) (some e) rules where
  ok h := nomatch h
  error _ h filter _ := by
    cases h
    exact ⟨filter, rfl⟩

theorem yields_log (event : Event) : Yields verdict ⟨[.log event], none⟩ none [] where
  ok _ filter hverdict := ⟨filter, rfl, hverdict, (List.append_nil _).symm⟩
  error _ h := nomatch h

theorem Yields.andThen {first second : Script} {fault fault' : Option PolicyError}
    {rules rules' : List Rule} (hfirst : Yields verdict first fault rules)
    (hsecond : Yields verdict second fault' rules') :
    Yields verdict (first.andThen second) (fault.or fault') (rules ++ rules') where
  ok hfault filter hverdict := by
    rw [Option.or_eq_none_iff] at hfault
    obtain ⟨between, hrun, hbetween, hrules⟩ := hfirst.ok hfault.1 filter hverdict
    obtain ⟨next, hrun', hnext, hrules'⟩ := hsecond.ok hfault.2 between hbetween
    refine ⟨next, ?_, hnext, by rw [hrules', hrules, List.append_assoc]⟩
    rw [Backend.run_andThen, hrun]
    exact hrun'
  error e hfault filter hverdict := by
    rw [Backend.run_andThen]
    cases fault with
    | some e' =>
      obtain ⟨reached, hrun⟩ := hfirst.error e' rfl filter hverdict
      cases hfault
      exact ⟨reached, by rw [hrun]; rfl⟩
    | none =>
      obtain ⟨between, hrun, hbetween, _⟩ := hfirst.ok rfl filter hverdict
      obtain ⟨reached, hrun'⟩ := hsecond.error e hfault between hbetween
      exact ⟨reached, by rw [hrun]; exact hrun'⟩

/-- Scripts for the items of a list add the rules of all items, up to the first fault. -/
theorem yields_sequence {ι : Type} {items : List ι} {script : ι → Script}
    {fault : ι → Option PolicyError} {rules : ι → List Rule}
    (h : ∀ item ∈ items, Yields verdict (script item) (fault item) (rules item)) :
    Yields verdict (sequence (items.map script)) (items.findSome? fault)
      (items.flatMap rules) := by
  induction items with
  | nil => exact yields_empty
  | cons item items ih =>
    have hitem := h item List.mem_cons_self
    have hitems := ih fun other hother => h other (List.mem_cons_of_mem item hother)
    rw [List.findSome?_cons, List.flatMap_cons]
    have hthen := hitem.andThen hitems
    cases hfault : fault item with
    | none => rwa [hfault, Option.none_or] at hthen
    | some e => rwa [hfault, Option.some_or] at hthen

/-- A request that changes neither the default verdict nor the rules. -/
theorem yields_request {request : Request} (purpose : Purpose)
    (h : ∀ filter : Filter, ∃ next, filter.apply request = .ok next ∧
      next.verdict = filter.verdict ∧ next.rules = filter.rules) :
    Yields verdict ⟨[.request request purpose], none⟩ none [] where
  ok _ filter hverdict := by
    obtain ⟨next, happly, hnext, hrules⟩ := h filter
    refine ⟨next, ?_, hnext.trans hverdict, by rw [hrules, List.append_nil]⟩
    simp only [Backend.run_result, Backend.perform, Filter.backend, happly]
    rfl
  error _ h := nomatch h

end Script

/-- Why a filter with the given default verdict refuses a rule. -/
def Rule.rejection? (verdict : Verdict) (rule : Rule) : Option Rejection :=
  (if rule.number < 0 then some (.negativeNumber rule.number) else none).or
    (if rule.verdict = verdict then some (.repeatsDefault rule.number) else none)

theorem Filter.addRule_eq (filter : Filter) (rule : Rule) :
    filter.addRule rule = (rule.rejection? filter.verdict).elim
      (.ok { filter with rules := filter.rules ++ [rule] }) .error := by
  unfold addRule Rule.rejection?
  by_cases hnumber : rule.number < 0
  · simp only [if_pos hnumber, Option.some_or, Option.elim_some]
  · by_cases hverdict : rule.verdict = filter.verdict
    · simp only [if_neg hnumber, if_pos hverdict, Option.none_or, Option.elim_some]
    · simp only [if_neg hnumber, if_neg hverdict, Option.none_or, Option.elim_none]

/-- A request for a rule adds it unless the filter refuses it. -/
theorem Script.yields_rule {verdict : Verdict} {request : Request} {rule : Rule}
    (happly : ∀ filter : Filter, filter.apply request = filter.addRule rule) (purpose : Purpose) :
    Script.Yields verdict ⟨[.request request purpose], none⟩
      ((rule.rejection? verdict).map fun reason => purpose.refused (.rejection reason)) [rule] where
  ok hfault filter hverdict := by
    rw [Option.map_eq_none_iff] at hfault
    refine ⟨{ filter with rules := filter.rules ++ [rule] }, ?_, hverdict, rfl⟩
    simp only [Backend.run_result, Backend.perform, Filter.backend, happly, Filter.addRule_eq,
      hverdict, hfault]
    rfl
  error e hfault filter hverdict := by
    rw [Option.map_eq_some_iff] at hfault
    obtain ⟨reason, hreason, rfl⟩ := hfault
    refine ⟨filter, ?_⟩
    simp only [Backend.run_result, Backend.perform, Filter.backend, happly, Filter.addRule_eq,
      hverdict, hreason]
    rfl

end SyscallPolicy
