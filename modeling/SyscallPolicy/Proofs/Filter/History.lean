import SyscallPolicy.Proofs.Policy.Calls

/-! Filters after any number of operations, some of which may have failed. Operations only add to a
filter, and those that fail on a single request add nothing. -/
namespace SyscallPolicy

/-- What is done to a filter: one request, one architecture given by name, or one entry of a
policy. -/
inductive Operation where
  | request (asked : Request) (purpose : Purpose)
  | architecture (name : String)
  | entry (resolve : Resolver) (entry : Option Entry)

/-- The filter that a run leaves behind, whether or not an error ended it. -/
def Halted.left : Except (Halted Filter) Filter → Filter
  | .ok filter => filter
  | .error halted => halted.reached

namespace Operation

def script : Operation → Script
  | request asked purpose => ⟨[.request asked purpose], none⟩
  | architecture name => .ofExcept (Policy.architectureSteps name)
  | entry resolve given => .ofExcept (Entry.steps resolve given)

def run (operation : Operation) (filter : Filter) : Except (Halted Filter) Filter :=
  (Filter.backend.run operation.script filter).result

/-- The filter after an operation. -/
def after (operation : Operation) (filter : Filter) : Filter := Halted.left (operation.run filter)

/-- The architecture that an operation asks a filter to cover. -/
def registers? : Operation → Option Architecture
  | request (.addArchitecture found) _ => some found
  | request _ _ => none
  | architecture name => Architecture.ofName? name
  | entry _ _ => none

/-- Whether an operation makes one request at most. -/
def isSingle : Operation → Bool
  | entry _ _ => false
  | _ => true

end Operation

/-- The filter after operations done one after the other, each on what the one before has left. -/
def Filter.afterAll (operations : List Operation) (filter : Filter) : Filter :=
  operations.foldl (fun filter operation => operation.after filter) filter

namespace Filter

/-- What an operation may change: it adds rules at the end that are sound, and architectures. -/
structure Extends (filter next : Filter) : Prop where
  verdict_eq : next.verdict = filter.verdict
  rules : filter.rules <+: next.rules
  architectures : filter.architectures <+: next.architectures
  sound : filter.Sound → next.Sound

theorem Extends.refl (filter : Filter) : filter.Extends filter :=
  ⟨rfl, List.prefix_rfl, List.prefix_rfl, id⟩

theorem Extends.trans {filter between next : Filter} (h : filter.Extends between)
    (h' : between.Extends next) : filter.Extends next :=
  ⟨h'.verdict_eq.trans h.verdict_eq, h.rules.trans h'.rules,
    h.architectures.trans h'.architectures, fun hs => h'.sound (h.sound hs)⟩

theorem addRule_extends {filter next : Filter} {rule : Rule}
    (h : filter.addRule rule = .ok next) : filter.Extends next := by
  have hsound : filter.Sound → next.Sound := fun hs => hs.addRule h
  obtain ⟨_, _, rfl⟩ := addRule_eq_ok h
  exact ⟨rfl, List.prefix_append _ _, List.prefix_rfl, hsound⟩

theorem apply_extends {filter next : Filter} {request : Request}
    (h : filter.apply request = .ok next) : filter.Extends next := by
  have hsound : filter.Sound → next.Sound := fun hs => hs.apply h
  cases request with
  | addArchitecture architecture =>
    cases h
    unfold addArchitecture at hsound ⊢
    by_cases hmem : architecture ∈ filter.architectures
    · rw [if_pos hmem]
      exact .refl filter
    · rw [if_neg hmem] at hsound ⊢
      exact ⟨rfl, List.prefix_rfl, List.prefix_append _ _, hsound⟩
  | setNoNewPrivs on =>
    cases h
    exact ⟨rfl, List.prefix_rfl, List.prefix_rfl, hsound⟩
  | addRule number verdict => exact addRule_extends h
  | addConditionalRule number verdict conditions =>
    simp only [Filter.apply] at h
    split at h
    · cases h
    · exact addRule_extends h

/-- What every accepted request keeps holds of the filter that a run leaves behind. -/
theorem left_perform {P : Filter → Prop} {steps : List Step}
    (hstep : ∀ request purpose, (request, purpose) ∈ asked steps →
      ∀ filter next : Filter, P filter → filter.apply request = .ok next → P next)
    {filter : Filter} (h : P filter) : P (Halted.left (backend.perform steps filter).result) := by
  induction steps generalizing filter with
  | nil => exact h
  | cons step steps ih =>
    cases step with
    | log event => exact ih hstep h
    | request request purpose =>
      have hrest : ∀ next : Filter, P next → P (Halted.left (backend.perform steps next).result) :=
        fun next => ih fun request purpose hmem =>
          hstep request purpose (List.mem_cons_of_mem _ hmem)
      cases happly : filter.apply request with
      | ok next =>
        simp only [Backend.perform, backend, happly]
        exact hrest next (hstep request purpose List.mem_cons_self filter next h happly)
      | error reason =>
        simp only [Backend.perform, backend, happly]
        exact h

theorem left_run {P : Filter → Prop} {script : Script}
    (hstep : ∀ request purpose, (request, purpose) ∈ asked script.steps →
      ∀ filter next : Filter, P filter → filter.apply request = .ok next → P next)
    {filter : Filter} (h : P filter) : P (Halted.left (backend.run script filter).result) := by
  have hleft := left_perform hstep h
  rw [Backend.run_result]
  cases hresult : (backend.perform script.steps filter).result with
  | error halted =>
    rw [hresult] at hleft
    exact hleft
  | ok next =>
    rw [hresult] at hleft
    cases script.fault <;> exact hleft

theorem after_extends (operation : Operation) (filter : Filter) :
    filter.Extends (operation.after filter) :=
  left_run (fun _ _ _ _ _ h happly => h.trans (apply_extends happly)) (.refl filter)

/-- A filter with the architectures in `registered`, asked for in that order. -/
def Covers (registered : List Architecture) (filter : Filter) : Prop :=
  filter.architectures = (Architecture.native :: registered).eraseDups

theorem Covers.addArchitecture {registered : List Architecture} {filter : Filter}
    (h : filter.Covers registered) (architecture : Architecture) :
    (filter.addArchitecture architecture).Covers (registered ++ [architecture]) := by
  have hmem : architecture ∈ filter.architectures ↔
      architecture ∈ Architecture.native :: registered := by
    rw [h, List.mem_eraseDups]
  unfold Covers
  rw [← List.cons_append, eraseDups_concat, ← h, Filter.addArchitecture]
  simp only [hmem]
  split <;> rfl

/-- The architectures that a filter covers change with the requests for them only. -/
theorem architectures_apply {filter next : Filter} {request : Request}
    (hrequest : ∀ architecture, request ≠ .addArchitecture architecture)
    (h : filter.apply request = .ok next) : next.architectures = filter.architectures := by
  cases request with
  | addArchitecture architecture => exact absurd rfl (hrequest architecture)
  | setNoNewPrivs on =>
    cases h
    rfl
  | addRule number verdict =>
    obtain ⟨_, _, rfl⟩ := addRule_eq_ok h
    rfl
  | addConditionalRule number verdict conditions =>
    simp only [Filter.apply] at h
    split at h
    · cases h
    · obtain ⟨_, _, rfl⟩ := addRule_eq_ok h
      rfl

end Filter

/-- An operation asks for one architecture and nothing else, or it asks for none. -/
theorem Operation.registers?_cases (operation : Operation) :
    (∃ architecture purpose, operation.registers? = some architecture ∧
      operation.script = ⟨[.request (.addArchitecture architecture) purpose], none⟩) ∨
    (operation.registers? = none ∧
      ∀ request purpose, (request, purpose) ∈ asked operation.script.steps →
        ∀ architecture, request ≠ .addArchitecture architecture) := by
  cases operation with
  | request request purpose =>
    cases request with
    | addArchitecture architecture => exact .inl ⟨architecture, purpose, rfl, rfl⟩
    | _ =>
      refine .inr ⟨rfl, fun request purpose hmem architecture heq => ?_⟩
      cases List.mem_singleton.mp hmem
      cases heq
  | architecture name =>
    simp only [script, registers?, Policy.architectureSteps, Architecture.ofName]
    cases Architecture.ofName? name with
    | none => exact .inr ⟨rfl, fun _ _ hmem => absurd hmem List.not_mem_nil⟩
    | some architecture => exact .inl ⟨architecture, _, rfl, rfl⟩
  | entry resolve entry =>
    refine .inr ⟨rfl, fun request purpose hmem architecture heq => ?_⟩
    simp only [script] at hmem
    cases hsteps : Entry.steps resolve entry with
    | error e =>
      rw [hsteps] at hmem
      cases hmem
    | ok steps =>
      rw [hsteps] at hmem
      obtain ⟨_, _, _, _, _, rfl | ⟨_, rfl⟩⟩ := Entry.of_asked_steps hsteps hmem
      · cases heq
      · cases heq

namespace Filter

theorem Covers.after {registered : List Architecture} {filter : Filter}
    (h : filter.Covers registered) (operation : Operation) :
    (operation.after filter).Covers (registered ++ operation.registers?.toList) := by
  rcases operation.registers?_cases with ⟨architecture, purpose, hregisters, hscript⟩ |
    ⟨hregisters, hnone⟩
  · rw [hregisters, Operation.after, Operation.run, hscript]
    exact h.addArchitecture architecture
  · have hsame : (operation.after filter).architectures = filter.architectures :=
      left_run (P := fun next => next.architectures = filter.architectures)
        (fun request purpose hmem _ _ hprevious happly =>
          (architectures_apply (hnone request purpose hmem) happly).trans hprevious) rfl
    rw [hregisters, Option.toList_none, List.append_nil, Covers, hsame]
    exact h

/-- A failing operation that makes one request at most leaves a filter as it is. -/
theorem reached_of_isSingle {operation : Operation} (hsingle : operation.isSingle = true)
    {filter : Filter} {halted : Halted Filter} (h : operation.run filter = .error halted) :
    halted.reached = filter := by
  cases operation with
  | request request purpose =>
    simp only [Operation.run, Operation.script, Backend.run_result, Backend.perform, backend] at h
    cases happly : filter.apply request with
    | ok next =>
      rw [happly] at h
      cases h
    | error reason =>
      rw [happly] at h
      cases h
      rfl
  | architecture name =>
    simp only [Operation.run, Operation.script, Policy.architectureSteps, Architecture.ofName] at h
    cases hname : Architecture.ofName? name with
    | none =>
      rw [hname] at h
      cases h
      rfl
    | some architecture =>
      rw [hname] at h
      cases h
  | entry resolve entry => cases hsingle

theorem afterAll_extends (operations : List Operation) (filter : Filter) :
    filter.Extends (filter.afterAll operations) := by
  induction operations generalizing filter with
  | nil => exact .refl filter
  | cons operation operations ih => exact (after_extends operation filter).trans (ih _)

theorem Covers.afterAll {registered : List Architecture} {filter : Filter}
    (h : filter.Covers registered) (operations : List Operation) :
    (filter.afterAll operations).Covers
      (registered ++ operations.filterMap Operation.registers?) := by
  induction operations generalizing registered filter with
  | nil =>
    rw [List.filterMap_nil, List.append_nil]
    exact h
  | cons operation operations ih =>
    have hcons : (operation :: operations).filterMap Operation.registers? =
        operation.registers?.toList ++ operations.filterMap Operation.registers? := by
      cases hregisters : operation.registers? <;> simp [hregisters]
    rw [hcons, ← List.append_assoc]
    exact ih (h.after operation)

/-- What holds of a filter that began with a default verdict and has been through operations,
whichever of them have failed. -/
structure Grown (verdict : Verdict) (operations : List Operation) (filter : Filter) : Prop where
  verdict_eq : filter.verdict = verdict
  number_nonneg : ∀ rule ∈ filter.rules, 0 ≤ rule.number
  verdict_ne : ∀ rule ∈ filter.rules, rule.verdict ≠ verdict
  /-- The native architecture, and the others in the order in which they were first asked for. -/
  architectures_eq : filter.architectures =
    (Architecture.native :: operations.filterMap Operation.registers?).eraseDups
  head?_architectures : filter.architectures.head? = some .native
  nodup_architectures : filter.architectures.Nodup
  rules_prefix : ∀ operation : Operation, filter.rules <+: (operation.after filter).rules
  architectures_prefix : ∀ operation : Operation,
    filter.architectures <+: (operation.after filter).architectures
  reached_eq : ∀ (operation : Operation) (halted : Halted Filter), operation.isSingle = true →
    operation.run filter = .error halted → halted.reached = filter

/-- Operations keep the default verdict, sound rules and the order of what a filter has, and one
that fails on a single request changes nothing. -/
theorem grown_afterAll (verdict : Verdict) (operations : List Operation) :
    Grown verdict operations (afterAll operations (.empty verdict)) := by
  have hextends := afterAll_extends operations (.empty verdict)
  have hverdict : (afterAll operations (.empty verdict)).verdict = verdict := hextends.verdict_eq
  have hsound := hextends.sound (Reachable.empty verdict).sound
  have hempty : (Filter.empty verdict).Covers [] := rfl
  have hcovers : (afterAll operations (.empty verdict)).architectures =
      (Architecture.native :: operations.filterMap Operation.registers?).eraseDups :=
    hempty.afterAll operations
  refine ⟨hverdict, hsound.number_nonneg, ?_, hcovers, ?_, ?_, ?_, ?_, ?_⟩
  · intro rule hrule
    rw [← hverdict]
    exact hsound.verdict_ne rule hrule
  · rw [hcovers, List.eraseDups_cons, List.head?_cons]
  · rw [hcovers]
    exact nodup_eraseDups _
  · exact fun operation => (after_extends operation _).rules
  · exact fun operation => (after_extends operation _).architectures
  · exact fun _ _ hsingle => reached_of_isSingle hsingle

end Filter

end SyscallPolicy
