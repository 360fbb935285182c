import SyscallPolicy.Proofs.Policy.Construction
import SyscallPolicy.Proofs.Requests

/-! The calls that a build makes to its target: what each of them is for, and which error the build
ends with if it is refused. -/
namespace SyscallPolicy

/-- A call to a target. -/
inductive Call where
  | create (verdict : Verdict)
  | request (asked : Request)
  deriving DecidableEq, Repr

namespace Recording

/-- The calls to a recording target, its creation first. -/
def calls (recording : Recording) : List Call :=
  .create recording.verdict :: recording.requests.map .request

/-- What a build has recorded, whether or not an error ended it. -/
def reached? : Except (Halted (Option Recording)) Recording → Option Recording
  | .ok recording => some recording
  | .error halted => halted.reached

end Recording

namespace Entry
variable {resolve : Resolver}

/-- What keeps an entry from being translated, in the order in which it is looked for. No target has
a part in it. -/
def translationFaults (resolve : Resolver) : Option Entry → List PolicyError
  | none => [.nullEntry]
  | some entry =>
    (if entry.name = "" then [.emptySyscallName] else []) ++
    if resolve entry.name = none then []
    else
      (if entry.verdict? = none then [.inAction entry.name (.invalidAction entry.action)]
        else []) ++
      (entry.args.flatMap ArgCheck.faults).map (.inCondition entry.name)

theorem steps_eq_error {entry : Option Entry} {e : PolicyError}
    (h : (translationFaults resolve entry).head? = some e) : steps resolve entry = .error e := by
  cases entry with
  | none =>
    cases h
    rfl
  | some entry =>
    simp only [translationFaults] at h
    simp only [steps]
    by_cases hname : entry.name = ""
    · rw [if_pos hname] at h ⊢
      cases h
      rfl
    · rw [if_neg hname, List.nil_append] at h
      rw [if_neg hname]
      cases hresolve : resolve entry.name with
      | none =>
        rw [if_pos hresolve] at h
        cases h
      | some number =>
        rw [hresolve, if_neg (Option.some_ne_none _)] at h
        cases hverdict : entry.verdict? with
        | none =>
          rw [if_pos hverdict] at h
          cases h
          simp only [verdictOf_eq_error hverdict]
          rfl
        | some v =>
          rw [hverdict, if_neg (Option.some_ne_none _), List.nil_append, List.head?_map] at h
          obtain ⟨fault, hfault, rfl⟩ := Option.map_eq_some_iff.mp h
          simp only [verdictOf_eq_ok hverdict, ArgCheck.mapM_condition_eq_error hfault]
          rfl

theorem exists_steps {entry : Option Entry} (h : translationFaults resolve entry = []) :
    ∃ found, steps resolve entry = .ok found := by
  cases entry with
  | none => cases h
  | some entry =>
    rw [translationFaults, List.append_eq_nil_iff] at h
    obtain ⟨hname, hfaults⟩ := h
    have hne : entry.name ≠ "" := fun heq => by
      rw [if_pos heq] at hname
      cases hname
    simp only [steps, if_neg hne]
    cases hresolve : resolve entry.name with
    | none => exact ⟨_, rfl⟩
    | some number =>
      rw [hresolve, if_neg (Option.some_ne_none _), List.append_eq_nil_iff, List.map_eq_nil_iff]
        at hfaults
      obtain ⟨hverdict, hchecks⟩ := hfaults
      obtain ⟨v, hv⟩ : ∃ v, entry.verdict? = some v := by
        refine Option.ne_none_iff_exists'.mp fun hnone => ?_
        rw [if_pos hnone] at hverdict
        cases hverdict
      simp only [verdictOf_eq_ok hv, ArgCheck.mapM_condition_eq_ok hchecks]
      by_cases hempty : (ArgCheck.conditions entry.args).isEmpty
      · exact ⟨_, if_pos hempty⟩
      · exact ⟨_, if_neg hempty⟩

/-- Whatever an entry asks for is a rule, and it is for the entry. -/
theorem of_asked_steps {entry : Option Entry} {found : List Step} {request : Request}
    {purpose : Purpose} (h : steps resolve entry = .ok found)
    (hasked : (request, purpose) ∈ asked found) :
    ∃ e number verdict, entry = some e ∧ purpose = .entry e.name ∧
      (request = .addRule number verdict ∨
        ∃ conditions, request = .addConditionalRule number verdict conditions) := by
  cases entry with
  | none => cases h
  | some entry =>
    simp only [steps] at h
    by_cases hname : entry.name = ""
    · rw [if_pos hname] at h
      cases h
    rw [if_neg hname] at h
    cases hresolve : resolve entry.name with
    | none =>
      rw [hresolve] at h
      cases h
      cases hasked
    | some number =>
      simp only [hresolve, bind_eq_ok] at h
      obtain ⟨v, _, conditions, _, h⟩ := h
      split at h
      · cases h
        obtain ⟨rfl, rfl⟩ : request = .addRule number v ∧ purpose = .entry entry.name := by
          simpa [asked, Step.asked?] using hasked
        exact ⟨entry, number, v, rfl, rfl, .inl rfl⟩
      · cases h
        obtain ⟨group, _, rfl, rfl⟩ : ∃ group ∈ Combination.groups
            (conditions.map fun c => (c.argument, c)),
            request = .addConditionalRule number v group ∧ purpose = .entry entry.name := by
          simpa [asked, Step.asked?, List.filterMap_map, Function.comp_def, eq_comm] using hasked
        exact ⟨entry, number, v, rfl, rfl, .inr ⟨group, rfl⟩⟩

end Entry

namespace Policy

/-- The build into a target that records what it is asked. It refuses nothing, so no cause is ever
reported. -/
def recorded (resolve : Resolver) (policy : Policy) :
    Logged (Except (Halted (Option Recording)) Recording) :=
  policy.buildInto (Recording.backend none (.reported "" [])) resolve

/-- The calls that a build makes to a target that refuses nothing. -/
def calls (resolve : Resolver) (policy : Policy) : List Call :=
  (Recording.reached? (policy.recorded resolve).result).elim [] Recording.calls

/-- The policy with its first `i` entries only. -/
def upTo (i : Nat) (policy : Policy) : Policy := { policy with syscalls := policy.syscalls.take i }

/-- The entry at place `i` makes the call number `k`: that call is made when the entry is the last
one, and it is not when the entry and all that follow it are left out. -/
structure Makes (resolve : Resolver) (policy : Policy) (i : Nat) (entry : Entry) (k : Nat) :
    Prop where
  entry_eq : policy.syscalls[i]? = some (some entry)
  length_le : ((policy.upTo i).calls resolve).length ≤ k
  lt_length : k < ((policy.upTo (i + 1)).calls resolve).length

/-- The error of a build whose call number `k` is refused for the given cause. -/
inductive Refused (resolve : Resolver) (policy : Policy) (cause : Cause) :
    (k : Nat) → Call → PolicyError → Prop where
  | creation (verdict : Verdict) :
      Refused resolve policy cause 0 (.create verdict) (.filterCreation policy.defaultAction cause)
  | architecture {k : Nat} {name : String} {architecture : Architecture} :
      policy.architectures[k]? = some name → Architecture.ofName? name = some architecture →
      Refused resolve policy cause (k + 1) (.request (.addArchitecture architecture))
        (.architectureRegistration name cause)
  | noNewPrivs (k : Nat) (on : Bool) :
      Refused resolve policy cause k (.request (.setNoNewPrivs on)) (.noNewPrivs cause)
  | rule {i k : Nat} {entry : Entry} (number : Int) (verdict : Verdict) :
      policy.Makes resolve i entry k →
      Refused resolve policy cause k (.request (.addRule number verdict))
        (.ruleAddition entry.name cause)
  | conditionalRule {i k : Nat} {entry : Entry} (number : Int) (verdict : Verdict)
      (conditions : List Condition) :
      policy.Makes resolve i entry k →
      Refused resolve policy cause k (.request (.addConditionalRule number verdict conditions))
        (.ruleAddition entry.name cause)

section Parts

/-- The script for the architectures and the flag, before the entries. -/
def preamble (policy : Policy) : Script :=
  .sequence (policy.architectures.map (fun name => .ofExcept (architectureSteps name)) ++
    [⟨[.request (.setNoNewPrivs false) .noNewPrivs], none⟩])

/-- The scripts for the entries, one after the other. -/
def entryScripts (resolve : Resolver) (policy : Policy) : List Script :=
  policy.syscalls.map fun entry => .ofExcept (Entry.steps resolve entry)

variable {resolve : Resolver} {policy : Policy} {v : Verdict}

theorem script_eq : policy.script resolve v =
    policy.preamble.andThen ((Script.sequence (policy.entryScripts resolve)).andThen
      ⟨[.log (.built v policy.syscalls.length)], none⟩) := by
  simp only [script, Script.sequence_append, preamble, entryScripts, Script.andThen_assoc]
  rfl

theorem asked_script : asked (policy.script resolve v).steps = asked policy.preamble.steps ++
    if policy.preamble.fault = none then
      asked (Script.sequence (policy.entryScripts resolve)).steps else [] := by
  have hbuilt : asked [.log (.built v policy.syscalls.length)] = [] := rfl
  rw [script_eq, Script.asked_andThen, Script.asked_andThen, hbuilt, ite_self, List.append_nil]

theorem fault_script : (policy.script resolve v).fault =
    policy.preamble.fault.or ((policy.entryScripts resolve).findSome? (·.fault)) := by
  rw [script_eq, Script.fault_andThen, Script.fault_andThen, Script.fault_sequence, Option.or_none]

theorem entryScripts_upTo (i : Nat) :
    (policy.upTo i).entryScripts resolve = (policy.entryScripts resolve).take i :=
  List.map_take

theorem preamble_upTo (i : Nat) : (policy.upTo i).preamble = policy.preamble := rfl

end Parts

section Recorded
variable {resolve : Resolver} {policy : Policy} {v : Verdict}

/-- What a target has recorded when it has been asked all that a policy asks for. -/
def recording (resolve : Resolver) (policy : Policy) (v : Verdict) : Recording :=
  ⟨v, (asked (policy.script resolve v).steps).map (·.1)⟩

theorem buildInto_eq_of_error {β : Type} (backend : Backend β) {e : PolicyError}
    (h : policy.defaultVerdict = .error e) :
    policy.buildInto backend resolve = ⟨[], .error ⟨e, none⟩⟩ := by
  simp only [buildInto, h]

/-- A build into a recording target whose refusal, if any, comes too late. -/
theorem buildInto_recording {failAt : Option Nat} {cause : Cause}
    (h : policy.defaultVerdict = .ok v)
    (hlate : ∀ k ∈ failAt, (policy.recording resolve v).calls.length ≤ k) :
    policy.buildInto (Recording.backend failAt cause) resolve =
      ⟨(policy.script resolve v).steps.filterMap Step.event?,
        (policy.script resolve v).fault.elim (.ok (policy.recording resolve v))
          fun e => .error ⟨e, some (policy.recording resolve v)⟩⟩ := by
  have hcreate : (Recording.backend failAt cause).create v = .ok ⟨v, []⟩ := by
    refine if_neg fun heq => ?_
    have hle := hlate 0 heq
    simp [Recording.calls] at hle
  have hall : (Recording.backend failAt cause).applyAll
      ((asked (policy.script resolve v).steps).map (·.1)) ⟨v, []⟩ =
        .ok (policy.recording resolve v) := by
    refine Recording.applyAll_backend fun k hk => ?_
    have hle := hlate k hk
    simp only [Recording.calls, recording, List.length_cons, List.length_map] at hle
    simp only [List.length_nil, List.length_map]
    omega
  simp only [buildInto, h, hcreate, Backend.run_of_accepted hall]
  cases (policy.script resolve v).fault <;> rfl

theorem recorded_eq (h : policy.defaultVerdict = .ok v) :
    policy.recorded resolve =
      ⟨(policy.script resolve v).steps.filterMap Step.event?,
        (policy.script resolve v).fault.elim (.ok (policy.recording resolve v))
          fun e => .error ⟨e, some (policy.recording resolve v)⟩⟩ :=
  buildInto_recording h fun _ hk => nomatch hk

theorem reached?_recorded (h : policy.defaultVerdict = .ok v) :
    Recording.reached? (policy.recorded resolve).result = some (policy.recording resolve v) := by
  rw [recorded_eq h]
  cases (policy.script resolve v).fault <;> rfl

theorem calls_eq (h : policy.defaultVerdict = .ok v) :
    policy.calls resolve = (policy.recording resolve v).calls := by
  rw [calls, reached?_recorded h]
  rfl

theorem length_calls_upTo (h : policy.defaultVerdict = .ok v)
    (hfault : policy.preamble.fault = none) (i : Nat) :
    ((policy.upTo i).calls resolve).length = (asked policy.preamble.steps).length +
      (asked (Script.sequence ((policy.entryScripts resolve).take i)).steps).length + 1 := by
  have hdefault : (policy.upTo i).defaultVerdict = .ok v := h
  rw [calls_eq hdefault, Recording.calls, recording, asked_script, preamble_upTo, if_pos hfault,
    entryScripts_upTo]
  simp

end Recorded

section Purposes
variable {resolve : Resolver} {policy : Policy} {v : Verdict}

/-- The request for an architecture stands where the architecture does. -/
theorem of_asked_architectures {names : List String} {j : Nat} {request : Request}
    {purpose : Purpose}
    (h : (asked (Script.sequence
      (names.map fun name => .ofExcept (architectureSteps name))).steps)[j]? =
        some (request, purpose)) :
    ∃ name architecture, names[j]? = some name ∧ Architecture.ofName? name = some architecture ∧
      request = .addArchitecture architecture ∧ purpose = .architecture name := by
  induction names generalizing j with
  | nil => simp [Script.sequence, asked] at h
  | cons name names ih =>
    rw [List.map_cons, Script.sequence, Script.asked_andThen] at h
    cases hname : Architecture.ofName? name with
    | none =>
      have hsteps : architectureSteps name = .error (.invalidArchitecture name) := by
        simp only [architectureSteps, Architecture.ofName, hname]
        rfl
      simp [hsteps, Script.ofExcept, asked] at h
    | some architecture =>
      have hsteps : architectureSteps name =
          .ok [.request (.addArchitecture architecture) (.architecture name)] := by
        simp only [architectureSteps, Architecture.ofName, hname]
        rfl
      rw [hsteps] at h
      cases j with
      | zero =>
        cases h
        exact ⟨name, architecture, rfl, hname, rfl, rfl⟩
      | succ j => exact ih h

/-- A request before the entries is for an architecture or for the flag. -/
theorem of_asked_preamble {j : Nat} {request : Request} {purpose : Purpose}
    (h : (asked policy.preamble.steps)[j]? = some (request, purpose)) :
    (∃ name architecture, policy.architectures[j]? = some name ∧
      Architecture.ofName? name = some architecture ∧ request = .addArchitecture architecture ∧
        purpose = .architecture name) ∨
      request = .setNoNewPrivs false ∧ purpose = .noNewPrivs := by
  rw [preamble, Script.sequence_append, Script.asked_andThen] at h
  rcases Nat.lt_or_ge j (asked (Script.sequence
    (policy.architectures.map fun name => .ofExcept (architectureSteps name))).steps).length
    with hlt | hge
  · rw [List.getElem?_append_left hlt] at h
    exact .inl (of_asked_architectures h)
  · rw [List.getElem?_append_right hge] at h
    right
    have hmem := List.mem_of_getElem? h
    split at hmem
    · simpa [Script.sequence, Script.andThen, asked, Step.asked?] using hmem
    · cases hmem

/-- The purpose of a request decides the error that its refusal ends a build with. -/
theorem refused_of_asked (hdefault : policy.defaultVerdict = .ok v) {j : Nat} {request : Request}
    {purpose : Purpose} (h : (asked (policy.script resolve v).steps)[j]? = some (request, purpose))
    (cause : Cause) :
    policy.Refused resolve cause (j + 1) (.request request) (purpose.refused cause) := by
  rw [asked_script] at h
  rcases Nat.lt_or_ge j (asked policy.preamble.steps).length with hlt | hge
  · rw [List.getElem?_append_left hlt] at h
    rcases of_asked_preamble h with ⟨name, architecture, hname, hfound, rfl, rfl⟩ | ⟨rfl, rfl⟩
    · exact .architecture hname hfound
    · exact .noNewPrivs _ _
  · rw [List.getElem?_append_right hge] at h
    split at h
    · next hfault =>
      obtain ⟨i, script, hscript, hmem, hle, hlt⟩ := Script.exists_script_of_asked h
      rw [entryScripts, List.getElem?_map, Option.map_eq_some_iff] at hscript
      obtain ⟨entry, hentry, rfl⟩ := hscript
      cases hsteps : Entry.steps resolve entry with
      | error e =>
        rw [hsteps] at hmem
        cases hmem
      | ok found =>
        rw [hsteps] at hmem
        obtain ⟨e, number, verdict, rfl, rfl, hrequest⟩ := Entry.of_asked_steps hsteps hmem
        have hmakes : policy.Makes resolve i e (j + 1) := by
          refine ⟨hentry, ?_, ?_⟩
          · rw [length_calls_upTo hdefault hfault]
            omega
          · rw [length_calls_upTo hdefault hfault]
            omega
        rcases hrequest with rfl | ⟨conditions, rfl⟩
        · exact .rule number verdict hmakes
        · exact .conditionalRule number verdict conditions hmakes
    · cases h

end Purposes

end Policy

end SyscallPolicy
