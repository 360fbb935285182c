import SyscallPolicy.Proofs.Policy.Calls

/-! Entries for system calls that the resolver does not know are passed over: the calls that a build
makes to its target and what it ends with are those of the policy without them. -/
namespace SyscallPolicy

/-- Whether an entry has a name, and none that the resolver knows. -/
def Entry.isUnknown (resolve : Resolver) : Option Entry → Bool
  | none => false
  | some entry => entry.name ≠ "" ∧ resolve entry.name = none

theorem Entry.steps_of_isUnknown {resolve : Resolver} {entry : Option Entry}
    (h : isUnknown resolve entry = true) :
    ∃ event, steps resolve entry = .ok [.log event] := by
  cases entry with
  | none => cases h
  | some entry =>
    obtain ⟨hname, hresolve⟩ := of_decide_eq_true h
    exact ⟨.unknownSyscall entry.name, by simp only [steps, if_neg hname, hresolve]⟩

namespace Policy

/-- The policy without the entries whose names the resolver does not know. -/
def withoutUnknown (resolve : Resolver) (policy : Policy) : Policy :=
  { policy with syscalls := policy.syscalls.filter fun entry => !Entry.isUnknown resolve entry }

/-- The calls that a build makes to a target, the one that it refuses included. -/
def callsTo {β : Type} (backend : Backend β) (resolve : Resolver) (policy : Policy) : List Call :=
  match policy.defaultVerdict with
  | .error _ => []
  | .ok v =>
    .create v :: match backend.create v with
      | .ok state =>
        (backend.attempted ((asked (policy.script resolve v).steps).map (·.1)) state).map .request
      | .error _ => []

theorem calls_of_error {resolve : Resolver} {policy : Policy} {e : PolicyError}
    (h : policy.defaultVerdict = .error e) : policy.calls resolve = [] := by
  rw [calls, recorded, buildInto_eq_of_error _ h]
  rfl

/-- Into a recording target that refuses nothing, these are the calls recorded. -/
theorem callsTo_recording (resolve : Resolver) (policy : Policy) (cause : Cause) :
    policy.callsTo (Recording.backend none cause) resolve = policy.calls resolve := by
  unfold callsTo
  cases hdefault : policy.defaultVerdict with
  | error e => rw [calls_of_error hdefault]
  | ok v =>
    have hall : (Recording.backend none cause).applyAll
        ((asked (policy.script resolve v).steps).map (·.1)) ⟨v, []⟩ =
          .ok (policy.recording resolve v) := by
      refine Recording.applyAll_backend fun k hk => ?_
      cases hk
    have hcreate : (Recording.backend none cause).create v = .ok ⟨v, []⟩ := rfl
    simp only [hcreate, Backend.attempted_of_accepted hall, calls_eq hdefault, Recording.calls,
      recording]

/-- Into one that refuses call number `k`, they are the same up to that call. -/
theorem callsTo_refusing (resolve : Resolver) (policy : Policy) (k : Nat) (cause : Cause) :
    policy.callsTo (Recording.backend (some k) cause) resolve =
      (policy.calls resolve).take (k + 1) := by
  unfold callsTo
  cases hdefault : policy.defaultVerdict with
  | error e => rw [calls_of_error hdefault, List.take_nil]
  | ok v =>
    rw [calls_eq hdefault, Recording.calls, List.take_succ_cons, ← List.map_take]
    cases k with
    | zero => rfl
    | succ k =>
      have hcreate : (Recording.backend (some (k + 1)) cause).create v = .ok ⟨v, []⟩ := rfl
      have hfresh : (Recording.mk v []).requests.length < k + 1 := Nat.succ_pos k
      simp only [hcreate, Recording.attempted_backend hfresh, List.length_nil, Nat.sub_zero,
        recording]

theorem script_withoutUnknown (resolve : Resolver) (policy : Policy) (v : Verdict) :
    asked ((policy.withoutUnknown resolve).script resolve v).steps =
        asked (policy.script resolve v).steps ∧
      ((policy.withoutUnknown resolve).script resolve v).fault =
        (policy.script resolve v).fault := by
  have hskip : ∀ entry ∈ policy.syscalls, (!Entry.isUnknown resolve entry) = false →
      asked (Script.ofExcept (Entry.steps resolve entry)).steps = [] ∧
        (Script.ofExcept (Entry.steps resolve entry)).fault = none := by
    intro entry _ hunknown
    obtain ⟨event, hsteps⟩ := Entry.steps_of_isUnknown ((Bool.not_eq_false' ..).mp hunknown)
    rw [hsteps]
    exact ⟨rfl, rfl⟩
  obtain ⟨hasked, hfault⟩ := Script.sequence_filter hskip
  have hpreamble : (policy.withoutUnknown resolve).preamble = policy.preamble := rfl
  constructor
  · rw [asked_script, asked_script, hpreamble]
    simp only [entryScripts, withoutUnknown, hasked]
  · rw [fault_script, fault_script, hpreamble, ← Script.fault_sequence, ← Script.fault_sequence]
    simp only [entryScripts, withoutUnknown, hfault]

/-- Whatever the target, and wherever it refuses a call or an error ends the build, entries with
names that the resolver does not know have no part in it. -/
theorem build_withoutUnknown {β : Type} (backend : Backend β) (resolve : Resolver)
    (policy : Policy) :
    (policy.withoutUnknown resolve).callsTo backend resolve = policy.callsTo backend resolve ∧
      ((policy.withoutUnknown resolve).buildInto backend resolve).result =
        (policy.buildInto backend resolve).result ∧
      ((policy.withoutUnknown resolve).build resolve).result = (policy.build resolve).result := by
  have hdefault : (policy.withoutUnknown resolve).defaultVerdict = policy.defaultVerdict := rfl
  have hbuild {γ : Type} (target : Backend γ) :
      ((policy.withoutUnknown resolve).buildInto target resolve).result =
        (policy.buildInto target resolve).result := by
    simp only [buildInto, hdefault]
    cases policy.defaultVerdict with
    | error e => rfl
    | ok v =>
      obtain ⟨hasked, hfault⟩ := script_withoutUnknown resolve policy v
      cases hcreate : target.create v with
      | error cause => simp only [hcreate]; rfl
      | ok state => simp only [hcreate, target.run_result_congr hasked hfault state]
  refine ⟨?_, hbuild backend, ?_⟩
  · simp only [callsTo, hdefault, (script_withoutUnknown resolve policy _).1]
  · simp only [build, hbuild Filter.backend]

end Policy

end SyscallPolicy
