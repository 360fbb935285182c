import SyscallPolicy.Proofs.Policy.Calls

/-! Builds that end early: a target that refuses a call has been asked all that comes before it, and
an entry that cannot be translated ends a build where the entries before it do. -/
namespace SyscallPolicy

theorem Script.asked_sequence_append {before : List Script}
    (h : ∀ script ∈ before, script.fault = none) (after : List Script) :
    asked (sequence (before ++ after)).steps =
      asked (sequence before).steps ++ asked (sequence after).steps := by
  have hfault : (sequence before).fault = none := by
    rw [fault_sequence, List.findSome?_eq_none_iff]
    exact h
  rw [sequence_append, asked_andThen, if_pos hfault]

theorem Entry.fault_ofExcept_steps {resolve : Resolver} {entry : Option Entry} :
    (Script.ofExcept (steps resolve entry)).fault = (translationFaults resolve entry).head? := by
  cases hfaults : translationFaults resolve entry with
  | nil =>
    obtain ⟨found, hfound⟩ := exists_steps hfaults
    rw [hfound]
    rfl
  | cons e rest =>
    have hhead : (translationFaults resolve entry).head? = some e := by rw [hfaults]; rfl
    rw [steps_eq_error hhead]
    rfl

namespace Policy

/-- The first entry that cannot be translated is at place `i`, and nothing before the entries is
wrong. -/
structure StopsAt (resolve : Resolver) (policy : Policy) (i : Nat) (e : PolicyError) : Prop where
  default_known : policy.defaultVerdict? ≠ none
  architectures_known : ∀ name ∈ policy.architectures, Architecture.ofName? name ≠ none
  before : ∀ entry ∈ policy.syscalls.take i, Entry.translationFaults resolve entry = []
  entry : ∃ entry, policy.syscalls[i]? = some entry ∧
    (Entry.translationFaults resolve entry).head? = some e

variable {resolve : Resolver} {policy : Policy}

theorem fault_architectureSteps (name : String) :
    (Script.ofExcept (architectureSteps name)).fault = (architectureFaults name).head? := by
  simp only [architectureSteps, Architecture.ofName, architectureFaults]
  cases Architecture.ofName? name <;> rfl

theorem fault_preamble : policy.preamble.fault =
    policy.architectures.findSome? fun name => (architectureFaults name).head? := by
  rw [preamble, Script.fault_sequence, List.findSome?_append, List.findSome?_map]
  simp only [Function.comp_def, fault_architectureSteps]
  simp

theorem fault_preamble_eq_none_iff : policy.preamble.fault = none ↔
    ∀ name ∈ policy.architectures, Architecture.ofName? name ≠ none := by
  have hname : ∀ name, (architectureFaults name).head? = none ↔
      Architecture.ofName? name ≠ none := by
    intro name
    unfold architectureFaults
    cases Architecture.ofName? name <;> simp
  rw [fault_preamble, List.findSome?_eq_none_iff]
  simp only [hname]

theorem findSome?_entryScripts : (policy.entryScripts resolve).findSome? (·.fault) =
    policy.syscalls.findSome? fun entry => (Entry.translationFaults resolve entry).head? := by
  rw [entryScripts, List.findSome?_map]
  simp only [Function.comp_def, Entry.fault_ofExcept_steps]

theorem StopsAt.recording_eq {i : Nat} {e : PolicyError} (h : policy.StopsAt resolve i e)
    (v : Verdict) : policy.recording resolve v = (policy.upTo i).recording resolve v := by
  obtain ⟨entry, hentry, hfault⟩ := h.entry
  have hscript : (policy.entryScripts resolve)[i]? = some ⟨[], some e⟩ := by
    rw [entryScripts, List.getElem?_map, hentry, Option.map_some, Entry.steps_eq_error hfault]
    rfl
  have hbefore : ∀ script ∈ (policy.entryScripts resolve).take i, script.fault = none := by
    intro script hmem
    rw [entryScripts, ← List.map_take] at hmem
    obtain ⟨entry, hentry, rfl⟩ := List.mem_map.mp hmem
    rw [Entry.fault_ofExcept_steps, h.before entry hentry]
    rfl
  have hasked : asked (Script.sequence (policy.entryScripts resolve)).steps =
      asked (Script.sequence ((policy.upTo i).entryScripts resolve)).steps := by
    rw [eq_take_append_cons_drop hscript, Script.asked_sequence_append hbefore, entryScripts_upTo,
      Script.sequence, Script.asked_andThen]
    simp [asked]
  rw [recording, recording, asked_script, asked_script, hasked, preamble_upTo]

/-- A build that stops on an entry has made the calls of the same policy without that entry and the
ones after it. -/
theorem StopsAt.recorded_result {i : Nat} {e : PolicyError} (h : policy.StopsAt resolve i e) :
    ∃ recording, (policy.recorded resolve).result = .error ⟨e, some recording⟩ ∧
      ((policy.upTo i).recorded resolve).result = .ok recording := by
  obtain ⟨v, hv⟩ := Option.ne_none_iff_exists'.mp h.default_known
  have hpreamble := fault_preamble_eq_none_iff.mpr h.architectures_known
  have hfault : (policy.script resolve v).fault = some e := by
    obtain ⟨entry, hentry, hhead⟩ := h.entry
    have hbefore : (policy.syscalls.take i).findSome?
        (fun entry => (Entry.translationFaults resolve entry).head?) = none := by
      rw [List.findSome?_eq_none_iff]
      intro entry hmem
      rw [h.before entry hmem]
      rfl
    rw [fault_script, hpreamble, Option.none_or, findSome?_entryScripts,
      eq_take_append_cons_drop hentry, List.findSome?_append, hbefore, Option.none_or,
      List.findSome?_cons, hhead]
  have hnone : ((policy.upTo i).script resolve v).fault = none := by
    rw [fault_script, preamble_upTo, hpreamble, Option.none_or, findSome?_entryScripts,
      List.findSome?_eq_none_iff]
    intro entry hmem
    rw [h.before entry hmem]
    rfl
  refine ⟨policy.recording resolve v, ?_, ?_⟩
  · rw [recorded_eq (defaultVerdict_eq_ok hv), hfault]
    rfl
  · have hdefault : (policy.upTo i).defaultVerdict = .ok v := defaultVerdict_eq_ok hv
    rw [recorded_eq hdefault, hnone, h.recording_eq]
    rfl

/-- Entries apart, a build into a target that refuses nothing stops on a name only. -/
theorem stops_of_recorded_error {e : PolicyError} {reached : Option Recording}
    (h : (policy.recorded resolve).result = .error ⟨e, reached⟩) :
    policy.defaultVerdict? = none ∨
      (∃ name ∈ policy.architectures, Architecture.ofName? name = none) ∨
        ∃ i, policy.StopsAt resolve i e := by
  cases hdefault : policy.defaultVerdict? with
  | none => exact .inl rfl
  | some v =>
    rw [recorded_eq (defaultVerdict_eq_ok hdefault)] at h
    have hfault : (policy.script resolve v).fault = some e := by
      cases hscript : (policy.script resolve v).fault with
      | none =>
        rw [hscript] at h
        cases h
      | some e' =>
        rw [hscript] at h
        cases h
        rfl
    rw [fault_script, findSome?_entryScripts] at hfault
    by_cases harchitectures : ∀ name ∈ policy.architectures, Architecture.ofName? name ≠ none
    · rw [fault_preamble_eq_none_iff.mpr harchitectures, Option.none_or,
        List.findSome?_eq_some_iff] at hfault
      obtain ⟨before, entry, after, hsyscalls, hhead, hbefore⟩ := hfault
      refine .inr (.inr ⟨before.length, ?_⟩)
      refine ⟨by rw [hdefault]; exact Option.some_ne_none v, harchitectures, ?_, entry, ?_, hhead⟩
      · intro other hother
        rw [hsyscalls, List.take_left] at hother
        exact List.head?_eq_none_iff.mp (hbefore other hother)
      · rw [hsyscalls, List.getElem?_append_right (Nat.le_refl _), Nat.sub_self]
        rfl
    · simp only [not_forall, not_not] at harchitectures
      obtain ⟨name, hname, hnone⟩ := harchitectures
      exact .inr (.inl ⟨name, hname, hnone⟩)

theorem exists_defaultVerdict {k : Nat} {call : Call} (h : (policy.calls resolve)[k]? = some call) :
    ∃ v, policy.defaultVerdict = .ok v := by
  cases hdefault : policy.defaultVerdict with
  | ok v => exact ⟨v, rfl⟩
  | error e =>
    rw [calls, recorded, buildInto_eq_of_error _ hdefault] at h
    cases h

/-- A target that refuses a call has recorded the calls before it, and the build ends with the error
that belongs to the call. -/
theorem buildInto_refusing {k : Nat} {call : Call} (h : (policy.calls resolve)[k]? = some call)
    (cause : Cause) :
    ∃ e reached, (policy.buildInto (Recording.backend (some k) cause) resolve).result =
        .error ⟨e, reached⟩ ∧
      reached.elim [] Recording.calls = (policy.calls resolve).take k ∧
      policy.Refused resolve cause k call e := by
  obtain ⟨v, hdefault⟩ := exists_defaultVerdict h
  rw [calls_eq hdefault] at h ⊢
  cases k with
  | zero =>
    cases h
    refine ⟨_, none, ?_, rfl, .creation v⟩
    simp only [buildInto, hdefault, Recording.backend, if_true]
  | succ j =>
    rw [Recording.calls, recording, List.getElem?_cons_succ, List.map_map, List.getElem?_map,
      Option.map_eq_some_iff] at h
    obtain ⟨⟨request, purpose⟩, hasked, rfl⟩ := h
    let requests := ((asked (policy.script resolve v).steps).take j).map (·.1)
    have hlength : requests.length = j := by
      obtain ⟨hlt, _⟩ := List.getElem?_eq_some_iff.mp hasked
      rw [List.length_map, List.length_take_of_le (Nat.le_of_lt hlt)]
    have hcreate : (Recording.backend (some (j + 1)) cause).create v = .ok ⟨v, []⟩ := by
      simp [Recording.backend]
    have hbefore : (Recording.backend (some (j + 1)) cause).applyAll requests ⟨v, []⟩ =
        .ok ⟨v, requests⟩ := by
      refine Recording.applyAll_backend fun k hk => ?_
      cases hk
      rw [hlength, List.length_nil]
      omega
    have hrefused : (Recording.backend (some (j + 1)) cause).apply request ⟨v, requests⟩ =
        .error cause := if_pos (by rw [hlength])
    refine ⟨purpose.refused cause, some ⟨v, requests⟩, ?_, ?_,
      refused_of_asked hdefault hasked cause⟩
    · simp only [buildInto, hdefault, hcreate,
        Backend.run_of_refused (eq_take_append_cons_drop hasked) hbefore hrefused]
      rfl
    · simp [Recording.calls, recording, requests, List.map_take]

/-- The cause of a refusal shows in the error. -/
theorem Refused.chain_eq {cause : Cause} {k : Nat} {call : Call} {e : PolicyError}
    (h : policy.Refused resolve cause k call e) :
    e.chain = ": ".intercalate (e.text :: cause.texts) := by
  cases h <;> rfl

/-- A target that refuses the call number `k` is asked the first `k` calls of the build that nothing
is refused to, and the error is that of the call refused. A refusal that comes too late changes
nothing. Without one a build that stops on an entry has made the calls of the entries before it, and
a build that stops has stopped there or on a name before the entries. -/
theorem refusing_records_prefix (resolve : Resolver) (policy : Policy) (k : Nat) (cause : Cause) :
    (∀ call, (policy.calls resolve)[k]? = some call →
      ∃ e reached, (policy.buildInto (Recording.backend (some k) cause) resolve).result =
          .error ⟨e, reached⟩ ∧
        reached.elim [] Recording.calls = (policy.calls resolve).take k ∧
        policy.Refused resolve cause k call e ∧
        e.chain = ": ".intercalate (e.text :: cause.texts)) ∧
    ((policy.calls resolve).length ≤ k →
      policy.buildInto (Recording.backend (some k) cause) resolve = policy.recorded resolve) ∧
    (∀ i e, policy.StopsAt resolve i e →
      ∃ recording, (policy.recorded resolve).result = .error ⟨e, some recording⟩ ∧
        ((policy.upTo i).recorded resolve).result = .ok recording) ∧
    ∀ e reached, (policy.recorded resolve).result = .error ⟨e, reached⟩ →
      policy.defaultVerdict? = none ∨
        (∃ name ∈ policy.architectures, Architecture.ofName? name = none) ∨
          ∃ i, policy.StopsAt resolve i e := by
  refine ⟨fun call hcall => ?_, fun hlate => ?_, fun i e hstops => hstops.recorded_result,
    fun e reached => stops_of_recorded_error⟩
  · obtain ⟨e, reached, hresult, hcalls, hrefused⟩ := buildInto_refusing hcall cause
    exact ⟨e, reached, hresult, hcalls, hrefused, hrefused.chain_eq⟩
  · cases hdefault : policy.defaultVerdict with
    | error e => rw [recorded, buildInto_eq_of_error _ hdefault, buildInto_eq_of_error _ hdefault]
    | ok v =>
      rw [calls_eq hdefault] at hlate
      rw [recorded_eq hdefault, buildInto_recording hdefault fun j hj => ?_]
      cases hj
      exact hlate

/-- An entry that makes two calls, and one that is null. -/
def twoRules : Policy where
  defaultAction := "SCMP_ACT_ALLOW"
  architectures := ["SCMP_ARCH_X86"]
  syscalls := [
    some { name := "read", action := "SCMP_ACT_ERRNO", errnoRet := some 13,
           args := [some ⟨0, 1, 0, "SCMP_CMP_EQ"⟩, some ⟨0, 2, 0, "SCMP_CMP_EQ"⟩] },
    none]

/-- A refusal in the middle of an entry hides the null entry behind it. -/
theorem refusing_records_prefix_twoRules :
    let resolve : Resolver := .ofList [("read", 0)]
    let full : Cause := .reported "no room" []
    (∃ e reached, (twoRules.buildInto (Recording.backend (some 4) full) resolve).result =
        .error ⟨e, reached⟩ ∧
      reached.elim [] Recording.calls = (twoRules.calls resolve).take 4 ∧
      twoRules.Refused resolve full 4
        (.request (.addConditionalRule 0 (.errno 13) [⟨0, .eq, 2⟩])) e ∧
      e.chain = ": ".intercalate (e.text :: full.texts)) ∧
    ∃ recording, (twoRules.recorded resolve).result = .error ⟨.nullEntry, some recording⟩ ∧
      ((twoRules.upTo 1).recorded resolve).result = .ok recording := by
  intro resolve full
  obtain ⟨hrefused, -, hstops, -⟩ := refusing_records_prefix resolve twoRules 4 full
  refine ⟨hrefused _ (by decide +kernel), hstops 1 .nullEntry ⟨by decide, by decide, ?_, ?_⟩⟩
  · decide
  · exact ⟨none, rfl, rfl⟩

end Policy

end SyscallPolicy
