import SyscallPolicy.Proofs.Policy.Atomicity
import SyscallPolicy.Proofs.Policy.Interruption

/-! What the log tells of a build: a line for each entry that has been dealt with, and a summary of
the whole when it is done. -/
namespace SyscallPolicy

section Events
variable {β : Type}

theorem Backend.events_perform_append (backend : Backend β) (first second : List Step)
    (state : β) :
    (backend.perform (first ++ second) state).events = (backend.perform first state).events ++
      (backend.perform first state).result.toOption.elim [] fun next =>
        (backend.perform second next).events := by
  induction first generalizing state with
  | nil => rfl
  | cons step first ih =>
    cases step with
    | log event => simp only [List.cons_append, perform, ih state]
    | request request purpose =>
      simp only [List.cons_append, perform]
      cases backend.apply request state with
      | ok next => exact ih next
      | error cause => rfl

/-- The error of a script itself is not logged. -/
theorem Backend.events_run (backend : Backend β) (script : Script) (state : β) :
    (backend.run script state).events = (backend.perform script.steps state).events := by
  simp only [run]
  split <;> rfl

theorem Backend.events_run_andThen (backend : Backend β) (first second : Script) (state : β) :
    (backend.run (first.andThen second) state).events = (backend.run first state).events ++
      (backend.run first state).result.toOption.elim [] fun next =>
        (backend.run second next).events := by
  unfold Script.andThen
  cases hfault : first.fault with
  | some e =>
    simp only [run_result, hfault, Option.elim_some]
    cases (backend.perform first.steps state).result <;> exact (List.append_nil _).symm
  | none =>
    simp only [events_run, events_perform_append, run_result, hfault, Option.elim_none]
    cases (backend.perform first.steps state).result <;> rfl

/-- What a run logs are events of its steps, up to some place. -/
theorem Backend.events_perform_prefix (backend : Backend β) (steps : List Step) (state : β) :
    (backend.perform steps state).events <+: steps.filterMap Step.event? := by
  induction steps generalizing state with
  | nil => exact List.nil_prefix
  | cons step steps ih =>
    cases step with
    | log event =>
      simp only [perform, List.filterMap_cons, Step.event?]
      exact List.prefix_cons_inj event |>.mpr (ih state)
    | request request purpose =>
      simp only [perform, List.filterMap_cons, Step.event?]
      cases backend.apply request state with
      | ok next => exact ih next
      | error cause => exact List.nil_prefix

theorem Backend.run_ofExcept_ok (backend : Backend β) (steps : List Step) (state : β) :
    backend.run (.ofExcept (.ok steps)) state = backend.perform steps state := by
  simp only [run, Script.ofExcept]
  cases (backend.perform steps state).result <;> rfl

/-- Steps that are requests only log nothing. -/
theorem Backend.events_perform_map {ι : Type} (backend : Backend β) (items : List ι)
    (request : ι → Request) (purpose : Purpose) (state : β) :
    (backend.perform (items.map fun item => .request (request item) purpose) state).events =
      [] := by
  have hprefix := backend.events_perform_prefix
    (items.map fun item => .request (request item) purpose) state
  have hnone : (items.map fun item => Step.request (request item) purpose).filterMap
      Step.event? = [] := by
    rw [List.filterMap_eq_nil_iff]
    intro step hstep
    obtain ⟨item, _, rfl⟩ := List.mem_map.mp hstep
    rfl
  rw [hnone, List.prefix_nil] at hprefix
  exact hprefix

end Events

theorem ArgCheck.conditions_eq {checks : List (Option ArgCheck)} {cs : List Condition}
    (h : List.Forall₂ (fun check c => condition check = .ok c) checks cs) :
    conditions checks = cs := by
  induction h with
  | nil => rfl
  | cons hcheck _ ih =>
    rw [conditions] at ih ⊢
    rw [List.filterMap_cons, hcheck, ih]
    rfl

namespace Entry
variable {resolve : Resolver}

/-- The line that tells that an entry has been dealt with: that its call is unknown, or what its
rules are. -/
def line? (resolve : Resolver) : Option Entry → Option Event
  | none => none
  | some entry =>
    match resolve entry.name, entry.verdict? with
    | none, _ => some (.unknownSyscall entry.name)
    | some _, none => none
    | some number, some v =>
      if entry.args = [] then some (.ruleAdded entry.name number v)
      else some (.conditionalRules entry.name number v (rules resolve (some entry)).length)

/-- What an entry has logged although the build ends at it with an error. Its line comes too early
if it has checks: by the time the filter refuses a rule, the line is there. -/
def leftover (resolve : Resolver) (error : PolicyError) : Option Entry → List Event
  | none => []
  | some entry =>
    match error with
    | .ruleAddition _ _ => if entry.args = [] then [] else (line? resolve (some entry)).toList
    | _ => []

theorem level_line {entry : Option Entry} {line : Event} (h : line? resolve entry = some line) :
    line.level = .debug := by
  cases entry with
  | none => cases h
  | some entry =>
    simp only [line?] at h
    split at h
    · cases h
      rfl
    · cases h
    · split at h <;> cases h <;> rfl

/-- Lines that tell of entries are all of one level. -/
theorem level_of_told {taken : List (Option Entry)} {lines : List Event}
    (h : taken.map (line? resolve) = lines.map some) : ∀ line ∈ lines, line.level = .debug := by
  intro line hline
  have hmem : some line ∈ taken.map (line? resolve) := by
    rw [h]
    exact List.mem_map_of_mem hline
  obtain ⟨entry, _, hentry⟩ := List.mem_map.mp hmem
  exact level_line hentry

theorem leftover_of_steps {entry : Option Entry} {e : PolicyError}
    (h : steps resolve entry = .error e) : leftover resolve e entry = [] := by
  have hfault : (translationFaults resolve entry).head? = some e := by
    cases hfaults : translationFaults resolve entry with
    | nil =>
      obtain ⟨found, hfound⟩ := exists_steps hfaults
      rw [hfound] at h
      cases h
    | cons fault rest =>
      rw [steps_eq_error (by rw [hfaults, List.head?_cons])] at h
      cases h
      rfl
  cases entry with
  | none => rfl
  | some entry =>
    -- Nothing that a translation finds wrong has to do with a filter.
    have hkind : ∀ name cause, e ≠ .ruleAddition name cause := by
      rintro name cause rfl
      have hmem := List.mem_of_head? hfault
      simp only [translationFaults] at hmem
      split at hmem <;> split at hmem <;> simp at hmem
    cases e with
    | ruleAddition name cause => exact absurd rfl (hkind name cause)
    | _ => rfl

/-- An entry that has been dealt with has logged its line and nothing else. -/
theorem addTo_log (resolve : Resolver) (entry : Option Entry) (filter : Filter) :
    (∀ next, (addTo Filter.backend resolve entry filter).result = .ok next →
      ∃ line, line? resolve entry = some line ∧
        (addTo Filter.backend resolve entry filter).events = [line]) ∧
    ∀ halted, (addTo Filter.backend resolve entry filter).result = .error halted →
      (addTo Filter.backend resolve entry filter).events =
        leftover resolve halted.error entry := by
  unfold addTo
  cases hsteps : steps resolve entry with
  | error e =>
    refine ⟨fun next hnext => (by cases hnext), fun halted hhalted => ?_⟩
    cases hhalted
    exact (leftover_of_steps hsteps).symm
  | ok found =>
    rw [Backend.run_ofExcept_ok]
    obtain ⟨e, rfl, ⟨hunknown, rfl⟩ | ⟨number, v, conditions, hresolve, hverdict, hconditions,
      ⟨rfl, rfl⟩ | ⟨hne, rfl⟩⟩⟩ := steps_cases hsteps
    · refine ⟨fun next _ => ⟨_, ?_, rfl⟩, fun halted hhalted => by cases hhalted⟩
      simp only [line?, hunknown]
    · have hargs : e.args = [] := List.forall₂_nil_right_iff.mp hconditions
      simp only [Backend.perform]
      cases Filter.backend.apply (.addRule number v) filter with
      | ok next =>
        refine ⟨fun _ _ => ⟨_, ?_, rfl⟩, fun halted hhalted => by cases hhalted⟩
        simp only [line?, hresolve, hverdict, if_pos hargs]
      | error cause =>
        refine ⟨fun next hnext => (by cases hnext), fun halted hhalted => ?_⟩
        cases hhalted
        simp only [leftover, Purpose.refused, if_pos hargs]
    · have hargs : e.args ≠ [] := fun heq => hne (by
        rw [heq] at hconditions
        exact List.forall₂_nil_left_iff.mp hconditions)
      have hgroups : e.groups = Combination.groups (conditions.map fun c => (c.argument, c)) := by
        simp only [groups, ArgCheck.conditions_eq hconditions, if_neg hne]
      have hline : line? resolve (some e) = some (.conditionalRules e.name number v
          (Combination.groups (conditions.map fun c => (c.argument, c))).length) := by
        simp only [line?, hresolve, hverdict, if_neg hargs, rules, hgroups, List.length_map]
      have hmap : conditions.map (fun c => (c.argument, c)) ≠ [] := by simpa using hne
      have hperform := Filter.perform_groups number v (Combination.groups_ne_nil hmap)
        (fun _ => Combination.ne_nil_of_mem_groups) (.entry e.name) filter
      simp only [Backend.perform, hperform, Backend.events_perform_map]
      refine ⟨fun next _ => ⟨_, hline, rfl⟩, fun halted hhalted => ?_⟩
      cases hrejection : Rule.rejection? filter.verdict ⟨number, v, []⟩ with
      | none =>
        rw [hrejection] at hhalted
        cases hhalted
      | some reason =>
        rw [hrejection] at hhalted
        cases hhalted
        simp only [leftover, Purpose.refused, if_neg hargs, hline, Option.toList_some]

/-- An entry that is added leaves the default verdict as it is. -/
theorem addTo_eq_ok {entry : Option Entry} {filter next : Filter}
    (h : (addTo Filter.backend resolve entry filter).result = .ok next) :
    next.verdict = filter.verdict ∧ next.rules = filter.rules ++ rules resolve entry := by
  have hyields := yields_steps resolve filter.verdict entry
  obtain ⟨next', hnext', hverdict, hrules⟩ := hyields.ok (hyields.fault_eq_none rfl h) filter rfl
  rw [addTo, hnext'] at h
  cases h
  exact ⟨hverdict, hrules⟩

/-- How far a run has taken entries, beginning with the filter `start`: those in `taken` have been
dealt with and have logged `lines`, and an error has ended it at the first of the others. -/
structure Progress (resolve : Resolver) (start : Filter) (entries taken left : List (Option Entry))
    (lines : List Event) (done : Logged (Except (Halted Filter) Filter)) : Prop where
  entries_eq : entries = taken ++ left
  told : taken.map (line? resolve) = lines.map some
  finished : ∀ next, done.result = .ok next → left = [] ∧ next.verdict = start.verdict ∧
    next.rules = start.rules ++ taken.flatMap (rules resolve) ∧ done.events = lines
  stopped : ∀ halted, done.result = .error halted →
    halted.reached.rules = start.rules ++ taken.flatMap (rules resolve) ∧
      ∃ entry rest, left = entry :: rest ∧
        (faults resolve start.verdict entry).head? = some halted.error ∧
        done.events = lines ++ leftover resolve halted.error entry

/-- One more entry in front, which is added. -/
theorem Progress.cons {start between : Filter} {entry : Option Entry} {line : Event}
    {entries taken left : List (Option Entry)} {lines : List Event}
    {done : Logged (Except (Halted Filter) Filter)} (hline : line? resolve entry = some line)
    (hverdict : between.verdict = start.verdict)
    (hrules : between.rules = start.rules ++ rules resolve entry)
    (h : Progress resolve between entries taken left lines done) :
    Progress resolve start (entry :: entries) (entry :: taken) left (line :: lines)
      ⟨line :: done.events, done.result⟩ where
  entries_eq := by rw [h.entries_eq, List.cons_append]
  told := by rw [List.map_cons, List.map_cons, hline, h.told]
  finished next hnext := by
    obtain ⟨hleft, hverdict', hrules', hlines⟩ := h.finished next hnext
    refine ⟨hleft, hverdict'.trans hverdict, ?_, congrArg (line :: ·) hlines⟩
    rw [hrules', hrules, List.flatMap_cons, List.append_assoc]
  stopped halted hhalted := by
    obtain ⟨hrules', first, rest, hleft, hfault, hlines⟩ := h.stopped halted hhalted
    rw [hverdict] at hfault
    refine ⟨?_, first, rest, hleft, hfault, congrArg (line :: ·) hlines⟩
    rw [hrules', hrules, List.flatMap_cons, List.append_assoc]

theorem exists_progress (resolve : Resolver) (entries : List (Option Entry)) (start : Filter) :
    ∃ taken left lines, Progress resolve start entries taken left lines
      (Filter.backend.run
        (.sequence (entries.map fun entry => .ofExcept (steps resolve entry))) start) := by
  induction entries generalizing start with
  | nil =>
    refine ⟨[], [], [], rfl, rfl, fun next hnext => ?_, fun halted hhalted => by cases hhalted⟩
    cases hnext
    exact ⟨rfl, rfl, (List.append_nil _).symm, rfl⟩
  | cons entry entries ih =>
    let others : Script := .sequence (entries.map fun entry => .ofExcept (steps resolve entry))
    obtain ⟨hlogged, hunfinished⟩ := addTo_log resolve entry start
    have hresult := Filter.backend.run_andThen (.ofExcept (steps resolve entry)) others start
    have hevents := Filter.backend.events_run_andThen (.ofExcept (steps resolve entry)) others start
    rw [← addTo] at hresult hevents
    rw [List.map_cons, Script.sequence]
    cases hadded : (addTo Filter.backend resolve entry start).result with
    | error halted =>
      rw [hadded] at hresult hevents
      obtain ⟨hreached, hfault⟩ := (addTo_atomic resolve entry start).1 halted hadded
      refine ⟨[], entry :: entries, [], rfl, rfl, fun next hnext => ?_, fun other hother => ?_⟩
      · rw [hresult] at hnext
        cases hnext
      · rw [hresult] at hother
        cases hother
        rw [hevents, hunfinished halted hadded]
        refine ⟨?_, entry, entries, rfl, hfault, List.append_nil _⟩
        rw [hreached]
        exact (List.append_nil _).symm
    | ok between =>
      rw [hadded] at hresult hevents
      obtain ⟨line, hline, hone⟩ := hlogged between hadded
      obtain ⟨hverdict, hrules⟩ := addTo_eq_ok hadded
      obtain ⟨taken, left, lines, hprogress⟩ := ih between
      have hrun : Filter.backend.run
          ((Script.ofExcept (steps resolve entry)).andThen others) start =
            ⟨line :: (Filter.backend.run others between).events,
              (Filter.backend.run others between).result⟩ := by
        rw [hone] at hevents
        exact congrArg₂ Logged.mk hevents hresult
      exact ⟨entry :: taken, left, line :: lines, hrun ▸ hprogress.cons hline hverdict hrules⟩

end Entry

namespace Policy
variable {resolve : Resolver} {policy : Policy}

/-- What comes before the entries logs nothing and adds no rules. It fails on a name only. -/
structure Prepares (names : List String) (start : Filter)
    (done : Logged (Except (Halted Filter) Filter)) : Prop where
  events_eq : done.events = []
  finished : ∀ next, done.result = .ok next →
    next.verdict = start.verdict ∧ next.rules = start.rules
  stopped : ∀ halted, done.result = .error halted → halted.reached.rules = start.rules ∧
    ∃ name ∈ names, Architecture.ofName? name = none

theorem prepares_preamble (names : List String) (start : Filter) :
    Prepares names start (Filter.backend.run (.sequence (
      names.map (fun name => .ofExcept (architectureSteps name)) ++
        [⟨[.request (.setNoNewPrivs false) .noNewPrivs], none⟩])) start) := by
  induction names generalizing start with
  | nil =>
    refine ⟨rfl, fun next hnext => ?_, fun halted hhalted => by cases hhalted⟩
    cases hnext
    exact ⟨rfl, rfl⟩
  | cons name names ih =>
    rw [List.map_cons, List.cons_append, Script.sequence]
    cases hname : Architecture.ofName? name with
    | none =>
      have hrun : Script.ofExcept (architectureSteps name) =
          ⟨[], some (.invalidArchitecture name)⟩ := by
        simp only [architectureSteps, Architecture.ofName, hname]
        rfl
      rw [hrun]
      refine ⟨rfl, fun next hnext => (by cases hnext), fun halted hhalted => ?_⟩
      cases hhalted
      exact ⟨rfl, name, List.mem_cons_self, hname⟩
    | some architecture =>
      have hrun : Filter.backend.run (Script.ofExcept (architectureSteps name)) start =
          ⟨[], .ok (start.addArchitecture architecture)⟩ := by
        simp only [architectureSteps, Architecture.ofName, hname]
        rfl
      have hkept : (start.addArchitecture architecture).verdict = start.verdict ∧
          (start.addArchitecture architecture).rules = start.rules := by
        unfold Filter.addArchitecture
        split <;> exact ⟨rfl, rfl⟩
      obtain ⟨hevents, hfinished, hstopped⟩ := ih (start.addArchitecture architecture)
      refine ⟨?_, fun next hnext => ?_, fun halted hhalted => ?_⟩
      · rw [Backend.events_run_andThen, hrun]
        exact hevents
      · rw [Backend.run_andThen, hrun] at hnext
        obtain ⟨hverdict, hrules⟩ := hfinished next hnext
        exact ⟨hverdict.trans hkept.1, hrules.trans hkept.2⟩
      · rw [Backend.run_andThen, hrun] at hhalted
        obtain ⟨hrules, other, hother, hnone⟩ := hstopped halted hhalted
        exact ⟨hrules.trans hkept.2, other, List.mem_cons_of_mem name hother, hnone⟩

theorem buildInto_filter_eq {v : Verdict} (h : policy.defaultVerdict? = some v) :
    policy.buildInto Filter.backend resolve =
      ⟨(Filter.backend.run (policy.script resolve v) (.empty v)).events,
        (Filter.backend.run (policy.script resolve v) (.empty v)).result.mapError
          fun halted => ⟨halted.error, some halted.reached⟩⟩ := by
  simp only [buildInto, defaultVerdict_eq_ok h]
  rfl

/-- A build either ends before its entries, and logs nothing, or comes to what its entries come to,
with a summary if they are all added. -/
theorem buildInto_cases (resolve : Resolver) (policy : Policy) :
    let built := policy.buildInto Filter.backend resolve
    (∃ halted, built = ⟨[], .error halted⟩ ∧ (∀ filter ∈ halted.reached, filter.rules = []) ∧
      (policy.defaultVerdict? = none ∨
        ∃ name ∈ policy.architectures, Architecture.ofName? name = none)) ∨
    ∃ v start, policy.defaultVerdict? = some v ∧ start.verdict = v ∧ start.rules = [] ∧
      let done := Filter.backend.run (.sequence (policy.entryScripts resolve)) start
      let summary : Event := .built v policy.syscalls.length
      built = ⟨done.events ++ done.result.toOption.elim [] fun _ => [summary],
        done.result.mapError fun halted => ⟨halted.error, some halted.reached⟩⟩ := by
  intro built
  cases hdefault : policy.defaultVerdict? with
  | none =>
    have hbuilt : built = _ :=
      buildInto_eq_of_error Filter.backend (defaultVerdict_eq_error hdefault)
    exact .inl ⟨_, hbuilt, fun _ hfilter => (by cases hfilter), .inl rfl⟩
  | some v =>
    have hbuilt : built = _ := buildInto_filter_eq hdefault
    have hprepares : Prepares policy.architectures (.empty v)
        (Filter.backend.run policy.preamble (.empty v)) := prepares_preamble _ _
    rw [script_eq, Backend.run_andThen, Backend.events_run_andThen, hprepares.events_eq] at hbuilt
    cases hprepared : (Filter.backend.run policy.preamble (.empty v)).result with
    | error halted =>
      obtain ⟨hrules, hname⟩ := hprepares.stopped halted hprepared
      rw [hprepared] at hbuilt
      refine .inl ⟨_, hbuilt, fun filter hfilter => ?_, .inr hname⟩
      cases hfilter
      exact hrules
    | ok start =>
      obtain ⟨hverdict, hrules⟩ := hprepares.finished start hprepared
      rw [hprepared] at hbuilt
      simp only [bind, Except.bind, Except.toOption, Option.elim_some, List.nil_append,
        Backend.run_andThen, Backend.events_run_andThen] at hbuilt
      refine .inr ⟨v, start, rfl, hverdict, hrules, hbuilt.trans ?_⟩
      cases (Filter.backend.run (.sequence (policy.entryScripts resolve)) start).result <;> rfl

/-- Each entry that a build has dealt with has one line, at its place, and the summary comes last
and only if the build is done. An entry that a build ends at has left a line nevertheless if it has
checks and it is the filter that refuses a rule. -/
theorem buildInto_log (resolve : Resolver) (policy : Policy) :
    let built := policy.buildInto Filter.backend resolve
    ∃ taken left lines, policy.syscalls = taken ++ left ∧
      taken.map (Entry.line? resolve) = lines.map some ∧
      (∀ line ∈ lines, line.level = .debug) ∧
      (∀ filter, built.result = .ok filter →
        left = [] ∧ filter.rules = taken.flatMap (Entry.rules resolve) ∧
          built.events = lines ++ [.built filter.verdict policy.syscalls.length]) ∧
      ∀ halted, built.result = .error halted →
        (∀ filter ∈ halted.reached, filter.rules = taken.flatMap (Entry.rules resolve)) ∧
        ((taken = [] ∧ built.events = [] ∧
            (policy.defaultVerdict? = none ∨
              ∃ name ∈ policy.architectures, Architecture.ofName? name = none)) ∨
          ∃ v entry rest, policy.defaultVerdict? = some v ∧ left = entry :: rest ∧
            (Entry.faults resolve v entry).head? = some halted.error ∧
            built.events = lines ++ Entry.leftover resolve halted.error entry) := by
  intro built
  rcases buildInto_cases resolve policy with ⟨halted, hbuilt, hrules, hearly⟩ |
    ⟨v, start, hdefault, rfl, hrules, hbuilt⟩
  · rw [show built = _ from hbuilt]
    refine ⟨[], policy.syscalls, [], rfl, rfl, fun _ hline => (by cases hline),
      fun _ hfilter => (by cases hfilter), fun _ hhalted => ?_⟩
    cases hhalted
    exact ⟨hrules, .inl ⟨rfl, rfl, hearly⟩⟩
  · obtain ⟨taken, left, lines, hprogress⟩ := Entry.exists_progress resolve policy.syscalls start
    rw [← entryScripts] at hprogress
    rw [show built = _ from hbuilt]
    refine ⟨taken, left, lines, hprogress.entries_eq, hprogress.told,
      Entry.level_of_told hprogress.told, ?_⟩
    cases hdone : (Filter.backend.run (.sequence (policy.entryScripts resolve)) start).result with
    | error halted =>
      obtain ⟨hreached, entry, rest, hleft, hfault, hevents⟩ := hprogress.stopped halted hdone
      refine ⟨fun _ hfilter => (by cases hfilter), fun _ hhalted => ?_⟩
      cases hhalted
      refine ⟨fun filter hfilter => ?_, .inr ⟨_, entry, rest, hdefault, hleft, hfault, ?_⟩⟩
      · cases hfilter
        rw [hreached, hrules, List.nil_append]
      · exact (List.append_nil _).trans hevents
    | ok next =>
      obtain ⟨hleft, hverdict, hadded, hevents⟩ := hprogress.finished next hdone
      refine ⟨fun filter hfilter => ?_, fun _ hhalted => (by cases hhalted)⟩
      cases hfilter
      refine ⟨hleft, ?_, ?_⟩
      · rw [hadded, hrules, List.nil_append]
      · rw [hverdict, ← hevents]
        rfl

/-- A build that ends at an entry has a line for it although no rule has been added. -/
theorem buildInto_log_early :
    let policy : Policy := {
      defaultAction := "SCMP_ACT_ALLOW"
      syscalls := [some { name := "getpid", action := "SCMP_ACT_ALLOW",
                          args := [some ⟨0, 1, 0, "SCMP_CMP_EQ"⟩] }] }
    let built := policy.buildInto Filter.backend SyscallTable.number?
    built.events = [.conditionalRules "getpid" 39 .allow 1] ∧
      ∃ filter, built.result =
          .error ⟨.ruleAddition "getpid" (.rejection (.repeatsDefault 39)), some filter⟩ ∧
        filter.rules = [] := by
  refine ⟨by decide +kernel, { Filter.empty .allow with noNewPrivs := false }, ?_, rfl⟩
  decide +kernel

end Policy

end SyscallPolicy
