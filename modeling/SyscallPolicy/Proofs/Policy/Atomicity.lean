import SyscallPolicy.Proofs.Policy.Meaning

/-! An entry that is added to a filter adds all its rules, or it changes nothing. -/
namespace SyscallPolicy

theorem Combination.groups_arguments {conditions : List Condition} (hne : conditions ≠ []) :
    groups (conditions.map fun c => (c.argument, c)) =
      if (conditions.map (·.argument)).Nodup then [conditions]
      else conditions.map fun c => [c] := by
  rw [groups_eq (mt List.map_eq_nil_iff.mp hne)]
  simp only [List.map_map, Function.comp_def, List.map_id']

namespace Filter

theorem apply_addConditionalRule {conditions : List Condition} (hne : conditions ≠ [])
    (number : Int) (v : Verdict) (filter : Filter) :
    filter.apply (.addConditionalRule number v conditions) =
      (Rule.rejection? filter.verdict ⟨number, v, []⟩).elim
        (.ok { filter with rules := filter.rules ++ [⟨number, v, conditions⟩] }) .error := by
  simp only [Filter.apply, List.isEmpty_iff, if_neg hne, addRule_eq]
  rfl

/-- Rules for one number with one verdict are refused alike, whatever their conditions, so a filter
that takes the first of them takes all. -/
theorem perform_groups (number : Int) (v : Verdict) {groups : List (List Condition)}
    (hne : groups ≠ []) (hgroups : ∀ group ∈ groups, group ≠ []) (purpose : Purpose)
    (filter : Filter) :
    (backend.perform (groups.map fun group =>
        .request (.addConditionalRule number v group) purpose) filter).result =
      (Rule.rejection? filter.verdict ⟨number, v, []⟩).elim
        (.ok { filter with rules := filter.rules ++ groups.map fun group => ⟨number, v, group⟩ })
        fun reason => .error ⟨purpose.refused (.rejection reason), filter⟩ := by
  cases hrejection : Rule.rejection? filter.verdict ⟨number, v, []⟩ with
  | some reason =>
    obtain ⟨group, rest, rfl⟩ := List.exists_cons_of_ne_nil hne
    have hrefused := apply_addConditionalRule (hgroups group List.mem_cons_self) number v filter
    rw [hrejection] at hrefused
    simp only [List.map_cons, Backend.perform, backend, hrefused]
    rfl
  | none =>
    -- An added rule leaves the default verdict as it is, and so what is rejected.
    clear hne
    induction groups generalizing filter with
    | nil => simp [Backend.perform]
    | cons group groups ih =>
      have haccepted : backend.apply (.addConditionalRule number v group) filter =
          .ok { filter with rules := filter.rules ++ [⟨number, v, group⟩] } := by
        simp only [backend, apply_addConditionalRule (hgroups group List.mem_cons_self), hrejection]
        rfl
      have hrest := ih (fun other hother => hgroups other (List.mem_cons_of_mem group hother))
        { filter with rules := filter.rules ++ [⟨number, v, group⟩] } hrejection
      simp only [List.map_cons, Backend.perform, haccepted, hrest, Option.elim_none,
        List.append_assoc, List.singleton_append]

end Filter

namespace Entry
variable {resolve : Resolver}

/-- The rules that an entry adds to a filter: none if its name stands for no call, and else rules
for that call with the verdict of its action. Without checks it is one without conditions. Checks on
different arguments make one rule together, and others a rule each. -/
inductive Adds (resolve : Resolver) (entry : Entry) : List Rule → Prop
  | unknown : resolve entry.name = none → Adds resolve entry []
  | unconditional {number : Int} {v : Verdict} :
      resolve entry.name = some number → entry.verdict? = some v → entry.args = [] →
      Adds resolve entry [⟨number, v, []⟩]
  | all {number : Int} {v : Verdict} {conditions : List Condition} :
      resolve entry.name = some number → entry.verdict? = some v → entry.args ≠ [] →
      List.Forall₂ (fun check c => ArgCheck.condition check = .ok c) entry.args conditions →
      (conditions.map (·.argument)).Nodup → Adds resolve entry [⟨number, v, conditions⟩]
  | any {number : Int} {v : Verdict} {conditions : List Condition} :
      resolve entry.name = some number → entry.verdict? = some v → entry.args ≠ [] →
      List.Forall₂ (fun check c => ArgCheck.condition check = .ok c) entry.args conditions →
      ¬(conditions.map (·.argument)).Nodup →
      Adds resolve entry (conditions.map fun c => ⟨number, v, [c]⟩)

/-- What an entry that can be translated asks for. -/
theorem steps_cases {entry : Option Entry} {found : List Step}
    (h : steps resolve entry = .ok found) :
    ∃ e, entry = some e ∧
      (resolve e.name = none ∧ found = [.log (.unknownSyscall e.name)] ∨
        ∃ number v conditions, resolve e.name = some number ∧ e.verdict? = some v ∧
          List.Forall₂ (fun check c => ArgCheck.condition check = .ok c) e.args conditions ∧
          (conditions = [] ∧ found = [.request (.addRule number v) (.entry e.name),
              .log (.ruleAdded e.name number v)] ∨
            conditions ≠ [] ∧ found = .log (.conditionalRules e.name number v
                (Combination.groups (conditions.map fun c => (c.argument, c))).length) ::
              (Combination.groups (conditions.map fun c => (c.argument, c))).map fun group =>
                .request (.addConditionalRule number v group) (.entry e.name))) := by
  cases entry with
  | none => cases h
  | some entry =>
    refine ⟨entry, rfl, ?_⟩
    simp only [steps] at h
    split at h
    · cases h
    cases hresolve : resolve entry.name with
    | none =>
      rw [hresolve] at h
      cases h
      exact .inl ⟨rfl, rfl⟩
    | some number =>
      simp only [hresolve, bind_eq_ok, mapError_eq_ok, mapM_eq_ok] at h
      obtain ⟨v, hv, conditions, hconditions, h⟩ := h
      refine .inr ⟨number, v, conditions, rfl, verdictOf_eq_ok_iff.mp hv, hconditions, ?_⟩
      split at h
      · next hempty =>
        cases h
        exact .inl ⟨List.isEmpty_iff.mp hempty, rfl⟩
      · next hne =>
        cases h
        exact .inr ⟨fun heq => hne (List.isEmpty_iff.mpr heq), rfl⟩

/-- An entry either stops with an error and leaves the filter as it is, or it adds its rules. -/
theorem addTo_cases (resolve : Resolver) (entry : Option Entry) (filter : Filter) :
    (∃ e, (addTo Filter.backend resolve entry filter).result = .error ⟨e, filter⟩) ∨
      ∃ e rules, entry = some e ∧ e.Adds resolve rules ∧
        (addTo Filter.backend resolve entry filter).result =
          .ok { filter with rules := filter.rules ++ rules } := by
  unfold addTo
  rw [Backend.run_result]
  cases hsteps : steps resolve entry with
  | error e => exact .inl ⟨e, rfl⟩
  | ok found =>
    obtain ⟨e, rfl, ⟨hunknown, rfl⟩ | ⟨number, v, conditions, hresolve, hverdict, hconditions,
      ⟨rfl, rfl⟩ | ⟨hne, rfl⟩⟩⟩ := steps_cases hsteps
    · refine .inr ⟨e, [], rfl, .unknown hunknown, ?_⟩
      simp [Script.ofExcept, Backend.perform, bind, Except.bind]
    · have hargs : e.args = [] := List.forall₂_nil_right_iff.mp hconditions
      cases hrejection : Rule.rejection? filter.verdict ⟨number, v, []⟩ with
      | some reason =>
        refine .inl ⟨.ruleAddition e.name (.rejection reason), ?_⟩
        simp only [Script.ofExcept, Backend.perform, Filter.backend, Filter.apply,
          Filter.addRule_eq, hrejection]
        rfl
      | none =>
        refine .inr ⟨e, _, rfl, .unconditional hresolve hverdict hargs, ?_⟩
        simp only [Script.ofExcept, Backend.perform, Filter.backend, Filter.apply,
          Filter.addRule_eq, hrejection]
        rfl
    · have hargs : e.args ≠ [] := fun heq => hne (by
        rw [heq] at hconditions
        exact List.forall₂_nil_left_iff.mp hconditions)
      have hmap : conditions.map (fun c => (c.argument, c)) ≠ [] := by simpa using hne
      have hperform := Filter.perform_groups number v (Combination.groups_ne_nil hmap)
        (fun _ => Combination.ne_nil_of_mem_groups) (.entry e.name) filter
      simp only [Script.ofExcept, Backend.perform, hperform]
      cases hrejection : Rule.rejection? filter.verdict ⟨number, v, []⟩ with
      | some reason => exact .inl ⟨.ruleAddition e.name (.rejection reason), rfl⟩
      | none =>
        refine .inr ⟨e, _, rfl, ?_, rfl⟩
        rw [Combination.groups_arguments hne]
        split
        · next hnodup => exact .all hresolve hverdict hargs hconditions hnodup
        · next hrepeated =>
          rw [List.map_map]
          exact .any hresolve hverdict hargs hconditions hrepeated

/-- Where an entry stops with an error, the filter is what it was, and the error is the entry's
first fault. Where it does not, its rules stand at the end of the filter's, and nothing else has
changed. -/
theorem addTo_atomic (resolve : Resolver) (entry : Option Entry) (filter : Filter) :
    (∀ halted, (addTo Filter.backend resolve entry filter).result = .error halted →
      halted.reached = filter ∧
        (faults resolve filter.verdict entry).head? = some halted.error) ∧
    ∀ next, (addTo Filter.backend resolve entry filter).result = .ok next →
      faults resolve filter.verdict entry = [] ∧
        ∃ e rules, entry = some e ∧ e.Adds resolve rules ∧
          next = { filter with rules := filter.rules ++ rules } := by
  have hyields := yields_steps resolve filter.verdict entry
  constructor
  · intro halted hhalted
    refine ⟨?_, hyields.fault_eq_some rfl hhalted⟩
    rcases addTo_cases resolve entry filter with ⟨e, he⟩ | ⟨_, _, _, _, hok⟩
    · rw [he] at hhalted
      cases hhalted
      rfl
    · rw [hok] at hhalted
      cases hhalted
  · intro next hnext
    refine ⟨List.head?_eq_none_iff.mp (hyields.fault_eq_none rfl hnext), ?_⟩
    rcases addTo_cases resolve entry filter with ⟨e, he⟩ | ⟨e, rules, hentry, hadds, hok⟩
    · rw [he] at hnext
      cases hnext
    · rw [hok] at hnext
      cases hnext
      exact ⟨e, rules, hentry, hadds, rfl⟩

/-- An entry with two checks on one argument. -/
def terminalControl (action : String) : Entry where
  name := "ioctl"
  action := action
  args := [some ⟨1, 0x5412, 0, "SCMP_CMP_EQ"⟩, some ⟨1, 0x541c, 0, "SCMP_CMP_EQ"⟩]

/-- Its conditions make a rule each, unless these repeat the default verdict: then not even the
first of them is left behind. -/
theorem addTo_atomic_repeated :
    (∃ rules next, (terminalControl "SCMP_ACT_ERRNO").Adds SyscallTable.number? rules ∧
      (addTo Filter.backend SyscallTable.number? (some (terminalControl "SCMP_ACT_ERRNO"))
        (.empty .allow)).result = .ok next ∧
      next.rules = rules ∧ rules.map (·.conditions.length) = [1, 1]) ∧
    ∃ halted, (addTo Filter.backend SyscallTable.number? (some (terminalControl "SCMP_ACT_ALLOW"))
        (.empty .allow)).result = .error halted ∧
      halted.reached = .empty .allow := by
  constructor
  · let next : Filter := { Filter.empty .allow with rules := [
      ⟨16, .errno 1, [⟨1, .eq, 0x5412⟩]⟩, ⟨16, .errno 1, [⟨1, .eq, 0x541c⟩]⟩] }
    have hnext : (addTo Filter.backend SyscallTable.number?
        (some (terminalControl "SCMP_ACT_ERRNO")) (.empty .allow)).result = .ok next := by
      decide +kernel
    obtain ⟨-, e, rules, hentry, hadds, heq⟩ := (addTo_atomic _ _ _).2 next hnext
    cases hentry
    have hrules : next.rules = rules := by rw [heq]; rfl
    exact ⟨rules, next, hadds, hnext, hrules, by rw [← hrules]; rfl⟩
  · have hhalted : (addTo Filter.backend SyscallTable.number?
        (some (terminalControl "SCMP_ACT_ALLOW")) (.empty .allow)).result =
          .error ⟨.ruleAddition "ioctl" (.rejection (.repeatsDefault 16)), .empty .allow⟩ := by
      decide +kernel
    exact ⟨_, hhalted, ((addTo_atomic _ _ _).1 _ hhalted).1⟩

end Entry

end SyscallPolicy
