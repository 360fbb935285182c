import Mathlib.Data.List.Nodup
import SyscallPolicy.Condition
import SyscallPolicy.Grouping

/-! What becomes of conditions that are split into groups. None is lost, and only whether two of them
are on the same argument counts for how they combine. -/
namespace SyscallPolicy.Combination
variable {κ α : Type} {indices other : List κ} {conditions : List (κ × α)}

/-- Indices that are not all different are two at least. -/
theorem one_lt_length_of_not_nodup (h : ¬(conditions.map (·.1)).Nodup) : 1 < conditions.length := by
  match conditions with
  | [] => exact absurd List.nodup_nil h
  | [c] => exact absurd (List.nodup_singleton c.1) h
  | _ :: _ :: rest => exact Nat.le_add_left 2 rest.length

variable [DecidableEq κ]

theorem ofIndices_eq (indices : List κ) :
    ofIndices indices = if indices.Nodup then all else any := by
  unfold ofIndices
  by_cases hnodup : indices.Nodup
  · have hcount := List.nodup_iff_count_le_one.mp hnodup
    rw [if_pos hnodup, if_neg]
    simpa using fun i _ => hcount i
  · rw [List.nodup_iff_count_le_one, not_forall] at hnodup
    obtain ⟨i, hi⟩ := hnodup
    -- Only indices in the list are counted: one that occurs more than once is among them.
    have hmem : i ∈ indices := List.count_pos_iff.mp (by omega)
    rw [if_pos (List.any_eq_true.mpr ⟨i, hmem, decide_eq_true (Nat.not_le.mp hi)⟩), if_neg]
    exact fun h => hi (List.nodup_iff_count_le_one.mp h i)

theorem ofIndices_eq_all_iff : ofIndices indices = all ↔ indices.Nodup := by
  rw [ofIndices_eq]
  by_cases hnodup : indices.Nodup
  · rw [if_pos hnodup]
    exact iff_of_true rfl hnodup
  · rw [if_neg hnodup]
    exact iff_of_false Combination.noConfusion hnodup

theorem ofIndices_eq_of_perm (h : indices.Perm other) : ofIndices indices = ofIndices other := by
  rw [ofIndices_eq, ofIndices_eq]
  exact if_congr h.nodup_iff rfl rfl

theorem groups_eq (hne : conditions ≠ []) :
    groups conditions =
      if (conditions.map (·.1)).Nodup then [conditions.map (·.2)]
      else conditions.map fun c => [c.2] := by
  have hempty : conditions.isEmpty = false := by simpa using hne
  unfold groups
  rw [hempty, ofIndices_eq]
  by_cases hnodup : (conditions.map (·.1)).Nodup
  · rw [if_pos hnodup, if_pos hnodup]
    rfl
  · rw [if_neg hnodup, if_neg hnodup]
    rfl

/-- There are no groups, or one of all conditions, or one for each of them. -/
theorem groups_cases (conditions : List (κ × α)) :
    conditions = [] ∧ groups conditions = [] ∨
      (conditions ≠ [] ∧ (conditions.map (·.1)).Nodup ∧
        groups conditions = [conditions.map (·.2)]) ∨
      (¬(conditions.map (·.1)).Nodup ∧ groups conditions = conditions.map fun c => [c.2]) := by
  by_cases hne : conditions = []
  · rw [hne]
    exact .inl ⟨rfl, rfl⟩
  · rw [groups_eq hne]
    by_cases hnodup : (conditions.map (·.1)).Nodup
    · rw [if_pos hnodup]
      exact .inr (.inl ⟨hne, hnodup, rfl⟩)
    · rw [if_neg hnodup]
      exact .inr (.inr ⟨hnodup, rfl⟩)

theorem groups_eq_nil_iff : groups conditions = [] ↔ conditions = [] := by
  rcases groups_cases conditions with ⟨hnil, hgroups⟩ | ⟨hne, -, hgroups⟩ | ⟨-, hgroups⟩
  · exact iff_of_true hgroups hnil
  · rw [hgroups]
    exact iff_of_false (List.cons_ne_nil _ _) hne
  · rw [hgroups, List.map_eq_nil_iff]

theorem groups_ne_nil (h : conditions ≠ []) : groups conditions ≠ [] :=
  mt groups_eq_nil_iff.mp h

theorem ne_nil_of_mem_groups {group : List α} (h : group ∈ groups conditions) : group ≠ [] := by
  rcases groups_cases conditions with ⟨-, hgroups⟩ | ⟨hne, -, hgroups⟩ | ⟨-, hgroups⟩ <;>
    rw [hgroups] at h
  · cases h
  · rw [List.mem_singleton.mp h]
    exact mt List.map_eq_nil_iff.mp hne
  · obtain ⟨c, _, rfl⟩ := List.mem_map.mp h
    exact List.cons_ne_nil _ _

theorem flatten_groups (conditions : List (κ × α)) :
    (groups conditions).flatten = conditions.map (·.2) := by
  rcases groups_cases conditions with ⟨hnil, hgroups⟩ | ⟨-, -, hgroups⟩ | ⟨-, hgroups⟩ <;>
    rw [hgroups]
  · rw [hnil]
    rfl
  · exact List.flatten_singleton
  · rw [← List.flatMap_def, List.map_eq_flatMap]

theorem length_groups_eq_one_iff :
    (groups conditions).length = 1 ↔
      conditions ≠ [] ∧ ((conditions.map (·.1)).Nodup ∨ conditions.length = 1) := by
  rcases groups_cases conditions with ⟨hnil, hgroups⟩ | ⟨hne, hnodup, hgroups⟩ |
    ⟨hrepeated, hgroups⟩ <;> rw [hgroups]
  · exact iff_of_false Nat.zero_ne_one fun h => h.1 hnil
  · exact iff_of_true rfl ⟨hne, .inl hnodup⟩
  · have hlength := one_lt_length_of_not_nodup hrepeated
    rw [List.length_map]
    refine iff_of_false (Nat.ne_of_gt hlength) ?_
    rintro ⟨-, hnodup | hone⟩
    · exact hrepeated hnodup
    · exact Nat.ne_of_gt hlength hone

theorem length_eq_one_of_mem_groups (h : (groups conditions).length ≠ 1) {group : List α}
    (hgroup : group ∈ groups conditions) : group.length = 1 := by
  rcases groups_cases conditions with ⟨-, hgroups⟩ | ⟨-, -, hgroups⟩ | ⟨-, hgroups⟩ <;>
    rw [hgroups] at h hgroup
  · cases hgroup
  · exact absurd rfl h
  · obtain ⟨c, _, rfl⟩ := List.mem_map.mp hgroup
    rfl

/-- One of the groups holds if all conditions do, or as soon as one does if two of them are on the
same argument. -/
theorem exists_mem_groups (hne : conditions ≠ []) (p : α → Bool) :
    (∃ group ∈ groups conditions, group.all p = true) ↔
      if (conditions.map (·.1)).Nodup then ∀ c ∈ conditions, p c.2
      else ∃ c ∈ conditions, p c.2 := by
  rw [groups_eq hne]
  by_cases hnodup : (conditions.map (·.1)).Nodup
  · simp only [if_pos hnodup, List.mem_singleton, exists_eq_left, List.all_eq_true,
      List.forall_mem_map]
  · simp only [if_neg hnodup, List.mem_map, exists_exists_and_eq_and, List.all_cons, List.all_nil,
      Bool.and_true]

/-- The same where there may be no conditions, and so no groups. -/
theorem exists_mem_groups_iff (p : α → Bool) :
    (∃ group ∈ groups conditions, group.all p = true) ↔
      (conditions ≠ [] ∧ (conditions.map (·.1)).Nodup ∧ ∀ c ∈ conditions, p c.2 = true) ∨
        (¬(conditions.map (·.1)).Nodup ∧ ∃ c ∈ conditions, p c.2 = true) := by
  by_cases hne : conditions = []
  · rw [hne]
    simp [groups]
  · rw [exists_mem_groups hne]
    by_cases hnodup : (conditions.map (·.1)).Nodup
    · rw [if_pos hnodup]
      constructor
      · exact fun hall => .inl ⟨hne, hnodup, hall⟩
      · rintro (⟨-, -, hall⟩ | ⟨hrepeated, -⟩)
        · exact hall
        · exact absurd hnodup hrepeated
    · rw [if_neg hnodup]
      constructor
      · exact fun hone => .inr ⟨hnodup, hone⟩
      · rintro (⟨-, hnodup', -⟩ | ⟨-, hone⟩)
        · exact absurd hnodup' hnodup
        · exact hone

/-- Splitting into groups loses no condition and keeps their order. Conditions on different arguments
are one group. As soon as two are on the same argument each is a group of its own, so that one that
holds is enough. Which of the two it is does not depend on the order of the conditions. -/
theorem groups_keep_conditions (conditions : List (κ × α)) :
    (∀ group ∈ groups conditions, group ≠ []) ∧
    (groups conditions).flatten = conditions.map (·.2) ∧
    (groups conditions = [] ↔ conditions = []) ∧
    ((groups conditions).length = 1 ↔
      conditions ≠ [] ∧ ((conditions.map (·.1)).Nodup ∨ conditions.length = 1)) ∧
    ((groups conditions).length ≠ 1 → ∀ group ∈ groups conditions, group.length = 1) ∧
    (∀ p : α → Bool, (∃ group ∈ groups conditions, group.all p = true) ↔
      (conditions ≠ [] ∧ (conditions.map (·.1)).Nodup ∧ ∀ c ∈ conditions, p c.2 = true) ∨
        (¬(conditions.map (·.1)).Nodup ∧ ∃ c ∈ conditions, p c.2 = true)) ∧
    (ofIndices (conditions.map (·.1)) = all ↔ (conditions.map (·.1)).Nodup) ∧
    ∀ other : List (κ × α), conditions.Perm other →
      ofIndices (conditions.map (·.1)) = ofIndices (other.map (·.1)) := by
  refine ⟨fun _ => ne_nil_of_mem_groups, flatten_groups conditions, groups_eq_nil_iff,
    length_groups_eq_one_iff, fun hmany _ => length_eq_one_of_mem_groups hmany,
    exists_mem_groups_iff, ofIndices_eq_all_iff, ?_⟩
  intro other hperm
  exact ofIndices_eq_of_perm (hperm.map _)

/-- Two comparisons with one argument, and one with another between them. -/
def terminalRequests : List (UInt8 × Comparison × UInt64) :=
  [(1, .eq, 0x5412), (0, .le, 2), (1, .eq, 0x541c)]

/-- Each is a group of its own in either order, and the last one alone is enough. -/
theorem groups_keep_conditions_repeated :
    terminalRequests.Perm terminalRequests.reverse ∧
      (groups terminalRequests).length = 3 ∧
      (∀ group ∈ groups terminalRequests, group.length = 1) ∧
      (∃ group ∈ groups terminalRequests, group.all (fun c => c.1.holds c.2 0x541c) = true) ∧
      ofIndices (terminalRequests.map (·.1)) = ofIndices (terminalRequests.reverse.map (·.1)) := by
  obtain ⟨-, -, -, -, hsingle, hmeaning, -, horder⟩ := groups_keep_conditions terminalRequests
  have hlength : (groups terminalRequests).length = 3 := by decide
  have hperm : terminalRequests.Perm terminalRequests.reverse := (List.reverse_perm _).symm
  have hrepeated : ¬(terminalRequests.map (·.1)).Nodup := by decide
  have hlast : ∃ c ∈ terminalRequests, c.2.1.holds c.2.2 0x541c = true :=
    ⟨(1, .eq, 0x541c), by decide, by decide⟩
  refine ⟨hperm, hlength, hsingle ?_, (hmeaning _).mpr (.inr ⟨hrepeated, hlast⟩), horder _ hperm⟩
  rw [hlength]
  decide

end SyscallPolicy.Combination
