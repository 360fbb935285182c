import SyscallPolicy.Filter
import SyscallPolicy.Proofs.Lists

/-! The filters that accepted requests lead to, and what holds of all of them. -/
namespace SyscallPolicy.Filter

/-- A filter that starts without rules and takes requests one after the other. -/
inductive Reachable : Filter → Prop where
  | empty (verdict : Verdict) : Reachable (.empty verdict)
  | apply {filter next : Filter} (request : Request) : Reachable filter →
      filter.apply request = .ok next → Reachable next

/-- No rule of a sound filter is for a negative number or repeats the default verdict. -/
structure Sound (filter : Filter) : Prop where
  number_nonneg : ∀ rule ∈ filter.rules, 0 ≤ rule.number
  verdict_ne : ∀ rule ∈ filter.rules, rule.verdict ≠ filter.verdict

theorem addRule_eq_ok {filter next : Filter} {rule : Rule} (h : filter.addRule rule = .ok next) :
    0 ≤ rule.number ∧ rule.verdict ≠ filter.verdict ∧
      next = { filter with rules := filter.rules ++ [rule] } := by
  unfold addRule at h
  split at h
  · cases h
  · next hnumber =>
    split at h
    · cases h
    · next hverdict =>
      cases h
      exact ⟨Int.not_lt.mp hnumber, hverdict, rfl⟩

theorem Sound.addRule {filter next : Filter} {rule : Rule} (hs : filter.Sound)
    (h : filter.addRule rule = .ok next) : next.Sound := by
  obtain ⟨hnumber, hverdict, rfl⟩ := addRule_eq_ok h
  constructor
  · intro r hr
    rcases List.mem_append.mp hr with hr | hr
    · exact hs.number_nonneg r hr
    · rw [List.mem_singleton.mp hr]; exact hnumber
  · intro r hr
    rcases List.mem_append.mp hr with hr | hr
    · exact hs.verdict_ne r hr
    · rw [List.mem_singleton.mp hr]; exact hverdict

theorem Sound.apply {filter next : Filter} {request : Request} (hs : filter.Sound)
    (h : filter.apply request = .ok next) : next.Sound := by
  cases request with
  | addArchitecture architecture =>
    cases h
    unfold addArchitecture
    by_cases hmem : architecture ∈ filter.architectures
    · rwa [if_pos hmem]
    · rw [if_neg hmem]
      exact ⟨hs.number_nonneg, hs.verdict_ne⟩
  | setNoNewPrivs on =>
    cases h
    exact ⟨hs.number_nonneg, hs.verdict_ne⟩
  | addRule number verdict => exact hs.addRule h
  | addConditionalRule number verdict conditions =>
    simp only [Filter.apply] at h
    split at h
    · cases h
    · exact hs.addRule h

theorem Reachable.sound {filter : Filter} (h : filter.Reachable) : filter.Sound := by
  induction h with
  | empty verdict =>
    exact ⟨fun _ h => absurd h List.not_mem_nil, fun _ h => absurd h List.not_mem_nil⟩
  | apply request _ happly ih => exact ih.apply happly

theorem Reachable.foldlM {filter next : Filter} {requests : List Request} (hr : filter.Reachable)
    (h : requests.foldlM Filter.apply filter = .ok next) : next.Reachable := by
  induction requests generalizing filter with
  | nil =>
    rw [List.foldlM_nil, pure_eq_ok] at h
    rwa [← h]
  | cons request requests ih =>
    rw [List.foldlM_cons, bind_eq_ok] at h
    obtain ⟨between, happly, h⟩ := h
    exact ih (hr.apply request happly) h

/-- The reachable filters are those that sequences of accepted requests end in. -/
theorem reachable_iff {filter : Filter} :
    filter.Reachable ↔ ∃ verdict requests,
      List.foldlM Filter.apply (Filter.empty verdict) requests = .ok filter := by
  constructor
  · intro h
    induction h with
    | empty verdict => exact ⟨verdict, [], rfl⟩
    | apply request _ happly ih =>
      obtain ⟨verdict, requests, hrequests⟩ := ih
      refine ⟨verdict, requests ++ [request], ?_⟩
      rw [List.foldlM_append]
      exact bind_eq_ok.mpr ⟨_, hrequests, bind_eq_ok.mpr ⟨_, happly, rfl⟩⟩
  · rintro ⟨verdict, requests, h⟩
    exact (Reachable.empty verdict).foldlM h

end SyscallPolicy.Filter
