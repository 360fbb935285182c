import Mathlib.Data.List.Induction
import SyscallPolicy.Verdict

/-! Verdicts as return values, and which verdict counts among the answers of several programs. -/
namespace SyscallPolicy.Verdict

/-- A verdict as it comes back from a program: of a code only the lower half is left. -/
def returned : Verdict → Verdict
  | trace code => trace (code % 0x10000)
  | errno code => errno (code % 0x10000)
  | v => v

@[simp] theorem rank_returned (v : Verdict) : v.returned.rank = v.rank := by
  cases v <;> rfl

private theorem and_lowerHalf (code : UInt32) : code &&& 0xffff = code % 0x10000 := by
  apply UInt32.toNat_inj.mp
  rw [UInt32.toNat_and, UInt32.toNat_mod]
  exact Nat.and_two_pow_sub_one_eq_mod code.toNat 16

private theorem or_and_distrib (a b c : UInt32) : (a ||| b) &&& c = (a &&& c) ||| (b &&& c) := by
  apply UInt32.toNat_inj.mp
  rw [UInt32.toNat_and, UInt32.toNat_or, UInt32.toNat_or, UInt32.toNat_and, UInt32.toNat_and,
    Nat.and_or_distrib_right]

private theorem coded_and_upperHalf (kind code : UInt32) :
    (kind ||| (code &&& 0xffff)) &&& 0xffff0000 = kind &&& 0xffff0000 := by
  rw [or_and_distrib, UInt32.and_assoc, show (0xffff &&& 0xffff0000 : UInt32) = 0 from rfl,
    UInt32.and_zero, UInt32.or_zero]

private theorem coded_and_lowerHalf (kind code : UInt32) (hkind : kind &&& 0xffff = 0) :
    (kind ||| (code &&& 0xffff)) &&& 0xffff = code % 0x10000 := by
  rw [or_and_distrib, UInt32.and_assoc, UInt32.and_self, hkind, UInt32.zero_or, and_lowerHalf]

/-- The kernel reads a return value back as the verdict it was made of. -/
theorem ofWord_word (v : Verdict) : ofWord v.word = v.returned := by
  cases v with
  | trace code =>
    simp only [ofWord, word, coded_and_upperHalf, coded_and_lowerHalf 0x7ff00000 code rfl]
    rfl
  | errno code =>
    simp only [ofWord, word, coded_and_upperHalf, coded_and_lowerHalf 0x00050000 code rfl]
    rfl
  | _ => rfl

@[simp] theorem stops_returned (v : Verdict) : v.returned.stops = v.stops := by
  cases v <;> rfl

theorem eq_allow_of_rank_eq_zero {v : Verdict} (h : v.rank = 0) : v = allow := by
  cases v <;> simp_all [rank]

theorem strictest_concat (verdicts : List Verdict) (v : Verdict) :
    strictest (verdicts ++ [v]) =
      if (strictest verdicts).rank < v.rank then v else strictest verdicts := by
  rw [strictest, List.foldl_append]
  rfl

theorem strictest_eq_allow_or_mem (verdicts : List Verdict) :
    strictest verdicts = allow ∨ strictest verdicts ∈ verdicts := by
  induction verdicts using List.reverseRecOn with
  | nil => exact Or.inl rfl
  | append_singleton verdicts v ih =>
    rw [strictest_concat]
    split
    · exact Or.inr (List.mem_append_right _ (List.mem_singleton_self v))
    · exact ih.imp_right (List.mem_append_left _)

theorem stops_eq_false_iff {v : Verdict} : v.stops = false ↔ v.rank ≤ 1 := by
  cases v <;> simp [stops, rank]

theorem rank_le_strictest {verdicts : List Verdict} {v : Verdict} (h : v ∈ verdicts) :
    v.rank ≤ (strictest verdicts).rank := by
  induction verdicts using List.reverseRecOn with
  | nil => exact absurd h List.not_mem_nil
  | append_singleton verdicts w ih =>
    rw [strictest_concat]
    have hv : v.rank ≤ (strictest verdicts).rank ∨ v = w := by
      rcases List.mem_append.mp h with h | h
      · exact Or.inl (ih h)
      · exact Or.inr (List.mem_singleton.mp h)
    split
    · next hlt =>
      rcases hv with hv | rfl
      · omega
      · exact Nat.le_refl _
    · next hle =>
      rcases hv with hv | rfl
      · exact hv
      · omega

theorem stops_strictest {verdicts : List Verdict} (h : ∀ v ∈ verdicts, v.stops = false) :
    (strictest verdicts).stops = false := by
  rcases strictest_eq_allow_or_mem verdicts with heq | hmem
  · rw [heq]
    rfl
  · exact h _ hmem

/-- A verdict that does not stop a call makes no difference in front of others, but that a call may
be logged. -/
theorem strictest_cons_of_stops_eq_false {v : Verdict} (h : v.stops = false)
    (verdicts : List Verdict) :
    strictest (v :: verdicts) = strictest verdicts ∨
      (strictest (v :: verdicts)).stops = false ∧ (strictest verdicts).stops = false := by
  -- From the last verdict on: the first one that stops the call makes both lists agree.
  induction verdicts using List.reverseRecOn with
  | nil => exact Or.inr ⟨stops_strictest (by simpa using h), rfl⟩
  | append_singleton verdicts w ih =>
    rw [← List.cons_append, strictest_concat, strictest_concat]
    rcases ih with heq | ⟨hcons, hrest⟩
    · rw [heq]
      exact Or.inl rfl
    · cases hstops : w.stops with
      | true =>
        have hw : ¬w.rank ≤ 1 := by
          rw [← stops_eq_false_iff, hstops]
          exact Bool.noConfusion
        rw [stops_eq_false_iff] at hcons hrest
        rw [if_pos (by omega), if_pos (by omega)]
        exact Or.inl rfl
      | false =>
        right
        constructor <;> split <;> assumption

theorem strictest_eq_of_forall {verdicts : List Verdict} {v : Verdict} (hne : verdicts ≠ [])
    (h : ∀ w ∈ verdicts, w = v) : strictest verdicts = v := by
  obtain ⟨w, hw⟩ := List.exists_mem_of_ne_nil verdicts hne
  rcases strictest_eq_allow_or_mem verdicts with hallow | hmem
  · have hrank := rank_le_strictest hw
    rw [hallow, h w hw] at hrank
    rw [hallow, eq_allow_of_rank_eq_zero (Nat.le_zero.mp hrank)]
  · exact h _ hmem

/-- The verdict that counts among candidates: a strictest one, and of several the one that comes
last in an order of verdicts. -/
structure Decides (order candidates : List Verdict) (v : Verdict) : Prop where
  mem : v ∈ candidates
  rank_le : ∀ w ∈ candidates, w.rank ≤ v.rank
  last : ∀ w ∈ candidates, w.rank = v.rank → w ≠ v → [w, v].Sublist order

/-- Two entries of a list without repetitions come in one order only. -/
private theorem not_sublist_swap {order : List Verdict} (hnodup : order.Nodup) {v w : Verdict}
    (hvw : [v, w].Sublist order) : ¬[w, v].Sublist order := by
  induction order with
  | nil => exact absurd hvw (by simp)
  | cons u order ih =>
    obtain ⟨hu, hnodup⟩ := List.nodup_cons.mp hnodup
    intro hwv
    cases hvw with
    | cons _ hvw =>
      cases hwv with
      | cons _ hwv => exact ih hnodup hvw hwv
      | cons_cons _ hwv => exact hu (hvw.subset (by simp))
    | cons_cons _ hvw =>
      cases hwv with
      | cons _ hwv => exact hu (hwv.subset (by simp))
      | cons_cons _ hwv => exact hu (hwv.subset (by simp))

/-- At most one verdict decides. -/
theorem Decides.unique {order candidates : List Verdict} {v w : Verdict} (hnodup : order.Nodup)
    (hv : Decides order candidates v) (hw : Decides order candidates w) : w = v := by
  have hrank : w.rank = v.rank := Nat.le_antisymm (hv.rank_le w hw.mem) (hw.rank_le v hv.mem)
  by_cases heq : w = v
  · exact heq
  · exact absurd (hw.last v hv.mem hrank.symm (Ne.symm heq))
      (not_sublist_swap hnodup (hv.last w hw.mem hrank heq))

/-- What a program answers that is for one verdict and allows all calls that this is not a
candidate for. -/
def answer (candidates : List Verdict) (v : Verdict) : Verdict :=
  if v ∈ candidates then v else allow

theorem answer_of_mem {candidates : List Verdict} {v : Verdict} (h : v ∈ candidates) :
    answer candidates v = v := if_pos h

theorem answer_of_not_mem {candidates : List Verdict} {v : Verdict} (h : v ∉ candidates) :
    answer candidates v = allow := if_neg h

section
variable {order candidates candidates' : List Verdict} {v : Verdict}

theorem Decides.congr (hmem : ∀ w, w ∈ candidates ↔ w ∈ candidates')
    (h : Decides order candidates v) : Decides order candidates' v where
  mem := (hmem v).mp h.mem
  rank_le w hw := h.rank_le w ((hmem w).mpr hw)
  last w hw := h.last w ((hmem w).mpr hw)

theorem answer_congr (hmem : ∀ w, w ∈ candidates ↔ w ∈ candidates') :
    answer candidates v = answer candidates' v := by
  simp only [answer, hmem]

end

/-- The verdict that is ahead of the candidates among the verdicts of an order, to allow the call
if none of them is stricter. -/
private structure Leads (order candidates : List Verdict) (v : Verdict) : Prop where
  mem : v = allow ∨ v ∈ candidates ∧ v ∈ order
  rank_le : ∀ w ∈ candidates, w ∈ order → w.rank ≤ v.rank
  last : ∀ w ∈ candidates, w ∈ order → w.rank = v.rank → w ≠ v → [w, v].Sublist order

section
variable {order candidates : List Verdict} {u v : Verdict}

private theorem leads_nil : Leads [] candidates allow :=
  ⟨Or.inl rfl, fun _ _ h => absurd h List.not_mem_nil, fun _ _ h => absurd h List.not_mem_nil⟩

/-- The earlier program of a verdict that is no candidate changes nothing. -/
private theorem Leads.pass (h : Leads order candidates v) (hu : u ∉ candidates) :
    Leads (u :: order) candidates v where
  mem := h.mem.imp_right fun hv => ⟨hv.1, List.mem_cons_of_mem u hv.2⟩
  rank_le w hw hmem := by
    rcases List.mem_cons.mp hmem with rfl | hmem
    · exact absurd hw hu
    · exact h.rank_le w hw hmem
  last w hw hmem hrank hne := by
    rcases List.mem_cons.mp hmem with rfl | hmem
    · exact absurd hw hu
    · exact (h.last w hw hmem hrank hne).cons u

/-- Nor does that of a verdict that is no stricter. -/
private theorem Leads.keep (h : Leads order candidates v) (hu : u.rank ≤ v.rank) :
    Leads (u :: order) candidates v where
  mem := h.mem.imp_right fun hv => ⟨hv.1, List.mem_cons_of_mem u hv.2⟩
  rank_le w hw hmem := by
    rcases List.mem_cons.mp hmem with rfl | hmem
    · exact hu
    · exact h.rank_le w hw hmem
  last w hw hmem hrank hne := by
    rcases List.mem_cons.mp hmem with rfl | hmem
    · rcases h.mem with rfl | ⟨_, hv⟩
      · exact absurd (eq_allow_of_rank_eq_zero hrank) hne
      · exact (List.singleton_sublist.mpr hv).cons_cons w
    · exact (h.last w hw hmem hrank hne).cons u

private theorem Leads.overtake (h : Leads order candidates v) (hu : u ∈ candidates)
    (hlt : v.rank < u.rank) : Leads (u :: order) candidates u where
  mem := Or.inr ⟨hu, List.mem_cons_self⟩
  rank_le w hw hmem := by
    rcases List.mem_cons.mp hmem with rfl | hmem
    · exact Nat.le_refl _
    · exact Nat.le_of_lt (Nat.lt_of_le_of_lt (h.rank_le w hw hmem) hlt)
  last w hw hmem hrank hne := by
    rcases List.mem_cons.mp hmem with rfl | hmem
    · exact absurd rfl hne
    · have hle := h.rank_le w hw hmem
      omega

private theorem Leads.decides (h : Leads order candidates v) (hne : candidates ≠ [])
    (horder : ∀ w ∈ candidates, w ≠ allow → w ∈ order) : Decides order candidates v := by
  have hrank : ∀ w ∈ candidates, w.rank ≤ v.rank := by
    intro w hw
    by_cases hallow : w = allow
    · rw [hallow]; exact Nat.zero_le _
    · exact h.rank_le w hw (horder w hw hallow)
  refine ⟨?_, hrank, ?_⟩
  · rcases h.mem with rfl | hv
    · obtain ⟨w, hw⟩ := List.exists_mem_of_ne_nil candidates hne
      rwa [← eq_allow_of_rank_eq_zero (Nat.le_zero.mp (hrank w hw))]
    · exact hv.1
  · intro w hw heq hwv
    refine h.last w hw (horder w hw ?_) heq hwv
    rintro rfl
    exact hwv (eq_allow_of_rank_eq_zero heq.symm).symm

end

private theorem exists_leads (order candidates : List Verdict) :
    ∃ v, Leads order candidates v ∧
      strictest (order.reverse.map fun v => (answer candidates v).returned) = v.returned := by
  induction order with
  | nil => exact ⟨allow, leads_nil, rfl⟩
  | cons u order ih =>
    obtain ⟨v, hv, hstrictest⟩ := ih
    rw [List.reverse_cons, List.map_append, List.map_singleton, strictest_concat, hstrictest,
      rank_returned, rank_returned]
    by_cases hu : u ∈ candidates
    · rw [answer_of_mem hu]
      by_cases hlt : v.rank < u.rank
      · exact ⟨u, hv.overtake hu hlt, if_pos hlt⟩
      · exact ⟨v, hv.keep (Nat.le_of_not_lt hlt), if_neg hlt⟩
    · rw [answer_of_not_mem hu]
      exact ⟨v, hv.pass hu, if_neg (Nat.not_lt_zero _)⟩

/-- Among programs that are each for one verdict, the strictest answer, the latest first, is that
of the verdict that decides among the candidates. -/
theorem exists_decides {order candidates : List Verdict} (hne : candidates ≠ [])
    (horder : ∀ v ∈ candidates, v ≠ allow → v ∈ order) :
    ∃ v, Decides order candidates v ∧
      strictest (order.reverse.map fun v => (answer candidates v).returned) = v.returned := by
  obtain ⟨v, hv, hstrictest⟩ := exists_leads order candidates
  exact ⟨v, hv.decides hne horder, hstrictest⟩

end SyscallPolicy.Verdict
