import Mathlib.Data.List.Forall2
import Mathlib.Data.List.Nodup

/-! Lists related element by element, and computations over lists that can fail. -/
namespace SyscallPolicy

section Elements
variable {α β γ : Type}

theorem map_eq_of_forall₂ {f : α → γ} {g : β → γ} {as : List α} {bs : List β}
    (h : List.Forall₂ (fun a b => f a = g b) as bs) : as.map f = bs.map g := by
  induction h with
  | nil => rfl
  | cons hhead _ ih => rw [List.map_cons, List.map_cons, hhead, ih]

theorem exists_mem_of_forall₂ {R : α → β → Prop} {as : List α} {bs : List β} {b : β}
    (h : List.Forall₂ R as bs) (hb : b ∈ bs) : ∃ a ∈ as, R a b := by
  induction h with
  | nil => cases hb
  | cons hhead _ ih =>
    rcases List.mem_cons.mp hb with rfl | hb
    · exact ⟨_, List.mem_cons_self, hhead⟩
    · obtain ⟨a, ha, hrel⟩ := ih hb
      exact ⟨a, List.mem_cons_of_mem _ ha, hrel⟩

theorem rel_find?_of_forall₂ {R : α → β → Prop} {p : α → Bool} {q : β → Bool} {as : List α}
    {bs : List β} (hsame : ∀ a b, R a b → p a = q b) (h : List.Forall₂ R as bs) :
    Option.Rel R (as.find? p) (bs.find? q) := by
  induction h with
  | nil => exact .none
  | @cons a b as bs hhead _ ih =>
    rw [List.find?_cons, List.find?_cons, ← hsame a b hhead]
    cases p a with
    | true => exact .some hhead
    | false => exact ih

theorem mem_dropLast_cons {a b : α} {as : List α} (h : b ∈ as.dropLast) :
    b ∈ (a :: as).dropLast := by
  rw [List.dropLast_cons_of_ne_nil (List.ne_nil_of_mem (List.dropLast_subset as h))]
  exact List.mem_cons_of_mem a h

theorem eq_take_append_cons_drop {as : List α} {i : Nat} {a : α} (h : as[i]? = some a) :
    as = as.take i ++ a :: as.drop (i + 1) := by
  obtain ⟨hlt, rfl⟩ := List.getElem?_eq_some_iff.mp h
  rw [← List.drop_eq_getElem_cons hlt, List.take_append_drop]

theorem nodup_eraseDups [BEq α] [LawfulBEq α] (l : List α) : l.eraseDups.Nodup := by
  induction h : l.length using Nat.strongRecOn generalizing l with
  | ind n ih =>
    cases l with
    | nil => exact List.nodup_nil
    | cons a l =>
      have hlength := List.length_filter_le (fun b => !b == a) l
      rw [List.length_cons] at h
      rw [List.eraseDups_cons, List.nodup_cons, List.mem_eraseDups]
      exact ⟨by simp, ih _ (by omega) _ rfl⟩

theorem eraseDups_concat [DecidableEq α] (l : List α) (a : α) :
    (l ++ [a]).eraseDups = if a ∈ l then l.eraseDups else l.eraseDups ++ [a] := by
  have hsingle : [a].eraseDups = [a] := by simp [List.eraseDups_cons]
  rw [List.eraseDups_append]
  by_cases hmem : a ∈ l
  · have hnone : [a].removeAll l = [] := by simp [List.removeAll, hmem]
    rw [if_pos hmem, hnone, List.eraseDups_nil, List.append_nil]
  · have hnew : [a].removeAll l = [a] := by simp [List.removeAll, hmem]
    rw [if_neg hmem, hnew, hsingle]

/-- Where at most one element passes a test, listing it after the others moves it to the end. -/
theorem filter_not_append_filter [DecidableEq α] {p : α → Bool} {as : List α} (hnodup : as.Nodup)
    (hone : (as.filter p).length ≤ 1) :
    as.filter (!p ·) ++ as.filter p = (as.find? p).elim as fun a => as.erase a ++ [a] := by
  cases hfind : as.find? p with
  | none =>
    rw [List.find?_eq_none] at hfind
    rw [List.filter_eq_self.mpr (by simpa using hfind), List.filter_eq_nil_iff.mpr hfind,
      List.append_nil, Option.elim_none]
  | some a =>
    have hpass : p a = true := List.find?_some hfind
    have hmem : a ∈ as.filter p := List.mem_filter.mpr ⟨List.mem_of_find?_eq_some hfind, hpass⟩
    have honly : as.filter p = [a] := by
      obtain ⟨b, hb⟩ := List.length_eq_one_iff.mp
        (Nat.le_antisymm hone (List.length_pos_of_mem hmem))
      rw [hb] at hmem ⊢
      rw [List.mem_singleton.mp hmem]
    have hothers : as.filter (!p ·) = as.erase a := by
      rw [hnodup.erase_eq_filter]
      refine List.filter_congr fun b hb => ?_
      by_cases heq : b = a
      · simp [heq, hpass]
      · have hfail : p b ≠ true := by
          intro hb'
          have hb := List.mem_filter.mpr ⟨hb, hb'⟩
          rw [honly] at hb
          exact heq (List.mem_singleton.mp hb)
        simp [heq, hfail]
    rw [honly, hothers, Option.elim_some]

/-- What stands for the elements that pass a test, or a substitute if there is no such element. -/
theorem mem_ite_filter {p : α → Bool} {f : α → Option β} {as : List α} {substitute : List β}
    {b : β} :
    b ∈ (if as.filter p = [] then substitute else (as.filter p).filterMap f) ↔
      (∃ a ∈ as, p a = true ∧ f a = some b) ∨ b ∈ substitute ∧ ∀ a ∈ as, p a = false := by
  have hempty : as.filter p = [] ↔ ∀ a ∈ as, p a = false := by simp
  split
  · next h =>
    have hnone := hempty.mp h
    constructor
    · exact fun hb => Or.inr ⟨hb, hnone⟩
    · rintro (⟨a, ha, hp, _⟩ | ⟨hb, _⟩)
      · rw [hnone a ha] at hp
        cases hp
      · exact hb
  · next h =>
    simp only [List.mem_filterMap, List.mem_filter, and_assoc]
    exact ⟨Or.inl, fun hb => hb.resolve_right fun hnone => h (hempty.mpr hnone.2)⟩

end Elements

section Failing
variable {ε α β : Type}

theorem bind_eq_ok {x : Except ε α} {f : α → Except ε β} {b : β} :
    x >>= f = .ok b ↔ ∃ a, x = .ok a ∧ f a = .ok b := by
  cases x <;> simp [bind, Except.bind]

theorem pure_eq_ok {a b : α} : (pure a : Except ε α) = .ok b ↔ a = b := by
  simp [pure, Except.pure]

theorem mapError_eq_ok {ε' : Type} {f : ε → ε'} {x : Except ε α} {a : α} :
    x.mapError f = .ok a ↔ x = .ok a := by
  cases x <;> simp [Except.mapError]

theorem mapM_eq_ok {f : α → Except ε β} {as : List α} {bs : List β} :
    as.mapM f = .ok bs ↔ List.Forall₂ (fun a b => f a = .ok b) as bs := by
  induction as generalizing bs with
  | nil =>
    rw [List.mapM_nil, pure_eq_ok, List.forall₂_nil_left_iff, eq_comm]
  | cons a as ih =>
    simp only [List.mapM_cons, bind_eq_ok, pure_eq_ok, ih, List.forall₂_cons_left_iff]
    constructor
    · rintro ⟨b, hb, bs, hbs, rfl⟩
      exact ⟨b, bs, hb, hbs, rfl⟩
    · rintro ⟨b, bs, hb, hbs, rfl⟩
      exact ⟨b, hb, bs, hbs, rfl⟩

theorem mapM_congr {f g : α → Except ε β} {as : List α} (h : ∀ a ∈ as, f a = g a) :
    as.mapM f = as.mapM g := by
  induction as with
  | nil => rfl
  | cons a as ih =>
    rw [List.mapM_cons, List.mapM_cons, h a List.mem_cons_self,
      ih fun b hb => h b (List.mem_cons_of_mem a hb)]

/-- A computation that fails exactly on the elements that pass a test fails on the first of
them. -/
theorem mapM_ite {f : α → Except ε β} {p : α → Bool} {g : α → β} {fault : α → ε} {as : List α}
    (h : ∀ a ∈ as, f a = if p a then .error (fault a) else .ok (g a)) :
    as.mapM f = (as.find? p).elim (.ok (as.map g)) fun a => .error (fault a) := by
  induction as with
  | nil => rfl
  | cons a as ih =>
    rw [List.mapM_cons, h a List.mem_cons_self, ih fun b hb => h b (List.mem_cons_of_mem a hb),
      List.find?_cons]
    cases p a with
    | true => rfl
    | false => cases as.find? p <;> rfl

/-- The first fault in a list is the error of its `mapM`. -/
theorem mapM_eq_error {f : α → Except ε β} {fault : α → Option ε} {as : List α} {e : ε}
    (herror : ∀ a e, fault a = some e → f a = .error e)
    (hok : ∀ a, fault a = none → ∃ b, f a = .ok b) (h : as.findSome? fault = some e) :
    as.mapM f = .error e := by
  induction as with
  | nil => cases h
  | cons a as ih =>
    rw [List.findSome?_cons] at h
    cases hfault : fault a with
    | some e' =>
      rw [hfault] at h
      cases h
      rw [List.mapM_cons, herror a e hfault]
      rfl
    | none =>
      rw [hfault] at h
      obtain ⟨b, hb⟩ := hok a hfault
      rw [List.mapM_cons, hb, ih h]
      rfl

end Failing

end SyscallPolicy
