import SyscallPolicy.Bpf.Instr

/-! Long words by their halves. A program sees an argument only in two loads of 32 bits, so each
comparison of long words has to be read off comparisons of the halves. -/
namespace SyscallPolicy.Bpf

theorem toNat_low (word : UInt64) : (low word).toNat = word.toNat % 0x100000000 := by
  simp [low]

theorem toNat_high (word : UInt64) : (high word).toNat = word.toNat / 0x100000000 := by
  have hlt := word.toNat_lt
  simp only [high, UInt64.toNat_toUInt32, UInt64.toNat_shiftRight, Nat.shiftRight_eq_div_pow]
  simp only [UInt64.reduceToNat, Nat.reduceMod]
  omega

@[simp] theorem low_and (a b : UInt64) : low (a &&& b) = low a &&& low b := by
  simp [low]

@[simp] theorem high_and (a b : UInt64) : high (a &&& b) = high a &&& high b := by
  apply UInt32.toNat_inj.mp
  rw [UInt32.toNat_and, toNat_high, toNat_high, toNat_high, UInt64.toNat_and]
  exact Nat.and_div_two_pow (n := 32)

theorem eq_iff_halves (a b : UInt64) : a = b ↔ high a = high b ∧ low a = low b := by
  rw [← UInt64.toNat_inj, ← UInt32.toNat_inj, ← UInt32.toNat_inj, toNat_high, toNat_high,
    toNat_low, toNat_low]
  omega

theorem lt_iff_halves (a b : UInt64) :
    a < b ↔ high a < high b ∨ high a = high b ∧ low a < low b := by
  rw [UInt64.lt_iff_toNat_lt, UInt32.lt_iff_toNat_lt, UInt32.lt_iff_toNat_lt, ← UInt32.toNat_inj,
    toNat_high, toNat_high, toNat_low, toNat_low]
  omega

theorem le_iff_halves (a b : UInt64) :
    a ≤ b ↔ high a < high b ∨ high a = high b ∧ low a ≤ low b := by
  rw [UInt64.le_iff_toNat_le, UInt32.lt_iff_toNat_lt, UInt32.le_iff_toNat_le, ← UInt32.toNat_inj,
    toNat_high, toNat_high, toNat_low, toNat_low]
  omega

namespace Call

theorem word?_low (call : Call) (i : Fin 6) :
    call.word? (16 + 8 * i.val) = some (low (call.args i)) := by
  obtain ⟨i, hi⟩ := i
  have hin : 16 ≤ 16 + 8 * i ∧ 16 + 8 * i < 64 := by omega
  have hat : (16 + 8 * i - 16) / 8 = i := by omega
  have hmod : (16 + 8 * i) % 8 = 0 := by omega
  unfold word?
  split <;> try omega
  simp only [dif_pos hin, hat, if_pos hmod]

theorem word?_high (call : Call) (i : Fin 6) :
    call.word? (16 + 8 * i.val + 4) = some (high (call.args i)) := by
  obtain ⟨i, hi⟩ := i
  have hin : 16 ≤ 16 + 8 * i + 4 ∧ 16 + 8 * i + 4 < 64 := by omega
  have hat : (16 + 8 * i + 4 - 16) / 8 = i := by omega
  have hlow : ¬(16 + 8 * i + 4) % 8 = 0 := by omega
  have hmod : (16 + 8 * i + 4) % 8 = 4 := by omega
  unfold word?
  split <;> try omega
  simp only [dif_pos hin, hat, if_neg hlow, if_pos hmod]

end Call

end SyscallPolicy.Bpf
