import SyscallPolicy.Text.Symbol

/-! The bytes of a text in UTF-8 are read as the symbols of the text, none of them stray, and no
other bytes are. -/
namespace SyscallPolicy.Text.Symbol
open String (utf8EncodeChar)

theorem scalar?_eq {least n : Nat} {c : Char} (hn : n = c.toNat) (h : least ≤ n) :
    scalar? least n = some c := by
  subst hn
  rw [scalar?, if_pos ⟨h, c.valid⟩, Char.ofNat_toNat]

/-- A byte that continues a character carries six bits. -/
theorem continuation?_ofNat {n : Nat} (h : n < 64) :
    continuation? (UInt8.ofNat (n + 0x80)) = some n := by
  have hlt : n + 0x80 < 0x100 := by omega
  have hbyte : (UInt8.ofNat (n + 0x80)).toNat = n + 0x80 := UInt8.toNat_ofNat_of_lt' hlt
  have hrange : 0x80 ≤ UInt8.ofNat (n + 0x80) ∧ UInt8.ofNat (n + 0x80) ≤ 0xbf := by
    simp only [UInt8.le_iff_toNat_le, hbyte, UInt8.reduceToNat]
    omega
  rw [continuation?, if_pos hrange, hbyte, Nat.add_sub_cancel]

section Leading
variable {a b c d : UInt8} {n x y z : Nat} (rest : List UInt8)

theorem leading?_one (h : a.toNat < 0x80) : leading? a rest = some (Char.ofNat a.toNat, 0) := by
  rw [leading?, if_pos (UInt8.lt_iff_toNat_lt.mpr h)]

theorem leading?_two (ha : a.toNat = n + 0xc0) (hn : n < 0x20) (hb : continuation? b = some x) :
    leading? a (b :: rest) = (scalar? 0x80 (n * 64 + x)).map (·, 1) := by
  simp only [leading?, UInt8.lt_iff_toNat_lt, UInt8.le_iff_toNat_le, ha, UInt8.reduceToNat]
  rw [if_neg (by omega), if_pos (by omega)]
  simp only [List.getElem?_cons_zero, Option.bind_eq_bind, Option.bind_some, hb, Nat.add_sub_cancel]
  cases scalar? 0x80 (n * 64 + x) <;> rfl

theorem leading?_three (ha : a.toNat = n + 0xe0) (hn : n < 0x10) (hb : continuation? b = some x)
    (hc : continuation? c = some y) :
    leading? a (b :: c :: rest) = (scalar? 0x800 ((n * 64 + x) * 64 + y)).map (·, 2) := by
  simp only [leading?, UInt8.lt_iff_toNat_lt, UInt8.le_iff_toNat_le, ha, UInt8.reduceToNat]
  rw [if_neg (by omega), if_neg (by omega), if_pos (by omega)]
  simp only [List.getElem?_cons_zero, List.getElem?_cons_succ, Option.bind_eq_bind,
    Option.bind_some, hb, hc, Nat.add_sub_cancel]
  cases scalar? 0x800 ((n * 64 + x) * 64 + y) <;> rfl

theorem leading?_four (ha : a.toNat = n + 0xf0) (hn : n < 8) (hb : continuation? b = some x)
    (hc : continuation? c = some y) (hd : continuation? d = some z) :
    leading? a (b :: c :: d :: rest) =
      (scalar? 0x10000 (((n * 64 + x) * 64 + y) * 64 + z)).map (·, 3) := by
  simp only [leading?, UInt8.lt_iff_toNat_lt, UInt8.le_iff_toNat_le, ha, UInt8.reduceToNat]
  rw [if_neg (by omega), if_neg (by omega), if_neg (by omega), if_pos (by omega)]
  simp only [List.getElem?_cons_zero, List.getElem?_cons_succ, Option.bind_eq_bind,
    Option.bind_some, hb, hc, hd, Nat.add_sub_cancel]
  cases scalar? 0x10000 (((n * 64 + x) * 64 + y) * 64 + z) <;> rfl

end Leading

/-- The first byte of an encoded character tells how many more there are. -/
theorem exists_leading (c : Char) (rest : List UInt8) :
    ∃ first more, utf8EncodeChar c = first :: more ∧
      leading? first (more ++ rest) = some (c, more.length) := by
  have hmax : c.toNat < 0x110000 := by
    rcases c.valid with h | h
    · exact Nat.lt_trans h (by decide)
    · exact h.2
  have hcontinuation : ∀ n, continuation? (UInt8.ofNat (n % 64 + 0x80)) = some (n % 64) :=
    fun n => continuation?_ofNat (Nat.mod_lt n (by decide))
  have hbyte : ∀ {n}, n < 0x100 → (UInt8.ofNat n).toNat = n := fun h => UInt8.toNat_ofNat_of_lt' h
  fun_cases utf8EncodeChar c with
  | case1 v hone =>
    have hfirst : (UInt8.ofNat v).toNat = v := hbyte (by omega)
    refine ⟨_, _, rfl, ?_⟩
    rw [leading?_one _ (by omega), hfirst]
    exact congrArg (fun c => some (c, 0)) (Char.ofNat_toNat c)
  | case2 v hone htwo =>
    refine ⟨_, _, rfl, ?_⟩
    change leading? _ (_ :: rest) = _
    rw [leading?_two rest (hbyte (by omega)) (by omega) (hcontinuation v),
      scalar?_eq (c := c) (show v / 64 % 32 * 64 + v % 64 = v by omega) (by omega)]
    rfl
  | case3 v _ htwo hthree =>
    refine ⟨_, _, rfl, ?_⟩
    change leading? _ (_ :: _ :: rest) = _
    rw [leading?_three rest (hbyte (by omega)) (by omega) (hcontinuation _) (hcontinuation v),
      scalar?_eq (c := c) (show (v / 4096 % 16 * 64 + v / 64 % 64) * 64 + v % 64 = v by omega) (by omega)]
    rfl
  | case4 v _ _ hthree =>
    have hv : v < 0x110000 := hmax
    refine ⟨_, _, rfl, ?_⟩
    change leading? _ (_ :: _ :: _ :: rest) = _
    rw [leading?_four rest (hbyte (by omega)) (by omega) (hcontinuation _) (hcontinuation _)
        (hcontinuation v),
      scalar?_eq (c := c) (show ((v / 262144 % 8 * 64 + v / 4096 % 64) * 64 + v / 64 % 64) * 64 + v % 64 = v
        by omega) (by omega)]
    rfl

theorem ofBytesFrom_append (taken rest : List UInt8) :
    ofBytesFrom taken.length (taken ++ rest) = ofBytesFrom 0 rest := by
  induction taken with
  | nil => rfl
  | cons byte taken ih => exact ih

/-- An encoded character is read as itself, and reading goes on behind it. -/
theorem ofBytesFrom_encoded (c : Char) (rest : List UInt8) :
    ofBytesFrom 0 (utf8EncodeChar c ++ rest) = .char c :: ofBytesFrom 0 rest := by
  obtain ⟨first, more, hbytes, hread⟩ := exists_leading c rest
  rw [hbytes, List.cons_append, ofBytesFrom, hread]
  exact congrArg (char c :: ·) (ofBytesFrom_append more rest)

theorem toList_toUTF8 (text : String) :
    text.toUTF8.data.toList = text.toList.flatMap utf8EncodeChar := by
  have hbytes : text.toByteArray = text.toList.utf8Encode := by
    rw [← String.toByteArray_ofList, String.ofList_toList]
  rw [String.toUTF8_eq_toByteArray, hbytes, List.utf8Encode, List.data_toByteArray]

/-- Text reads the same from a stream of its bytes as from a string. -/
theorem ofBytes_toUTF8 (text : String) : ofBytes text.toUTF8.data.toList = ofString text := by
  rw [toList_toUTF8, ofBytes, ofString]
  induction text.toList with
  | nil => rfl
  | cons c cs ih => rw [List.flatMap_cons, ofBytesFrom_encoded, ih, List.map_cons]

section Encoded
variable {a : UInt8} {rest : List UInt8} {c : Char} {n taken : Nat}

theorem of_continuation? {byte : UInt8} (h : continuation? byte = some n) :
    n < 64 ∧ byte = UInt8.ofNat (n + 0x80) := by
  unfold continuation? at h
  split at h
  · next hrange =>
    simp only [UInt8.le_iff_toNat_le, UInt8.reduceToNat] at hrange
    have hn : byte.toNat - 0x80 = n := Option.some.inj h
    have hbyte : n + 0x80 = byte.toNat := by omega
    exact ⟨by omega, by rw [hbyte, UInt8.ofNat_toNat]⟩
  · exact nomatch h

/-- A byte that continues a character stands in its place. -/
theorem of_continuation?_getElem? {i : Nat} (h : rest[i]?.bind continuation? = some n) :
    n < 64 ∧ rest[i]?.toList = [UInt8.ofNat (n + 0x80)] := by
  obtain ⟨byte, hbyte, hn⟩ := Option.bind_eq_some_iff.mp h
  obtain ⟨hlt, rfl⟩ := of_continuation? hn
  rw [hbyte]
  exact ⟨hlt, rfl⟩

theorem of_scalar? {least : Nat} (h : scalar? least n = some c) :
    least ≤ n ∧ c.val.toNat = n := by
  unfold scalar? at h
  split at h
  · next hscalar =>
    cases h
    refine ⟨hscalar.1, ?_⟩
    rw [Char.ofNat, dif_pos hscalar.2]
    rfl
  · exact nomatch h

/-- A character that is read takes the bytes that encode it. -/
theorem encoded_of_leading (h : leading? a rest = some (c, taken)) :
    a :: rest.take taken = utf8EncodeChar c := by
  have hfirst : ∀ {n}, a.toNat = n → a = UInt8.ofNat n := fun h => by rw [← h, UInt8.ofNat_toNat]
  simp only [leading?, UInt8.lt_iff_toNat_lt, UInt8.le_iff_toNat_le, UInt8.reduceToNat,
    Option.bind_eq_bind] at h
  split at h
  · next hone =>
    cases h
    have hvalue : (Char.ofNat a.toNat).val.toNat = a.toNat := by
      rw [Char.ofNat, dif_pos (.inl (by omega))]
      rfl
    rw [utf8EncodeChar, hvalue, if_pos (by omega), UInt8.ofNat_toNat]
    rfl
  split at h
  · next htwo =>
    obtain ⟨x, hx, h⟩ := Option.bind_eq_some_iff.mp h
    obtain ⟨c', hc, hpair⟩ := Option.bind_eq_some_iff.mp h
    cases hpair
    obtain ⟨hx, hb⟩ := of_continuation?_getElem? hx
    obtain ⟨hleast, hvalue⟩ := of_scalar? hc
    simp only [utf8EncodeChar, hvalue, List.take_add_one, List.take_zero, hb, List.nil_append]
    rw [if_neg (by omega), if_pos (by omega)]
    simp only [List.cons.injEq, and_true]
    exact ⟨hfirst (by omega), congrArg UInt8.ofNat (by omega)⟩
  split at h
  · next hthree =>
    obtain ⟨x, hx, h⟩ := Option.bind_eq_some_iff.mp h
    obtain ⟨y, hy, h⟩ := Option.bind_eq_some_iff.mp h
    obtain ⟨c', hc, hpair⟩ := Option.bind_eq_some_iff.mp h
    cases hpair
    obtain ⟨hx, hb⟩ := of_continuation?_getElem? hx
    obtain ⟨hy, hd⟩ := of_continuation?_getElem? hy
    obtain ⟨hleast, hvalue⟩ := of_scalar? hc
    simp only [utf8EncodeChar, hvalue, List.take_add_one, List.take_zero, hb, hd, List.nil_append]
    rw [if_neg (by omega), if_neg (by omega), if_pos (by omega)]
    simp only [List.cons_append, List.nil_append, List.cons.injEq, and_true]
    exact ⟨hfirst (by omega), congrArg UInt8.ofNat (by omega), congrArg UInt8.ofNat (by omega)⟩
  split at h
  · next hfour =>
    obtain ⟨x, hx, h⟩ := Option.bind_eq_some_iff.mp h
    obtain ⟨y, hy, h⟩ := Option.bind_eq_some_iff.mp h
    obtain ⟨z, hz, h⟩ := Option.bind_eq_some_iff.mp h
    obtain ⟨c', hc, hpair⟩ := Option.bind_eq_some_iff.mp h
    cases hpair
    obtain ⟨hx, hb⟩ := of_continuation?_getElem? hx
    obtain ⟨hy, hd⟩ := of_continuation?_getElem? hy
    obtain ⟨hz, he⟩ := of_continuation?_getElem? hz
    obtain ⟨hleast, hvalue⟩ := of_scalar? hc
    simp only [utf8EncodeChar, hvalue, List.take_add_one, List.take_zero, hb, hd, he,
      List.nil_append]
    rw [if_neg (by omega), if_neg (by omega), if_neg (by omega)]
    simp only [List.cons_append, List.nil_append, List.cons.injEq, and_true]
    exact ⟨hfirst (by omega), congrArg UInt8.ofNat (by omega), congrArg UInt8.ofNat (by omega),
      congrArg UInt8.ofNat (by omega)⟩
  · exact nomatch h

/-- Bytes without a stray one among them are the encoding of their characters. -/
theorem encoded_of_ofBytesFrom {bytes : List UInt8} {cs : List Char}
    (h : (ofBytesFrom taken bytes).mapM char? = some cs) :
    bytes.drop taken = cs.flatMap utf8EncodeChar := by
  fun_induction ofBytesFrom taken bytes generalizing cs with
  | case1 taken =>
    cases h
    exact List.drop_nil
  | case2 taken a rest ih => exact ih h
  | case3 a rest c taken hread ih =>
    simp only [List.mapM_cons, char?, Option.bind_eq_bind, Option.bind_some,
      Option.bind_eq_some_iff] at h
    obtain ⟨more, hmore, hcs⟩ := h
    cases hcs
    rw [List.flatMap_cons, ← ih hmore, ← encoded_of_leading hread, List.cons_append,
      List.take_append_drop, List.drop_zero]
  | case4 a rest hread ih =>
    simp [List.mapM_cons, char?] at h

/-- Bytes hold text exactly if they are its encoding. -/
theorem text?_ofBytes_eq_some_iff {bytes : List UInt8} {text : String} :
    text? (ofBytes bytes) = some text ↔ bytes = text.toUTF8.data.toList := by
  constructor
  · intro h
    obtain ⟨cs, hcs, rfl⟩ := Option.map_eq_some_iff.mp h
    rw [toList_toUTF8, String.toList_ofList, ← encoded_of_ofBytesFrom hcs, List.drop_zero]
  · rintro rfl
    rw [ofBytes_toUTF8, text?_ofString]

end Encoded

end SyscallPolicy.Text.Symbol
