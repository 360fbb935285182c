import SyscallPolicy.Policy.Printer
import SyscallPolicy.Proofs.Json.Reading

/-! The texts of numbers. A number is read up to its end, and a natural number is read back from its
digits. -/
namespace SyscallPolicy.Json
open Numeral
open Policy.Printer (natural)
open Text (Symbol)

def IsDigits (text : List Char) : Prop := text ≠ [] ∧ ∀ c ∈ text, c.isDigit = true

/-- The digits before the point. A zero stands alone. -/
inductive IsWhole : List Char → Prop where
  | digits {text : List Char} : IsDigits text → (text.head? = some '0' → text = ['0']) →
      IsWhole text

inductive IsFraction : List Char → Prop where
  | none : IsFraction []
  | digits {text : List Char} : IsDigits text → IsFraction ('.' :: text)

inductive IsPower : List Char → Prop where
  | none : IsPower []
  | digits {letter : Char} {sign text : List Char} : letter ∈ ['e', 'E'] →
      sign ∈ [[], ['+'], ['-']] → IsDigits text → IsPower (letter :: sign ++ text)

section Reading

theorem IsWhole.exists_cons {whole : List Char} (h : IsWhole whole) :
    ∃ d ds, whole = d :: ds ∧ d.isDigit = true := by
  cases h with
  | digits hdigits _ =>
    obtain ⟨d, ds, rfl⟩ := List.exists_cons_of_ne_nil hdigits.1
    exact ⟨d, ds, rfl, hdigits.2 d List.mem_cons_self⟩

theorem Apart.isDigit {s : List Symbol} (h : Apart s) {c : Char} (hc : s.head? = some (.char c)) :
    c.isDigit = false := by
  have hapart := h (.char c) hc
  simp only [continuesNumeral, Bool.or_eq_false_iff] at hapart
  exact hapart.1.1.1

theorem splitDigits_append {ds : List Char} {rest : List Symbol}
    (hds : ∀ d ∈ ds, d.isDigit = true)
    (hrest : ∀ c, rest.head? = some (.char c) → c.isDigit = false) :
    splitDigits (symbols ds ++ rest) = (ds, rest) := by
  induction ds with
  | nil =>
    cases rest with
    | nil => rfl
    | cons a rest =>
      cases a with
      | stray b => rfl
      | char c => simp [splitDigits, hrest c rfl]
  | cons d ds ih =>
    have hd := hds d List.mem_cons_self
    have hrec := ih fun e he => hds e (List.mem_cons_of_mem d he)
    simp only [symbols, List.map_cons, List.cons_append] at hrec ⊢
    simp [splitDigits, hd, hrec]

/-- Neither a digit nor a point, with which a number could go on before its power. -/
def EndsFraction (s : List Symbol) : Prop :=
  ∀ c, s.head? = some (.char c) → c.isDigit = false ∧ c ≠ '.'

theorem Apart.endsFraction {s : List Symbol} (h : Apart s) : EndsFraction s := by
  intro c hc
  refine ⟨h.isDigit hc, ?_⟩
  rintro rfl
  exact absurd (h _ hc) (by decide)

theorem readDigits_append (atEnd : Fault) {ds : List Char} (hds : IsDigits ds) {s : List Symbol}
    (hs : ∀ c, s.head? = some (.char c) → c.isDigit = false) :
    readDigits atEnd (symbols ds ++ s) = .ok (ds, s) := by
  rw [readDigits, splitDigits_append hds.2 hs]
  obtain ⟨d, tail, rfl⟩ := List.exists_cons_of_ne_nil hds.1
  rfl

theorem readWhole_append (atEnd : Fault) {whole : List Char} (h : IsWhole whole) {s : List Symbol}
    (hs : ∀ c, s.head? = some (.char c) → c.isDigit = false) :
    readWhole atEnd (symbols whole ++ s) = .ok (whole, s) := by
  cases h with
  | digits hdigits hzero =>
    have hlone : ¬(whole.head? = some '0' ∧ 1 < whole.length) := by
      rintro ⟨hhead, hlength⟩
      rw [hzero hhead] at hlength
      exact absurd hlength (by decide)
    simp only [readWhole, readDigits_append atEnd hdigits hs, bind, Except.bind, if_neg hlone]

theorem readFraction_none (atEnd : Fault) {s : List Symbol} (hs : EndsFraction s) :
    readFraction atEnd s = .ok (none, s) := by
  unfold readFraction
  split
  · exact absurd rfl (hs '.' rfl).2
  · rfl

theorem readFraction_append (atEnd : Fault) {fraction : List Char} (h : IsFraction fraction)
    {s : List Symbol} (hs : EndsFraction s) :
    ∃ found, readFraction atEnd (symbols fraction ++ s) = .ok (found, s) ∧
      found.elim 0 (1 + ·.length) = fraction.length := by
  cases h with
  | none => exact ⟨none, readFraction_none atEnd hs, rfl⟩
  | @digits ds hds =>
    refine ⟨some ds, ?_, ?_⟩
    · simp only [symbols, List.map_cons, List.cons_append, readFraction,
        readDigits_append atEnd hds fun c hc => (hs c hc).1, bind, Except.bind]
    · rw [Option.elim_some, List.length_cons, Nat.add_comm]

theorem readExponent_none (atEnd : Fault) {s : List Symbol} (hs : Apart s) :
    readExponent atEnd s = .ok (none, s) := by
  unfold readExponent
  split
  · exact absurd (hs _ rfl) (by decide)
  · exact absurd (hs _ rfl) (by decide)
  · rfl

theorem readExponent_append (atEnd : Fault) {power : List Char} (h : IsPower power)
    {s : List Symbol} (hs : Apart s) :
    ∃ found, readExponent atEnd (symbols power ++ s) = .ok (found, s) ∧
      found.elim 0 (fun e => 1 + e.sign.elim 0 (fun _ => 1) + e.digits.length) = power.length := by
  cases h with
  | none => exact ⟨none, readExponent_none atEnd hs, rfl⟩
  | @digits letter sign ds hletter hsign hds =>
    have hdigits := readDigits_append atEnd hds fun c => hs.isDigit
    have hpower : readPower atEnd (symbols (sign ++ ds) ++ s) = .ok (some ⟨sign.head?, ds⟩, s) := by
      simp only [List.mem_cons, List.not_mem_nil, or_false] at hsign
      rcases hsign with rfl | rfl | rfl
      · obtain ⟨d, tail, hcons⟩ := List.exists_cons_of_ne_nil hds.1
        have hdigit : d.isDigit = true := hds.2 d (by rw [hcons]; exact List.mem_cons_self)
        have hsigned : readSign (symbols ds ++ s) = (none, symbols ds ++ s) := by
          rw [hcons]
          unfold readSign
          split
          · next heq =>
            cases heq
            cases hdigit
          · next heq =>
            cases heq
            cases hdigit
          · rfl
        simp only [readPower, List.nil_append, hsigned, hdigits, bind, Except.bind, List.head?_nil]
      · simp only [readPower, symbols, List.cons_append, List.nil_append, List.map_cons, readSign,
          bind, Except.bind, List.head?_cons]
        rw [hdigits]
      · simp only [readPower, symbols, List.cons_append, List.nil_append, List.map_cons, readSign,
          bind, Except.bind, List.head?_cons]
        rw [hdigits]
    refine ⟨some ⟨sign.head?, ds⟩, ?_, ?_⟩
    · simp only [List.mem_cons, List.not_mem_nil, or_false] at hletter
      rcases hletter with rfl | rfl <;> exact hpower
    · simp only [List.mem_cons, List.not_mem_nil, or_false] at hsign
      rcases hsign with rfl | rfl | rfl <;> simp <;> omega

/-- What follows the digits before the point is no digit. -/
theorem head?_fraction {fraction power : List Char} (hfraction : IsFraction fraction)
    (hpower : IsPower power) {s : List Symbol} (hs : Apart s) :
    EndsFraction (symbols power ++ s) ∧
      ∀ c, (symbols fraction ++ (symbols power ++ s)).head? = some (.char c) →
        c.isDigit = false := by
  have hafter : EndsFraction (symbols power ++ s) := by
    cases hpower with
    | none => exact hs.endsFraction
    | digits hletter _ _ =>
      simp only [List.mem_cons, List.not_mem_nil, or_false] at hletter
      intro c hc
      rcases hletter with rfl | rfl <;> cases hc <;> decide
  refine ⟨hafter, ?_⟩
  cases hfraction with
  | none => exact fun c hc => (hafter c hc).1
  | digits _ =>
    intro c hc
    cases hc
    rfl

/-- An unsigned number is read up to its end. -/
theorem read_number (atEnd : Fault) (negative : Bool) {whole fraction power : List Char}
    (hwhole : IsWhole whole) (hfraction : IsFraction fraction) (hpower : IsPower power)
    {s : List Symbol} (hs : Apart s) :
    ∃ foundFraction foundPower,
      Numeral.read atEnd negative (symbols (whole ++ fraction ++ power) ++ s) =
        .ok (⟨negative, whole, foundFraction, foundPower⟩, s) ∧
      foundFraction.elim 0 (1 + ·.length) = fraction.length ∧
      foundPower.elim 0 (fun e => 1 + e.sign.elim 0 (fun _ => 1) + e.digits.length) =
        power.length := by
  obtain ⟨hafter, hbehind⟩ := head?_fraction hfraction hpower hs
  obtain ⟨foundFraction, hreadFraction, hlengthFraction⟩ :=
    readFraction_append atEnd hfraction hafter
  obtain ⟨foundPower, hreadPower, hlengthPower⟩ := readExponent_append atEnd hpower hs
  have hreadWhole := readWhole_append atEnd hwhole hbehind
  refine ⟨foundFraction, foundPower, ?_, hlengthFraction, hlengthPower⟩
  rw [symbols, List.map_append, List.map_append, List.append_assoc, List.append_assoc]
  simp only [Numeral.read, hreadWhole, hreadFraction, hreadPower, bind, Except.bind]

theorem exists_read (atEnd : Fault) (negative : Bool) {whole fraction power : List Char}
    (hwhole : IsWhole whole) (hfraction : IsFraction fraction) (hpower : IsPower power)
    {s : List Symbol} (hs : Apart s) :
    ∃ n, Numeral.read atEnd negative (symbols (whole ++ fraction ++ power) ++ s) = .ok (n, s) ∧
      n.width = (whole ++ fraction ++ power).length := by
  obtain ⟨foundFraction, foundPower, hread, hlengthFraction, hlengthPower⟩ :=
    read_number atEnd negative hwhole hfraction hpower hs
  refine ⟨_, hread, ?_⟩
  rw [Numeral.width, hlengthFraction, hlengthPower, List.length_append, List.length_append]

end Reading

section Naturals

/-- A number above zero is not written with a zero in front. -/
theorem head?_toDigits_ne {n : Nat} (h : 0 < n) : (Nat.toDigits 10 n).head? ≠ some '0' := by
  induction n using Nat.strongRecOn with
  | ind n ih =>
    by_cases hlt : n < 10
    · rw [Nat.toDigits_of_lt_base hlt, List.head?_cons, ne_eq, Option.some_inj,
        Nat.digitChar_eq_zero]
      omega
    · have hrec := ih (n / 10) (by omega) (by omega)
      rw [Nat.toDigits_of_base_le (by decide) (by omega),
        List.head?_append_of_ne_nil _ Nat.toDigits_ne_nil]
      exact hrec

theorem isWhole_natural (n : Nat) : IsWhole (natural n) := by
  refine .digits ⟨Nat.toDigits_ne_nil, ?_⟩ fun hhead => ?_
  · exact fun d hd => Nat.isDigit_of_mem_toDigits (by decide) (by decide) hd
  · by_cases hn : n = 0
    · rw [natural, hn, Nat.toDigits_zero]
    · exact absurd hhead (head?_toDigits_ne (Nat.pos_of_ne_zero hn))

theorem read_natural (atEnd : Fault) (n : Nat) {rest : List Symbol} (hrest : Apart rest) :
    Numeral.read atEnd false (symbols (natural n) ++ rest) =
      .ok (⟨false, natural n, none, none⟩, rest) := by
  have hwhole := readWhole_append atEnd (isWhole_natural n) fun c => hrest.isDigit
  simp only [Numeral.read, hwhole, readFraction_none atEnd hrest.endsFraction,
    readExponent_none atEnd hrest, bind, Except.bind]

/-- Digits are taken in as long as their number fits in 64 bits. -/
theorem absorb_eq {ds : List Char} {n : Nat} (h : Nat.ofDigitChars 10 ds n < UInt64.size) :
    Quantity.absorb n ds = (Nat.ofDigitChars 10 ds n, []) := by
  induction ds generalizing n with
  | nil => rfl
  | cons d ds ih =>
    rw [Nat.ofDigitChars_cons, Nat.mul_comm] at h
    have hle : n * 10 + (d.toNat - '0'.toNat) ≤
        Nat.ofDigitChars 10 ds (n * 10 + (d.toNat - '0'.toNat)) := by
      rw [Nat.ofDigitChars_eq_ofDigitChars_zero]
      exact Nat.le_add_right_of_le (Nat.le_mul_of_pos_left _ (Nat.pow_pos (by decide)))
    rw [Nat.ofDigitChars_cons, Nat.mul_comm 10 n, Quantity.absorb, if_pos (by omega), ih h]

theorem natural_eq_cons (n : Nat) : ∃ d ds, natural n = d :: ds ∧ d.isDigit = true :=
  (isWhole_natural n).exists_cons

theorem isBlank_of_isDigit {d : Char} (h : d.isDigit = true) :
    isBlank (.char d) = false := by
  unfold isBlank
  split
  iterate 4
    next heq =>
      cases heq
      cases h
  rfl

theorem ofNumeral_natural {n : Nat} (h : n < UInt64.size) :
    Quantity.ofNumeral ⟨false, natural n, none, none⟩ = .ok (.natural n.toUInt64) := by
  have hvalue : Nat.ofDigitChars 10 (natural n) 0 = n := Nat.ofDigitChars_ten_toDigits
  have habsorb : Quantity.absorb 0 (natural n) = (n, []) := by
    rw [absorb_eq (by rw [hvalue]; exact h), hvalue]
  simp [Quantity.ofNumeral, habsorb]

/-- From its first digit on, a number has no sign. -/
theorem readUnsigned_of_isDigit (width : Nat) {d : Char} (hdigit : d.isDigit = true)
    {s tail : List Symbol} (hs : skipBlanks s = .char d :: tail) :
    readUnsigned width s = (do
      let (n, s) ← Numeral.read .endInValue false (.char d :: tail)
      return (← checkUnsigned width (← Quantity.ofNumeral n), s)) := by
  unfold readUnsigned
  dsimp only
  rw [hs]
  split
  · next heq => cases heq
  · next heq =>
    cases heq
    cases hdigit
  · next heq =>
    cases heq
    rw [if_pos hdigit]
  · next hother heq =>
    cases heq
    exact absurd rfl (hother d)

theorem reads_natural {width n : Nat} (hwidth : n < Nat.pow 2 width) (hn : n < UInt64.size) :
    Reads (readUnsigned width) (natural n) n := by
  intro s rest hrest hs
  have hread := read_natural .endInValue n hrest
  have hquantity := ofNumeral_natural hn
  have hchecked : checkUnsigned width (.natural n.toUInt64) = .ok n := by
    have hvalue : n.toUInt64.toNat = n := UInt64.toNat_ofNat_of_lt' hn
    rw [checkUnsigned, hvalue]
    exact if_pos hwidth
  obtain ⟨d, ds, hnatural, hdigit⟩ := natural_eq_cons n
  rw [hnatural] at hs hread hquantity
  rw [symbols, List.map_cons, List.cons_append, skipBlanks_cons (isBlank_of_isDigit hdigit)] at hs
  refine ⟨rest, ?_, rfl⟩
  rw [symbols, List.map_cons, List.cons_append] at hread
  simp only [readUnsigned_of_isDigit width hdigit hs, hread, hquantity, hchecked, bind, Except.bind,
    pure, Except.pure]

theorem leading?_natural (n : Nat) : ∃ d, leading? (natural n) = some d ∧ d ≠ 'n' := by
  obtain ⟨d, ds, hnatural, hdigit⟩ := natural_eq_cons n
  refine ⟨d, ?_, ?_⟩
  · rw [hnatural, leading?, List.find?_cons, isBlank_of_isDigit hdigit]
    rfl
  · rintro rfl
    cases hdigit

end Naturals

end SyscallPolicy.Json
