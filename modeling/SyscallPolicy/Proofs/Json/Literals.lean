import SyscallPolicy.Proofs.Json.Numbers
import SyscallPolicy.Proofs.Json.Strings
import SyscallPolicy.Proofs.Lists

/-! What a literal must be like to be read. A string that is read spells what it is read as, and
only plain digits are read as a natural number. -/
namespace SyscallPolicy.Json
open Numeral
open Policy.Printer (natural)
open StringLiteral
open Text (Symbol)

section Strings

/-- What follows the first half of a surrogate pair must be the second half. -/
theorem readEscape_high {n : Nat} {digits : List Char} (h : SpellsHex n digits)
    (hhigh : isHighSurrogate n = true) (s : List Symbol) :
    readEscape (symbols ('u' :: digits) ++ s) =
      (readLowSurrogate n s).map fun c => (c, 11) := by
  have hlow : isLowSurrogate n = false := by
    simp only [isHighSurrogate, decide_eq_true_eq] at hhigh
    simp only [isLowSurrogate, decide_eq_false_iff_not]
    omega
  have hdrop : (symbols digits ++ s).drop 4 = s := by
    cases h
    rfl
  simp only [symbols, List.map_cons, List.cons_append, readEscape]
  simp only [readHex_spelled h, bind, Except.bind, hlow, hhigh, Bool.false_eq_true, if_false,
    if_true, hdrop]
  cases readLowSurrogate n s <;> rfl

theorem readEscape_low {n : Nat} {digits : List Char} (h : SpellsHex n digits)
    (hlow : isLowSurrogate n = true) (s : List Symbol) :
    readEscape (symbols ('u' :: digits) ++ s) = .error .loneSurrogate := by
  simp only [symbols, List.map_cons, List.cons_append, readEscape]
  simp only [readHex_spelled h, bind, Except.bind, hlow, if_true]

theorem readSymbols_escape (done s : List Symbol) :
    readSymbols 0 done (.char '\\' :: s) =
      (readEscape s).bind fun (c, taken) => readSymbols taken (.char c :: done) s := by
  have hquote : '\\' ≠ '\x22' := by decide
  simp only [readSymbols, if_neg hquote, if_pos]
  cases readEscape s <;> rfl

theorem of_readLowSurrogate {high : Nat} {parts : List (List Char)}
    (h : ∀ part ∈ parts, IsStringPart part) {s : List Symbol} {c : Char}
    (hread : readLowSurrogate high (symbols (parts.flatten ++ ['\x22']) ++ s) = .ok c) :
    ∃ low digits rest, parts = ('\\' :: 'u' :: digits) :: rest ∧ SpellsHex low digits ∧
      isLowSurrogate low = true ∧
      c = .ofNat (0x10000 + (high - 0xd800) * 0x400 + (low - 0xdc00)) := by
  cases parts with
  | nil => simp [readLowSurrogate] at hread
  | cons part rest =>
    have hsymbols : symbols ((part :: rest).flatten ++ ['\x22']) ++ s =
        symbols part ++ (symbols (rest.flatten ++ ['\x22']) ++ s) := by
      simp
    rw [hsymbols] at hread
    cases h part List.mem_cons_self with
    | raw hraw =>
      simp [readLowSurrogate, hraw.2.2] at hread
    | short hshort =>
      simp only [shortEscapes, List.mem_cons, Prod.mk.injEq, List.not_mem_nil, or_false] at hshort
      rcases hshort with ⟨rfl, _⟩ | ⟨rfl, _⟩ | ⟨rfl, _⟩ | ⟨rfl, _⟩ | ⟨rfl, _⟩ | ⟨rfl, _⟩ |
        ⟨rfl, _⟩ | ⟨rfl, _⟩ <;> simp [readLowSurrogate] at hread
    | @number low digits hdigits =>
      refine ⟨low, digits, rest, rfl, hdigits, ?_⟩
      simp only [symbols, List.map_cons, List.cons_append, readLowSurrogate] at hread
      simp only [readHex_spelled hdigits, bind, Except.bind] at hread
      split at hread
      · next hlow => exact ⟨hlow, (Except.ok.inj hread).symm⟩
      · cases hread

/-- Halves that belong together show a character. -/
theorem spellsChar_pair {high low : Nat} {digits digits' : List Char}
    (hdigits : SpellsHex high digits) (hdigits' : SpellsHex low digits')
    (hhigh : isHighSurrogate high = true) (hlow : isLowSurrogate low = true) :
    SpellsChar (.ofNat (0x10000 + (high - 0xd800) * 0x400 + (low - 0xdc00)))
      ('\\' :: 'u' :: digits ++ '\\' :: 'u' :: digits') := by
  simp only [isHighSurrogate, isLowSurrogate, decide_eq_true_eq] at hhigh hlow
  let n := (high - 0xd800) * 0x400 + (low - 0xdc00)
  have hvalid : (0x10000 + (high - 0xd800) * 0x400 + (low - 0xdc00)).isValidChar := .inr (by omega)
  have hnumber : (Char.ofNat (0x10000 + (high - 0xd800) * 0x400 + (low - 0xdc00))).toNat =
      0x10000 + n := by
    rw [Char.ofNat, dif_pos hvalid]
    exact Nat.add_assoc _ _ _
  refine .pair hnumber ?_ ?_
  · rwa [show 0xd800 + n / 0x400 = high by omega]
  · rwa [show 0xdc00 + n % 0x400 = low by omega]

/-- An escaped number that is no half of a pair shows the character with that number. -/
theorem spellsChar_number {n : Nat} {digits : List Char} (h : SpellsHex n digits)
    (hhigh : isHighSurrogate n = false) (hlow : isLowSurrogate n = false) :
    SpellsChar (.ofNat n) ('\\' :: 'u' :: digits) := by
  simp only [isHighSurrogate, isLowSurrogate, decide_eq_false_iff_not] at hhigh hlow
  have hbound : n < 0x10000 := by
    cases h
    assumption
  have hvalid : n.isValidChar := by
    simp only [Nat.isValidChar]
    omega
  have hnumber : (Char.ofNat n).toNat = n := by
    rw [Char.ofNat, dif_pos hvalid]
    rfl
  exact .number (by rwa [hnumber])

/-- Parts that are read to their end spell what is read. -/
theorem spelled_of_readSymbols {parts : List (List Char)} (h : ∀ part ∈ parts, IsStringPart part)
    {done s found left : List Symbol}
    (hread : readSymbols 0 done (symbols (parts.flatten ++ ['\x22']) ++ s) = .ok (found, left)) :
    ∃ cs spelled, List.Forall₂ SpellsChar cs spelled ∧ spelled.flatten = parts.flatten ∧
      found = done.reverse ++ symbols cs ∧ left = s := by
  -- On the number of parts: the halves of a pair are two of them.
  induction hlength : parts.length using Nat.strongRecOn generalizing parts done with
  | ind length ih =>
    subst hlength
    have hgo : ∀ (c : Char) (part : List Char) (rest : List (List Char)), SpellsChar c part →
        rest.length < parts.length → part ++ rest.flatten = parts.flatten →
        (∀ part ∈ rest, IsStringPart part) → ∃ cs spelled, List.Forall₂ SpellsChar cs spelled ∧
          spelled.flatten = parts.flatten ∧ found = done.reverse ++ symbols cs ∧ left = s := by
      intro c part rest hpart hshorter hflatten hrest
      have hsymbols : symbols (parts.flatten ++ ['\x22']) ++ s =
          symbols part ++ (symbols (rest.flatten ++ ['\x22']) ++ s) := by
        rw [← hflatten]
        simp
      rw [hsymbols, readSymbols_spelled hpart] at hread
      obtain ⟨cs, spelled, hspelled, heq, hfound, hleft⟩ := ih _ hshorter hrest hread rfl
      refine ⟨c :: cs, part :: spelled, .cons hpart hspelled, ?_, ?_, hleft⟩
      · rw [List.flatten_cons, heq, hflatten]
      · rw [hfound]
        simp
    cases parts with
    | nil =>
      cases hread
      exact ⟨[], [], .nil, rfl, (List.append_nil _).symm, rfl⟩
    | cons part rest =>
      have hrest : ∀ part ∈ rest, IsStringPart part :=
        fun other hother => h other (List.mem_cons_of_mem part hother)
      cases h part List.mem_cons_self with
      | raw hraw => exact hgo _ _ rest (.raw hraw) (Nat.lt_succ_self _) rfl hrest
      | short hshort => exact hgo _ _ rest (.short hshort) (Nat.lt_succ_self _) rfl hrest
      | @number n digits hdigits =>
        have hsymbols : symbols ((('\\' :: 'u' :: digits) :: rest).flatten ++ ['\x22']) ++ s =
            .char '\\' ::
              (symbols ('u' :: digits) ++ (symbols (rest.flatten ++ ['\x22']) ++ s)) := by
          simp
        cases hlow : isLowSurrogate n with
        | true =>
          rw [hsymbols, readSymbols_escape, readEscape_low hdigits hlow] at hread
          cases hread
        | false =>
          cases hhigh : isHighSurrogate n with
          | false =>
            exact hgo _ _ rest (spellsChar_number hdigits hhigh hlow) (Nat.lt_succ_self _) rfl hrest
          | true =>
            rw [hsymbols, readSymbols_escape, readEscape_high hdigits hhigh] at hread
            cases hsecond : readLowSurrogate n (symbols (rest.flatten ++ ['\x22']) ++ s) with
            | error e =>
              rw [hsecond] at hread
              cases hread
            | ok c =>
              obtain ⟨low, digits', rest', rfl, hdigits', hlow', hc⟩ :=
                of_readLowSurrogate hrest hsecond
              have hpair := spellsChar_pair hdigits hdigits' hhigh hlow'
              rw [← hc] at hpair
              refine hgo c _ rest' hpair ?_ ?_ ?_
              · simp only [List.length_cons]
                omega
              · simp
              · exact fun other hother => hrest other (List.mem_cons_of_mem _ hother)

/-- A string that is read spells what it is read as. -/
theorem spells_of_read {tail : List Char} (h : IsString ('\x22' :: tail)) {s left : List Symbol}
    {text : String} (hread : StringLiteral.read (symbols tail ++ s) = .ok (text, left)) :
    SpellsString text ('\x22' :: tail) ∧ left = s := by
  cases h with
  | @quoted parts hparts =>
    simp only [StringLiteral.read, bind_eq_ok, Prod.exists] at hread
    obtain ⟨found, left', hsymbols, htext⟩ := hread
    obtain ⟨cs, spelled, hspelled, hflatten, rfl, rfl⟩ := spelled_of_readSymbols hparts hsymbols
    have hcs : Symbol.text? (symbols cs) = some (.ofList cs) := by
      have hofList := Symbol.text?_ofString (.ofList cs)
      rwa [Symbol.ofString, String.toList_ofList] at hofList
    rw [List.reverse_nil, List.nil_append, hcs] at htext
    cases htext
    have hquoted := @SpellsString.quoted (.ofList cs) spelled (by rwa [String.toList_ofList])
    rw [hflatten] at hquoted
    exact ⟨hquoted, rfl⟩

end Strings

section Numbers

theorem digitChar_digit {d : Char} (h : d.isDigit = true) :
    d.toNat - '0'.toNat < 10 ∧ (d.toNat - '0'.toNat).digitChar = d := by
  simp only [Char.isDigit, Bool.and_eq_true, decide_eq_true_eq, ge_iff_le, UInt32.le_iff_toNat_le]
    at h
  have hbounds : 48 ≤ d.toNat ∧ d.toNat ≤ 57 := h
  have hlt : d.toNat - '0'.toNat < 10 := by
    simp only [Char.reduceToNat]
    omega
  refine ⟨hlt, Char.toNat_inj.mp ?_⟩
  rw [Nat.toNat_digitChar_of_lt_ten hlt]
  simp only [Char.reduceToNat]
  omega

/-- More digits behind those of a number above zero. -/
theorem toDigits_append {ds : List Char} (hds : ∀ d ∈ ds, d.isDigit = true) {n : Nat} (hn : 0 < n) :
    Nat.toDigits 10 n ++ ds = Nat.toDigits 10 (Nat.ofDigitChars 10 ds n) := by
  induction ds generalizing n with
  | nil => rw [List.append_nil, Nat.ofDigitChars_nil]
  | cons d ds ih =>
    obtain ⟨hlt, hchar⟩ := digitChar_digit (hds d List.mem_cons_self)
    have hone := Nat.toDigits_append_toDigits (by decide : 1 < 10) hn hlt
    rw [Nat.toDigits_of_lt_base hlt, hchar] at hone
    have hrest := ih (fun e he => hds e (List.mem_cons_of_mem d he))
      (n := 10 * n + (d.toNat - '0'.toNat)) (by omega)
    rw [Nat.ofDigitChars_cons, ← hrest, ← hone, List.append_assoc, List.singleton_append]

/-- Digits without a zero in front are the digits of their number. -/
theorem natural_ofDigitChars {whole : List Char} (h : IsWhole whole) :
    natural (Nat.ofDigitChars 10 whole 0) = whole := by
  cases h with
  | digits hdigits hzero =>
    obtain ⟨d, ds, rfl⟩ := List.exists_cons_of_ne_nil hdigits.1
    obtain ⟨hlt, hchar⟩ := digitChar_digit (hdigits.2 d List.mem_cons_self)
    by_cases hd : d = '0'
    · subst hd
      rw [hzero rfl]
      rfl
    · have hpos : 0 < d.toNat - '0'.toNat := by
        refine Nat.pos_of_ne_zero fun heq => hd ?_
        rw [← hchar, heq]
        rfl
      have hrest := toDigits_append (fun e he => hdigits.2 e (List.mem_cons_of_mem d he)) hpos
      rw [Nat.toDigits_of_lt_base hlt, hchar, List.singleton_append] at hrest
      rw [natural, Nat.ofDigitChars_cons, Nat.mul_zero, Nat.zero_add, ← hrest]

/-- Digits that are all taken in make a number of 64 bits. -/
theorem of_absorb {ds : List Char} {n m : Nat} (hn : n < UInt64.size)
    (h : Quantity.absorb n ds = (m, [])) : m = Nat.ofDigitChars 10 ds n ∧ m < UInt64.size := by
  induction ds generalizing n with
  | nil =>
    cases h
    exact ⟨rfl, hn⟩
  | cons d ds ih =>
    rw [Quantity.absorb] at h
    split at h
    · next hlt =>
      rw [Nat.ofDigitChars_cons, Nat.mul_comm 10 n]
      exact ih hlt h
    · cases h

theorem floatingOf_ne_natural {n : Numeral} {significand : Nat} {e : Int} {u : UInt64} :
    Quantity.floatingOf n significand e ≠ .ok (.natural u) := by
  unfold Quantity.floatingOf
  split <;> simp

/-- Only digits alone make a natural number. -/
theorem of_ofNumeral_natural {n : Numeral} {u : UInt64}
    (h : Quantity.ofNumeral n = .ok (.natural u)) :
    n.negative = false ∧ n.fraction = none ∧ n.exponent = none ∧
      u.toNat = Nat.ofDigitChars 10 n.whole 0 := by
  unfold Quantity.ofNumeral at h
  cases habsorb : Quantity.absorb 0 n.whole with
  | mk significand dropped =>
    rw [habsorb] at h
    dsimp only at h
    split at h
    · exact absurd h floatingOf_ne_natural
    · next hfraction =>
      split at h
      · exact absurd h floatingOf_ne_natural
      · next hplain =>
        simp only [not_or, Option.not_isSome_iff_eq_none, not_not, List.isEmpty_iff] at hplain
        obtain ⟨hexponent, rfl⟩ := hplain
        obtain ⟨hvalue, hlt⟩ := of_absorb (by decide) habsorb
        split at h
        · next hsign =>
          cases h
          refine ⟨by simpa using hsign, hfraction, hexponent, ?_⟩
          rw [← hvalue]
          exact UInt64.toNat_ofNat_of_lt' hlt
        · split at h
          · exact absurd h floatingOf_ne_natural
          · cases h

/-- Digits make a number unless a zero stands in front of others. -/
theorem IsDigits.isWhole_or {whole : List Char} (h : IsDigits whole) :
    IsWhole whole ∨ whole.head? = some '0' ∧ 1 < whole.length := by
  by_cases hlone : whole.head? = some '0' ∧ 1 < whole.length
  · exact .inr hlone
  · refine .inl (.digits h fun hhead => ?_)
    obtain ⟨d, ds, rfl⟩ := List.exists_cons_of_ne_nil h.1
    cases hhead
    cases ds with
    | nil => rfl
    | cons e es => exact absurd ⟨rfl, Nat.succ_lt_succ (Nat.succ_pos _)⟩ hlone

/-- A literal of digits, with or without a fraction and a power, is read whole or not at all. -/
theorem of_read_number {atEnd : Fault} {negative : Bool} {whole fraction power : List Char}
    (hwhole : IsDigits whole) (hfraction : IsFraction fraction) (hpower : IsPower power)
    {s left : List Symbol} (hs : Apart s) {n : Numeral}
    (h : Numeral.read atEnd negative (symbols (whole ++ fraction ++ power) ++ s) = .ok (n, left)) :
    IsWhole whole ∧ left = s ∧ n.negative = negative ∧ n.whole = whole ∧
      (n.fraction = none → fraction = []) ∧ (n.exponent = none → power = []) := by
  rcases hwhole.isWhole_or with hwhole' | hzero
  · obtain ⟨foundFraction, foundPower, hread, hlengthFraction, hlengthPower⟩ :=
      read_number atEnd negative hwhole' hfraction hpower hs
    rw [hread] at h
    cases h
    refine ⟨hwhole', rfl, rfl, rfl, ?_, ?_⟩
    · rintro rfl
      exact List.length_eq_zero_iff.mp hlengthFraction.symm
    · rintro rfl
      exact List.length_eq_zero_iff.mp hlengthPower.symm
  · obtain ⟨_, hbehind⟩ := head?_fraction hfraction hpower hs
    have hwholeError : readWhole atEnd (symbols whole ++ (symbols fraction ++
        (symbols power ++ s))) = .error .invalidNumber := by
      simp only [readWhole, readDigits_append atEnd hwhole hbehind, bind, Except.bind, if_pos hzero]
    rw [symbols, List.map_append, List.map_append, List.append_assoc, List.append_assoc] at h
    simp only [Numeral.read, hwholeError] at h
    cases h

end Numbers

end SyscallPolicy.Json
