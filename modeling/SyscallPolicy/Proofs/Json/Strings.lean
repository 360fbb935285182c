import Mathlib.Data.List.Forall2
import SyscallPolicy.Proofs.Json.Reading

/-! The texts of strings. A string that spells a text is read as that text, whether its characters
are raw or escaped. Any string has an end, whether or not its escapes spell characters. -/
namespace SyscallPolicy.Json
open StringLiteral
open Text (Symbol)

/-- The digits by which base sixteen shows a number below 16, in lower and in upper case. -/
def hexDigits (n : Nat) : List Char := [n.digitChar, n.digitChar.toUpper]

/-- Four digits in base sixteen. -/
inductive SpellsHex (n : Nat) : List Char → Prop where
  | digits {a b c d : Char} : n < 0x10000 → a ∈ hexDigits (n / 0x1000) →
      b ∈ hexDigits (n / 0x100 % 0x10) → c ∈ hexDigits (n / 0x10 % 0x10) →
      d ∈ hexDigits (n % 0x10) → SpellsHex n [a, b, c, d]

/-- The letters of the short escapes, with the characters that they stand for. -/
def shortEscapes : List (Char × Char) :=
  [('\x22', '\x22'), ('\\', '\\'), ('/', '/'), ('b', '\x08'), ('f', '\x0c'), ('n', '\n'),
    ('r', '\r'), ('t', '\t')]

/-- A character as it is, where a string may hold it so. -/
def IsRaw (c : Char) : Prop := 0x20 ≤ c.toNat ∧ c ≠ '\x22' ∧ c ≠ '\\'

/-- The texts that stand for a character in a string. A pair of escapes shows a character whose
number has more than four digits. -/
inductive SpellsChar (c : Char) : List Char → Prop where
  | raw : IsRaw c → SpellsChar c [c]
  | short {letter : Char} : (letter, c) ∈ shortEscapes → SpellsChar c ['\\', letter]
  | number {digits : List Char} : SpellsHex c.toNat digits → SpellsChar c ('\\' :: 'u' :: digits)
  | pair {n : Nat} {high low : List Char} : c.toNat = 0x10000 + n →
      SpellsHex (0xd800 + n / 0x400) high → SpellsHex (0xdc00 + n % 0x400) low →
      SpellsChar c ('\\' :: 'u' :: high ++ '\\' :: 'u' :: low)

inductive SpellsString (text : String) : List Char → Prop where
  | quoted {parts : List (List Char)} : List.Forall₂ SpellsChar text.toList parts →
      SpellsString text ('\x22' :: parts.flatten ++ ['\x22'])

/-- What strings are made of. A number of four digits need not be that of a character. -/
inductive IsStringPart : List Char → Prop where
  | raw {c : Char} : IsRaw c → IsStringPart [c]
  | short {letter c : Char} : (letter, c) ∈ shortEscapes → IsStringPart ['\\', letter]
  | number {n : Nat} {digits : List Char} : SpellsHex n digits →
      IsStringPart ('\\' :: 'u' :: digits)

inductive IsString : List Char → Prop where
  | quoted {parts : List (List Char)} : (∀ part ∈ parts, IsStringPart part) →
      IsString ('\x22' :: parts.flatten ++ ['\x22'])

section Reading

private theorem hexDigit?_digitChar : ∀ n < 16,
    hexDigit? n.digitChar = some n ∧ hexDigit? n.digitChar.toUpper = some n := by decide

theorem hexDigit?_of_mem {n : Nat} (hn : n < 16) {c : Char} (hc : c ∈ hexDigits n) :
    hexDigit? c = some n := by
  obtain ⟨hlower, hupper⟩ := hexDigit?_digitChar n hn
  simp only [hexDigits, List.mem_cons, List.not_mem_nil, or_false] at hc
  rcases hc with rfl | rfl
  · exact hlower
  · exact hupper

theorem readHex_spelled {n : Nat} {digits : List Char} (h : SpellsHex n digits) (s : List Symbol) :
    readHex (symbols digits ++ s) = .ok n := by
  cases h with
  | digits hn ha hb hc hd =>
    have hnumber : ((n / 0x1000 * 16 + n / 0x100 % 0x10) * 16 + n / 0x10 % 0x10) * 16 +
        n % 0x10 = n := by omega
    simp only [symbols, List.map_cons, List.map_nil, List.cons_append, List.nil_append, readHex,
      hexNumber?, hexDigit?_of_mem (by omega) ha, hexDigit?_of_mem (by omega) hb,
      hexDigit?_of_mem (by omega) hc, hexDigit?_of_mem (by omega) hd, bind, Option.bind, pure,
      hnumber]

theorem readEscape_number {c : Char} {digits : List Char} (h : SpellsHex c.toNat digits)
    (s : List Symbol) : readEscape (symbols ('u' :: digits) ++ s) = .ok (c, 5) := by
  have hbound : c.toNat < 0x10000 := by
    cases h
    assumption
  have hvalid : c.toNat < 0xd800 ∨ 0xdfff < c.toNat ∧ c.toNat < 0x110000 := c.valid
  have hlow : isLowSurrogate c.toNat = false := by
    simp only [isLowSurrogate, decide_eq_false_iff_not]
    omega
  have hhigh : isHighSurrogate c.toNat = false := by
    simp only [isHighSurrogate, decide_eq_false_iff_not]
    omega
  simp only [symbols, List.map_cons, List.cons_append, readEscape]
  simp only [readHex_spelled h, bind, Except.bind, hlow, hhigh, Bool.false_eq_true, if_false,
    Char.ofNat_toNat]
  rfl

theorem readEscape_pair {c : Char} {n : Nat} {high low : List Char} (hc : c.toNat = 0x10000 + n)
    (hhigh : SpellsHex (0xd800 + n / 0x400) high) (hlow : SpellsHex (0xdc00 + n % 0x400) low)
    (s : List Symbol) :
    readEscape (symbols ('u' :: high ++ '\\' :: 'u' :: low) ++ s) = .ok (c, 11) := by
  have hvalid : c.toNat < 0xd800 ∨ 0xdfff < c.toNat ∧ c.toNat < 0x110000 := c.valid
  have hfirst : isHighSurrogate (0xd800 + n / 0x400) = true := by
    simp only [isHighSurrogate, decide_eq_true_eq]
    omega
  have hnot : isLowSurrogate (0xd800 + n / 0x400) = false := by
    simp only [isLowSurrogate, decide_eq_false_iff_not]
    omega
  have hsecond : isLowSurrogate (0xdc00 + n % 0x400) = true := by
    simp only [isLowSurrogate, decide_eq_true_eq]
    omega
  have hnumber : 0x10000 + (0xd800 + n / 0x400 - 0xd800) * 0x400 +
      (0xdc00 + n % 0x400 - 0xdc00) = c.toNat := by
    omega
  have hsymbols : symbols ('u' :: high ++ '\\' :: 'u' :: low) ++ s =
      .char 'u' :: (symbols high ++ .char '\\' :: .char 'u' :: (symbols low ++ s)) := by
    simp
  have hdrop : (symbols high ++ .char '\\' :: .char 'u' :: (symbols low ++ s)).drop 4 =
      .char '\\' :: .char 'u' :: (symbols low ++ s) := by
    cases hhigh
    rfl
  rw [hsymbols, readEscape]
  simp only [readHex_spelled hhigh, bind, Except.bind, hnot, hfirst, Bool.false_eq_true, if_false,
    if_true, hdrop, readLowSurrogate, readHex_spelled hlow, hsecond, hnumber, Char.ofNat_toNat]
  rfl

/-- A character is read, whichever text stands for it. -/
theorem readSymbols_spelled {c : Char} {text : List Char} (h : SpellsChar c text)
    (done s : List Symbol) :
    readSymbols 0 done (symbols text ++ s) = readSymbols 0 (.char c :: done) s := by
  cases h with
  | raw h =>
    obtain ⟨hcontrol, hquote, hbackslash⟩ := h
    simp only [symbols, List.map_cons, List.map_nil, List.cons_append, List.nil_append, readSymbols,
      if_neg hquote, if_neg hbackslash, if_neg (Nat.not_lt.mpr hcontrol)]
  | short h =>
    simp only [shortEscapes, List.mem_cons, Prod.mk.injEq, List.not_mem_nil, or_false] at h
    rcases h with ⟨rfl, rfl⟩ | ⟨rfl, rfl⟩ | ⟨rfl, rfl⟩ | ⟨rfl, rfl⟩ | ⟨rfl, rfl⟩ | ⟨rfl, rfl⟩ |
      ⟨rfl, rfl⟩ | ⟨rfl, rfl⟩ <;> rfl
  | @number digits h =>
    have hescape := readEscape_number h s
    cases h
    simp only [symbols, List.map_cons, List.map_nil, List.cons_append, List.nil_append] at hescape ⊢
    simp only [readSymbols, hescape]
    rfl
  | @pair n high low hc hhigh hlow =>
    have hescape := readEscape_pair hc hhigh hlow s
    cases hhigh
    cases hlow
    simp only [symbols, List.map_cons, List.map_nil, List.cons_append, List.nil_append] at hescape ⊢
    simp only [readSymbols, hescape]
    rfl

theorem readSymbols_parts {cs : List Char} {parts : List (List Char)}
    (h : List.Forall₂ SpellsChar cs parts) (done s : List Symbol) :
    readSymbols 0 done (symbols (parts.flatten ++ ['\x22']) ++ s) =
      .ok (done.reverse ++ symbols cs, s) := by
  induction h generalizing done with
  | nil => simp [readSymbols]
  | @cons c part cs parts hpart _ ih =>
    have hsymbols : symbols ((part :: parts).flatten ++ ['\x22']) ++ s =
        symbols part ++ (symbols (parts.flatten ++ ['\x22']) ++ s) := by
      simp
    rw [hsymbols, readSymbols_spelled hpart, ih]
    simp

theorem exists_read_spelled {text : String} {spelled : List Char} (h : SpellsString text spelled) :
    ∃ tail, spelled = '\x22' :: tail ∧
      ∀ s, StringLiteral.read (symbols tail ++ s) = .ok (text, s) := by
  cases h with
  | @quoted parts h =>
    refine ⟨parts.flatten ++ ['\x22'], rfl, fun s => ?_⟩
    have hsymbols := readSymbols_parts h [] s
    have htext : Symbol.text? (symbols text.toList) = some text := Symbol.text?_ofString text
    simp only [StringLiteral.read, hsymbols, bind, Except.bind, List.reverse_nil, List.nil_append,
      htext]

theorem reads_spelled {text : String} {spelled : List Char} (h : SpellsString text spelled) :
    Reads readString spelled text := by
  obtain ⟨tail, rfl, hread⟩ := exists_read_spelled h
  intro s rest _ hs
  have hquote : skipBlanks s = .char '\x22' :: (symbols tail ++ rest) :=
    hs.trans (skipBlanks_cons rfl _)
  exact ⟨rest, by simp only [readString, hquote, hread], rfl⟩

end Reading

section Writing

private theorem digitChar_mem (n : Nat) : n.digitChar ∈ hexDigits n := List.mem_cons_self

theorem spellsChar_escaped (c : Char) : SpellsChar c (escaped c) := by
  unfold escaped
  split
  iterate 7 exact .short (by decide)
  next hquote hbackslash _ _ _ _ _ =>
  split
  · next hcontrol =>
    have hfirst : c.toNat / 0x1000 = 0 := by omega
    have hsecond : c.toNat / 0x100 % 0x10 = 0 := by omega
    have hthird : c.toNat / 0x10 % 0x10 = c.toNat / 0x10 := by omega
    refine .number (.digits (by omega) ?_ ?_ ?_ (digitChar_mem _))
    · rw [hfirst]
      exact digitChar_mem 0
    · rw [hsecond]
      exact digitChar_mem 0
    · rw [hthird]
      exact digitChar_mem _
  · next hcontrol => exact .raw ⟨Nat.not_lt.mp hcontrol, hquote, hbackslash⟩

theorem spellsString_write (text : String) : SpellsString text (write text) := by
  have hparts : List.Forall₂ SpellsChar text.toList (text.toList.map escaped) := by
    rw [List.forall₂_map_right_iff, List.forall₂_same]
    exact fun c _ => spellsChar_escaped c
  rw [write, List.flatMap_def]
  exact .quoted hparts

theorem reads_write (text : String) : Reads readString (write text) text :=
  reads_spelled (spellsString_write text)

end Writing

section Measuring

theorem measureFrom_part {part : List Char} (h : IsStringPart part) (n : Nat) (s : List Symbol) :
    measureFrom n 0 (symbols part ++ s) = measureFrom (n + part.length) 0 s := by
  cases h with
  | raw h =>
    obtain ⟨hcontrol, hquote, hbackslash⟩ := h
    simp only [symbols, List.map_cons, List.map_nil, List.cons_append, List.nil_append, measureFrom,
      if_neg hquote, if_neg hbackslash, if_neg (Nat.not_lt.mpr hcontrol), List.length_cons,
      List.length_nil]
  | short h =>
    simp only [shortEscapes, List.mem_cons, Prod.mk.injEq, List.not_mem_nil, or_false] at h
    rcases h with ⟨rfl, _⟩ | ⟨rfl, _⟩ | ⟨rfl, _⟩ | ⟨rfl, _⟩ | ⟨rfl, _⟩ | ⟨rfl, _⟩ | ⟨rfl, _⟩ |
      ⟨rfl, _⟩ <;> rfl
  | @number value digits h =>
    have hmeasure : measureEscape (.char 'u' :: (symbols digits ++ s)) = .ok 5 := by
      simp only [measureEscape, readHex_spelled h]
      rfl
    cases h
    simp only [symbols, List.map_cons, List.map_nil, List.cons_append, List.nil_append]
      at hmeasure ⊢
    simp only [measureFrom, hmeasure]
    rfl

theorem measureFrom_parts {parts : List (List Char)} (h : ∀ part ∈ parts, IsStringPart part)
    (n : Nat) (s : List Symbol) :
    measureFrom n 0 (symbols (parts.flatten ++ ['\x22']) ++ s) =
      .ok (n + (parts.flatten ++ ['\x22']).length) := by
  induction parts generalizing n with
  | nil => rfl
  | cons part parts ih =>
    have hpart := measureFrom_part (h part List.mem_cons_self) n
      (symbols (parts.flatten ++ ['\x22']) ++ s)
    have hrest := ih (fun other hother => h other (List.mem_cons_of_mem part hother))
      (n + part.length)
    rw [List.flatten_cons, List.append_assoc, symbols, List.map_append, List.append_assoc, hpart,
      hrest]
    simp only [List.length_append, Nat.add_assoc]

/-- The text of a string is measured up to its closing quote. -/
theorem exists_measure {text : List Char} (h : IsString text) :
    ∃ tail, text = '\x22' :: tail ∧
      ∀ s, StringLiteral.measure (symbols tail ++ s) = .ok tail.length := by
  cases h with
  | @quoted parts h =>
    refine ⟨parts.flatten ++ ['\x22'], rfl, fun s => ?_⟩
    rw [StringLiteral.measure, measureFrom_parts h, Nat.zero_add]

end Measuring

end SyscallPolicy.Json
