import Mathlib.Data.List.DropRight
import SyscallPolicy.Json.Record

/-! What readers take a text for, wherever it stands. -/
namespace SyscallPolicy.Json
open Text (Symbol)

/-- The symbols of a text. -/
abbrev symbols (text : List Char) : List Symbol := text.map .char

/-- Whether a number could go on with a symbol. -/
def continuesNumeral : Symbol → Bool
  | .char c => c.isDigit || c = '.' || c = 'e' || c = 'E'
  | .stray _ => false

/-- What may follow a number. -/
def Apart (s : List Symbol) : Prop := ∀ a ∈ s.head?, continuesNumeral a = false

/-- The first character of a text that is not a blank. -/
def leading? (text : List Char) : Option Char := text.find? fun c => !isBlank (.char c)

/-- A reader takes a text for a value wherever the text stands. Blanks before it and after it make
no difference. -/
def Reads {α : Type} (reader : Reader α) (text : List Char) (value : α) : Prop :=
  ∀ s rest, Apart rest → skipBlanks s = skipBlanks (symbols text ++ rest) →
    ∃ left, reader s = .ok (value, left) ∧ skipBlanks left = skipBlanks rest

theorem apart_cons {c : Char} (h : continuesNumeral (.char c) = false) (s : List Symbol) :
    Apart (.char c :: s) := by
  intro a ha
  rw [List.head?_cons, Option.mem_some_iff] at ha
  rwa [← ha]

theorem skipBlanks_cons {a : Symbol} (h : isBlank a = false) (s : List Symbol) :
    skipBlanks (a :: s) = a :: s := by
  rw [skipBlanks, List.dropWhile_cons, h, if_neg Bool.false_ne_true]

/-- The text behind the blanks that it begins with. -/
theorem exists_skipBlanks {text : List Char} {c : Char} (h : leading? text = some c) :
    ∃ tail, tail.length < text.length ∧ ∀ rest,
      skipBlanks (symbols text ++ rest) = .char c :: (symbols tail ++ rest) := by
  induction text with
  | nil => cases h
  | cons b text ih =>
    rw [leading?, List.find?_cons] at h
    cases hblank : isBlank (.char b) with
    | false =>
      rw [hblank] at h
      cases h
      exact ⟨text, Nat.lt_succ_self _, fun rest => skipBlanks_cons hblank _⟩
    | true =>
      rw [hblank] at h
      obtain ⟨tail, hlength, htail⟩ := ih h
      refine ⟨tail, Nat.lt_succ_of_lt hlength, fun rest => ?_⟩
      rw [← htail rest, symbols, List.map_cons, List.cons_append, skipBlanks,
        List.dropWhile_cons_of_pos hblank]
      rfl

section Values
variable {α β : Type} {reader : Reader α} {text : List Char} {value : α}

theorem Reads.map (h : Reads reader text value) (f : α → β) :
    Reads (fun s => (reader s).map fun (value, s) => (f value, s)) text (f value) := by
  intro s rest hrest hs
  obtain ⟨left, hread, hleft⟩ := h s rest hrest hs
  exact ⟨left, by simp only [hread]; rfl, hleft⟩

theorem reads_null : Reads (readNullable reader) ['n', 'u', 'l', 'l'] none := by
  intro s rest _ hs
  refine ⟨rest, ?_, rfl⟩
  simp only [readNullable, hs]
  rfl

theorem Reads.nullable {c : Char} (h : Reads reader text value) (hc : leading? text = some c)
    (hn : c ≠ 'n') : Reads (readNullable reader) text (some value) := by
  intro s rest hrest hs
  obtain ⟨left, hread, hleft⟩ := h s rest hrest hs
  obtain ⟨tail, _, htail⟩ := exists_skipBlanks hc
  refine ⟨left, ?_, hleft⟩
  unfold readNullable
  split
  · next heq =>
    rw [hs, htail, List.cons.injEq, Symbol.char.injEq] at heq
    exact absurd heq.1 hn
  · rw [hread]
    rfl

/-- A document is read if its text is, with nothing after it. -/
theorem Reads.document (h : Reads reader text value) :
    reader.document (symbols text) = .ok value := by
  obtain ⟨left, hread, hleft⟩ := h (symbols text) [] (fun _ ha => by cases ha)
    (by rw [List.append_nil])
  simp only [Reader.document, hread, hleft]
  rfl

end Values

end SyscallPolicy.Json
