import SyscallPolicy.Proofs.Json.Numbers
import SyscallPolicy.Proofs.Json.Structure

/-! The texts that are JSON values, with any blanks around their tokens. -/
namespace SyscallPolicy.Json
open Policy.Printer (separated)
open Text (Symbol)

/-- Blanks and nothing else. -/
def Blanks (text : List Char) : Prop := ∀ c ∈ text, c ∈ [' ', '\t', '\n', '\r']

/-- A text between blanks. -/
inductive Padded (P : List Char → Prop) : List Char → Prop where
  | padded {before text after : List Char} : Blanks before → P text → Blanks after →
      Padded P (before ++ text ++ after)

/-- Parts between two brackets, with commas between them. Blanks may stand where there are none. -/
inductive Encloses (opening closing : Char) : List (List Char) → List Char → Prop where
  | empty {blanks : List Char} : Blanks blanks →
      Encloses opening closing [] (opening :: blanks ++ [closing])
  | parts (part : List Char) (parts : List (List Char)) :
      Encloses opening closing (part :: parts) (opening :: separated (part :: parts) ++ [closing])

theorem encloses_separated (opening closing : Char) (parts : List (List Char)) :
    Encloses opening closing parts (opening :: separated parts ++ [closing]) := by
  cases parts with
  | nil => exact @Encloses.empty _ _ [] nofun
  | cons part parts => exact .parts part parts

/-- Values of JSON. -/
inductive IsValue : List Char → Prop where
  | null : IsValue ['n', 'u', 'l', 'l']
  | true : IsValue ['t', 'r', 'u', 'e']
  | false : IsValue ['f', 'a', 'l', 's', 'e']
  | number {sign whole fraction power : List Char} : sign ∈ [[], ['-']] → IsWhole whole →
      IsFraction fraction → IsPower power → IsValue (sign ++ whole ++ fraction ++ power)
  | string {text : List Char} : IsString text → IsValue text
  | list {items : List (List Char)} {text : List Char} : (∀ item ∈ items, IsValue item) →
      Encloses '[' ']' items text → IsValue text
  | object {members : List (List Char × List Char)} {text : List Char} :
      (∀ member ∈ members, Padded IsString member.1) → (∀ member ∈ members, IsValue member.2) →
      Encloses '\x7b' '\x7d' (members.map fun member => member.1 ++ ':' :: member.2) text →
      IsValue text
  | padded {before text after : List Char} : Blanks before → IsValue text → Blanks after →
      IsValue (before ++ text ++ after)

section Blanks

theorem Blanks.tail {c : Char} {blanks : List Char} (h : Blanks (c :: blanks)) : Blanks blanks :=
  fun d hd => h d (List.mem_cons_of_mem c hd)

theorem Blanks.isBlank {blanks : List Char} (h : Blanks blanks) {c : Char} (hc : c ∈ blanks) :
    isBlank (.char c) = true := by
  have hmem := h c hc
  simp only [List.mem_cons, List.not_mem_nil, or_false] at hmem
  rcases hmem with rfl | rfl | rfl | rfl <;> rfl

theorem skipBlanks_append {blanks : List Char} (h : Blanks blanks) (s : List Symbol) :
    skipBlanks (symbols blanks ++ s) = skipBlanks s := by
  induction blanks with
  | nil => rfl
  | cons c blanks ih =>
    have hc : isBlank (.char c) = true := h.isBlank List.mem_cons_self
    rw [symbols, List.map_cons, List.cons_append, skipBlanks, List.dropWhile_cons_of_pos hc]
    exact ih h.tail

/-- Only blanks are skipped. -/
theorem blanks_of_skipBlanks {text : List Char} (h : skipBlanks (symbols text) = []) :
    Blanks text := by
  intro c hc
  have hblank := List.dropWhile_eq_nil_iff.mp h (.char c) (List.mem_map_of_mem hc)
  unfold isBlank at hblank
  split at hblank
  iterate 4
    next heq =>
      cases heq
      decide
  · cases hblank

theorem padded_self {P : List Char → Prop} {text : List Char} (h : P text) : Padded P text := by
  have hpadded := @Padded.padded P [] text [] nofun h nofun
  rwa [List.nil_append, List.append_nil] at hpadded

theorem Padded.imp {P Q : List Char → Prop} {text : List Char} (h : Padded P text)
    (himp : ∀ text, P text → Q text) : Padded Q text := by
  cases h with
  | padded hbefore htext hafter => exact .padded hbefore (himp _ htext) hafter

/-- A number ends where blanks follow it. -/
theorem apart_append {blanks : List Char} (h : Blanks blanks) {s : List Symbol} (hs : Apart s) :
    Apart (symbols blanks ++ s) := by
  cases blanks with
  | nil => exact hs
  | cons c blanks =>
    have hmem := h c List.mem_cons_self
    simp only [List.mem_cons, List.not_mem_nil, or_false] at hmem
    rcases hmem with rfl | rfl | rfl | rfl <;> exact apart_cons rfl _

theorem leading?_cons {c : Char} (h : isBlank (.char c) = false) (text : List Char) :
    leading? (c :: text) = some c := by
  rw [leading?, List.find?_cons, h]
  rfl

theorem leading?_padded {before text : List Char} {c : Char} (h : Blanks before)
    (hc : leading? text = some c) (after : List Char) :
    leading? (before ++ text ++ after) = some c := by
  have hnone : before.find? (fun c => !Json.isBlank (.char c)) = none := by
    rw [List.find?_eq_none]
    intro d hd
    rw [h.isBlank hd]
    decide
  rw [leading?] at hc ⊢
  rw [List.find?_append, List.find?_append, hnone, Option.none_or, hc, Option.some_or]

end Blanks

end SyscallPolicy.Json
