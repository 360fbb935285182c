import Mathlib.Data.List.Forall2
import SyscallPolicy.Json.Record
import SyscallPolicy.Policy.Printer
import SyscallPolicy.Proofs.Json.Strings

/-! Lists and records are read if their parts are, in the order in which the parts stand. -/
namespace SyscallPolicy.Json
open Policy.Printer (list member object separated)
open Text (Symbol)

section Lists
variable {α : Type} {reader : Reader α}

/-- A list's parts, the first of them with no comma in front. -/
theorem separated_cons (item : List Char) (items : List (List Char)) :
    separated (item :: items) = item ++ items.flatMap (',' :: ·) := by
  induction items generalizing item with
  | nil => simp [separated]
  | cons next items ih =>
    have hnext : separated (item :: next :: items) = item ++ ',' :: separated (next :: items) := rfl
    rw [hnext, ih, List.flatMap_cons, List.cons_append]

theorem length_le_flatMap (items : List (List Char)) :
    items.length ≤ (items.flatMap (',' :: ·)).length := by
  induction items with
  | nil => exact Nat.le_refl 0
  | cons item items ih =>
    rw [List.flatMap_cons, List.length_append, List.length_cons, List.length_cons]
    omega

/-- A text that is read as an element of a list. -/
structure ReadsElement (reader : Reader α) (item : List Char) (value : α) : Prop where
  reads : Reads reader item value
  leads : ∃ c, leading? item = some c ∧ c ≠ ']'

theorem skipBlanks_skipBlanks (s : List Symbol) : skipBlanks (skipBlanks s) = skipBlanks s :=
  List.dropWhile_idempotent isBlank s

/-- What separates the parts of a list or an object, and what closes it, ends a number. -/
theorem apart_flatMap (closing : Char) (h : continuesNumeral (.char closing) = false)
    (items : List (List Char)) (rest : List Symbol) :
    Apart (symbols (items.flatMap (',' :: ·)) ++ .char closing :: rest) := by
  cases items with
  | nil => exact apart_cons h rest
  | cons item items => exact apart_cons (by decide) _

theorem nextElement_first {item : List Char} {s rest : List Symbol}
    (hitem : ∃ c, leading? item = some c ∧ c ≠ ']')
    (hs : skipBlanks s = skipBlanks (symbols item ++ rest)) :
    nextElement true s = .ok (some (skipBlanks (symbols item ++ rest))) := by
  obtain ⟨c, hc, hne⟩ := hitem
  obtain ⟨tail, _, htail⟩ := exists_skipBlanks hc
  unfold nextElement
  rw [hs, htail]
  split
  · next heq => cases heq
  · next heq =>
    cases heq
    exact absurd rfl hne
  · next heq =>
    cases heq
    rfl

theorem nextElement_comma {item : List Char} {s rest : List Symbol}
    (hitem : ∃ c, leading? item = some c ∧ c ≠ ']')
    (hs : skipBlanks s = .char ',' :: (symbols item ++ rest)) :
    nextElement false s = .ok (some (skipBlanks (symbols item ++ rest))) := by
  obtain ⟨c, hc, hne⟩ := hitem
  obtain ⟨tail, _, htail⟩ := exists_skipBlanks hc
  unfold nextElement
  rw [hs]
  split
  · next heq => cases heq
  · next heq => cases heq
  · next heq =>
    cases heq
    rw [if_neg Bool.false_ne_true, if_pos rfl, htail]
    split
    · next heq => cases heq
    · next heq =>
      cases heq
      exact absurd rfl hne
    · rfl

/-- The elements after the first one are read, each with a comma in front. -/
theorem readElements_flatMap {items : List (List Char)} {values : List α}
    (h : List.Forall₂ (ReadsElement reader) items values) {limit : Nat}
    (hlimit : items.length < limit) (done : List α) {s rest : List Symbol}
    (hs : skipBlanks s = skipBlanks (symbols (items.flatMap (',' :: ·)) ++ .char ']' :: rest)) :
    readElements reader limit false done s = .ok (done.reverse ++ values, rest) := by
  induction h generalizing limit done s with
  | nil =>
    obtain ⟨limit, rfl⟩ := Nat.exists_eq_add_one_of_ne_zero (Nat.ne_zero_of_lt hlimit)
    have hclosing : skipBlanks s = .char ']' :: rest := hs
    have hnext : nextElement false s = .ok none := by simp only [nextElement, hclosing]
    simp only [readElements, hnext, endList, hclosing, bind, Except.bind, pure, Except.pure,
      List.append_nil]
  | @cons item value items values hitem _ ih =>
    obtain ⟨limit, rfl⟩ := Nat.exists_eq_add_one_of_ne_zero (Nat.ne_zero_of_lt hlimit)
    have hcomma : skipBlanks s = .char ',' ::
        (symbols item ++ (symbols (items.flatMap (',' :: ·)) ++ .char ']' :: rest)) := by
      rw [hs]
      simp [skipBlanks_cons, isBlank]
    have hnext := nextElement_comma hitem.leads hcomma
    obtain ⟨left, hread, hleft⟩ := hitem.reads _ _
      (apart_flatMap ']' (by decide) items rest) (skipBlanks_skipBlanks _)
    have hrest := ih (Nat.lt_of_succ_lt_succ hlimit) (value :: done) hleft
    simp only [readElements, hnext, hread, bind, Except.bind]
    rw [hrest, List.reverse_cons, List.append_assoc, List.singleton_append]

theorem reads_list {items : List (List Char)} {values : List α}
    (h : List.Forall₂ (ReadsElement reader) items values) :
    Reads (readList reader) (list items) values := by
  intro s rest _ hs
  refine ⟨rest, ?_, rfl⟩
  have hopening : skipBlanks s =
      .char '[' :: (symbols (separated items) ++ .char ']' :: rest) := by
    rw [hs]
    simp [list, skipBlanks_cons, isBlank]
  simp only [readList, hopening]
  cases h with
  | nil =>
    have hnext : nextElement true (.char ']' :: rest) = .ok none := rfl
    simp only [separated, symbols, List.map_nil, List.nil_append, readElements, hnext, bind,
      Except.bind]
    rfl
  | @cons item value items values hitem hitems =>
    simp only [separated_cons, symbols, List.map_append, List.append_assoc]
    obtain ⟨left, hread, hleft⟩ := hitem.reads _ _
      (apart_flatMap ']' (by decide) items rest) (skipBlanks_skipBlanks _)
    have hlimit : items.length <
        (symbols item ++ (symbols (items.flatMap (',' :: ·)) ++ .char ']' :: rest)).length := by
      have hlength := length_le_flatMap items
      simp only [List.length_append, List.length_map, List.length_cons]
      omega
    have hrest := readElements_flatMap hitems hlimit [value] hleft
    simp only [readElements, nextElement_first hitem.leads rfl, hread, bind, Except.bind]
    exact hrest

end Lists

namespace Schema
variable {σ : Type} {schema : Schema σ} {record next last : σ}

/-- A text by which a record comes by one more member. -/
def ReadsMember (schema : Schema σ) (record : σ) (text : List Char) (next : σ) : Prop :=
  ∀ s rest, Apart rest → skipBlanks s = skipBlanks (symbols text ++ rest) →
    ∃ name left, skipBlanks s = .char '\x22' :: name ∧
      schema.readMember record name = .ok (next, left) ∧ skipBlanks left = skipBlanks rest

/-- Texts of members that lead from one record to another. -/
inductive ReadsMembers (schema : Schema σ) : σ → List (List Char) → σ → Prop where
  | nil (record : σ) : ReadsMembers schema record [] record
  | cons {record next last : σ} {text : List Char} {texts : List (List Char)} :
      schema.ReadsMember record text next → ReadsMembers schema next texts last →
      ReadsMembers schema record (text :: texts) last

/-- A text that is read as the name of a member, with any blanks around it. -/
def ReadsName (text : List Char) (name : String) : Prop :=
  ∀ s, ∃ body left, skipBlanks (symbols text ++ s) = .char '\x22' :: body ∧
    StringLiteral.read body = .ok (name, left) ∧ skipBlanks left = skipBlanks s

theorem readsName_write (name : String) : ReadsName (StringLiteral.write name) name := by
  obtain ⟨tail, htail, hread⟩ := exists_read_spelled (spellsString_write name)
  intro s
  rw [htail]
  exact ⟨_, s, skipBlanks_cons rfl _, hread s, rfl⟩

/-- A member is its name, a colon and its value, in the order in which they are read. -/
theorem ReadsName.readColon {name : String} {spelled : List Char} (hname : ReadsName spelled name)
    (text : List Char) (rest : List Symbol) :
    ∃ body behind, skipBlanks (symbols (spelled ++ ':' :: text) ++ rest) = .char '\x22' :: body ∧
      StringLiteral.read body = .ok (name, behind) ∧
      Json.readColon behind = .ok ((), symbols text ++ rest) := by
  obtain ⟨body, behind, hquote, hspelled, hbehind⟩ := hname (.char ':' :: (symbols text ++ rest))
  have hsymbols : symbols (spelled ++ ':' :: text) ++ rest =
      symbols spelled ++ .char ':' :: (symbols text ++ rest) := by
    simp
  rw [skipBlanks_cons rfl] at hbehind
  refine ⟨body, behind, ?_, hspelled, ?_⟩
  · rw [hsymbols, hquote]
  · simp only [Json.readColon, hbehind, if_pos]

/-- A member that has the name of a field, which the record does not have yet. -/
theorem readsMember_known {name : String} {field : Member σ} {spelled text : List Char}
    (hname : ReadsName spelled name)
    (hfind : schema.fields.find? (·.name = name) = some field)
    (hset : field.isSet record = false) (hread : Reads (field.read record) text next) :
    schema.ReadsMember record (spelled ++ ':' :: text) next := by
  intro s rest hrest hs
  obtain ⟨body, behind, hquote, hspelled, hcolon⟩ := hname.readColon text rest
  obtain ⟨left, hvalue, hleft⟩ := hread (symbols text ++ rest) rest hrest rfl
  refine ⟨body, left, hs.trans hquote, ?_, hleft⟩
  simp only [readMember, hspelled, hfind, hset, hcolon, hvalue, bind, Except.bind,
    Bool.false_eq_true, if_false]

/-- A member that has the name of no field. -/
theorem readsMember_other {name : String} {spelled text : List Char}
    (hname : ReadsName spelled name) (hfind : schema.fields.find? (·.name = name) = none)
    (hskip : Reads skipValue text ()) :
    schema.ReadsMember record (spelled ++ ':' :: text) record := by
  intro s rest hrest hs
  obtain ⟨body, behind, hquote, hspelled, hcolon⟩ := hname.readColon text rest
  obtain ⟨left, hvalue, hleft⟩ := hskip (symbols text ++ rest) rest hrest rfl
  refine ⟨body, left, hs.trans hquote, ?_, hleft⟩
  simp only [readMember, hspelled, hfind, hcolon, hvalue, bind, Except.bind, pure, Except.pure]

theorem readsMember_field {name : String} {field : Member σ} {text : List Char}
    (hfind : schema.fields.find? (·.name = name) = some field)
    (hset : field.isSet record = false) (hread : Reads (field.read record) text next) :
    schema.ReadsMember record (member name text) next :=
  readsMember_known (readsName_write name) hfind hset hread

theorem nextName_closing (first : Bool) {s rest : List Symbol}
    (hs : skipBlanks s = .char '\x7d' :: rest) : nextName first s = .ok none := by
  simp only [nextName, hs]

theorem nextName_first {s name : List Symbol} (hs : skipBlanks s = .char '\x22' :: name) :
    nextName true s = .ok (some name) := by
  unfold nextName
  rw [hs]
  rfl

theorem nextName_comma {s tail name : List Symbol} (hs : skipBlanks s = .char ',' :: tail)
    (hname : skipBlanks tail = .char '\x22' :: name) : nextName false s = .ok (some name) := by
  unfold nextName
  rw [hs]
  split
  · next heq => cases heq
  · next heq => cases heq
  · next heq =>
    cases heq
    rw [if_neg Bool.false_ne_true, if_pos rfl, hname]
    rfl

theorem readMembers_flatMap {texts : List (List Char)}
    (h : schema.ReadsMembers record texts last) {limit : Nat} (hlimit : texts.length < limit)
    {s rest : List Symbol}
    (hs : skipBlanks s =
      skipBlanks (symbols (texts.flatMap (',' :: ·)) ++ .char '\x7d' :: rest)) :
    schema.readMembers limit false record s = .ok (last, rest) := by
  induction h generalizing limit s with
  | nil record =>
    obtain ⟨limit, rfl⟩ := Nat.exists_eq_add_one_of_ne_zero (Nat.ne_zero_of_lt hlimit)
    have hclosing : skipBlanks s = .char '\x7d' :: rest := hs
    simp only [readMembers, nextName_closing false hclosing, hclosing, bind, Except.bind, pure,
      Except.pure, List.tail_cons]
  | @cons record next last text texts htext _ ih =>
    obtain ⟨limit, rfl⟩ := Nat.exists_eq_add_one_of_ne_zero (Nat.ne_zero_of_lt hlimit)
    have hcomma : skipBlanks s = .char ',' ::
        (symbols text ++ (symbols (texts.flatMap (',' :: ·)) ++ .char '\x7d' :: rest)) := by
      rw [hs]
      simp [skipBlanks_cons, isBlank]
    obtain ⟨name, left, hname, hread, hleft⟩ := htext _ _
      (apart_flatMap '\x7d' (by decide) texts rest) rfl
    have hrest := ih (Nat.lt_of_succ_lt_succ hlimit) hleft
    simp only [readMembers, nextName_comma hcomma hname, hread, bind, Except.bind]
    exact hrest

/-- An object is read if its members lead to a record with all required fields. -/
theorem reads_object {texts : List (List Char)} (h : schema.ReadsMembers record texts last)
    (hmissing : schema.missing? last = none) :
    Reads (schema.read record) (object texts) last := by
  intro s rest _ hs
  refine ⟨rest, ?_, rfl⟩
  have hopening : skipBlanks s =
      .char '\x7b' :: (symbols (separated texts) ++ .char '\x7d' :: rest) := by
    rw [hs]
    simp [object, skipBlanks_cons, isBlank]
  have hmembers : schema.readMembers
      ((symbols (separated texts) ++ .char '\x7d' :: rest).length + 1) true record
      (symbols (separated texts) ++ .char '\x7d' :: rest) = .ok (last, rest) := by
    cases h with
    | nil => rfl
    | @cons _ next _ text texts htext htexts =>
      simp only [separated_cons, symbols, List.map_append, List.append_assoc]
      obtain ⟨name, left, hname, hread, hleft⟩ := htext _ _
        (apart_flatMap '\x7d' (by decide) texts rest) rfl
      have hlimit : texts.length < (symbols text ++
          (symbols (texts.flatMap (',' :: ·)) ++ .char '\x7d' :: rest)).length := by
        have hlength := length_le_flatMap texts
        simp only [List.length_append, List.length_map, List.length_cons]
        omega
      have hrest := readMembers_flatMap htexts hlimit hleft
      simp only [readMembers, nextName_first hname, hread, bind, Except.bind]
      exact hrest
  simp only [Schema.read, hopening, readObject, hmembers, hmissing, bind, Except.bind]
  rfl

end Schema

end SyscallPolicy.Json
