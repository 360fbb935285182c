import SyscallPolicy.Proofs.Json.Grammar

/-! Documents: what the text of a value says, every literal in it as it is written. -/
namespace SyscallPolicy.Json
open Text (Symbol)

/-- A value of a document. Members of an object are kept in order, with names that repeat. A string
that spells no text, since half of a surrogate pair stands alone in it, has none. -/
inductive Node where
  | null
  | boolean (value : Bool)
  | number (literal : List Char)
  | string (text : Option String)
  | list (items : List Node)
  | object (members : List (Option String × Node))

/-- The values of the members with a name, in order. -/
def valuesOf (name : String) (members : List (Option String × Node)) : List Node :=
  members.filterMap fun (other, value) => if other = some name then some value else none

namespace Node

/-- The values that an object holds under a name. -/
def named (name : String) : Node → List Node
  | object members => valuesOf name members
  | _ => []

def items : Node → List Node
  | list items => items
  | _ => []

end Node

/-- A value with the text that writes it and the blanks around that. -/
structure Written where
  node : Node
  before : List Char
  core : List Char
  after : List Char

namespace Written

def text (written : Written) : List Char := written.before ++ written.core ++ written.after

def Spaced (written : Written) : Prop := Blanks written.before ∧ Blanks written.after

end Written

/-- A member of an object, its name as it is spelled with the blanks around it. -/
structure WrittenMember where
  name : Option String
  spelled : List Char
  value : Written

namespace WrittenMember

def text (member : WrittenMember) : List Char := member.spelled ++ ':' :: member.value.text

/-- What the member says. -/
def entry (member : WrittenMember) : Option String × Node := (member.name, member.value.node)

end WrittenMember

/-- Literals of strings, with what they spell. -/
inductive WritesString : Option String → List Char → Prop where
  | text {text : String} {literal : List Char} : SpellsString text literal →
      WritesString (some text) literal
  | broken {literal : List Char} : IsString literal → (∀ text, ¬SpellsString text literal) →
      WritesString none literal

/-- The texts that write a value. Numbers may have a plus sign or zeros in front, which JSON does
not allow, so that it can be said what becomes of these. -/
inductive Writes : Node → List Char → Prop where
  | null : Writes .null ['n', 'u', 'l', 'l']
  | true : Writes (.boolean Bool.true) ['t', 'r', 'u', 'e']
  | false : Writes (.boolean Bool.false) ['f', 'a', 'l', 's', 'e']
  | number {sign whole fraction power : List Char} : sign ∈ [[], ['-'], ['+']] →
      IsDigits whole → IsFraction fraction → IsPower power →
      Writes (.number (sign ++ whole ++ fraction ++ power)) (sign ++ whole ++ fraction ++ power)
  | string {text : Option String} {literal : List Char} : WritesString text literal →
      Writes (.string text) literal
  | list {items : List Written} {text : List Char} : (∀ item ∈ items, Writes item.node item.core) →
      (∀ item ∈ items, item.Spaced) → Encloses '[' ']' (items.map (·.text)) text →
      Writes (.list (items.map (·.node))) text
  | object {members : List WrittenMember} {text : List Char} :
      (∀ member ∈ members, Padded (WritesString member.name) member.spelled) →
      (∀ member ∈ members, Writes member.value.node member.value.core) →
      (∀ member ∈ members, member.value.Spaced) →
      Encloses '\x7b' '\x7d' (members.map (·.text)) text →
      Writes (.object (members.map (·.entry))) text

/-- What a text begins with tells which kind of value it writes. -/
def Node.BeginsWith : Node → Char → Prop
  | null, c => c = 'n'
  | boolean _, c => c = 't' ∨ c = 'f'
  | number _, c => c = '-' ∨ c = '+' ∨ c.isDigit = true
  | string _, c => c = '\x22'
  | list _, c => c = '['
  | object _, c => c = '\x7b'

section Reading

theorem exists_parts_of_spells {cs : List Char} {spelled : List (List Char)}
    (h : List.Forall₂ SpellsChar cs spelled) :
    ∃ parts : List (List Char), (∀ part ∈ parts, IsStringPart part) ∧
      parts.flatten = spelled.flatten := by
  induction h with
  | nil => exact ⟨[], nofun, rfl⟩
  | @cons c part cs spelled hpart _ ih =>
    obtain ⟨parts, hparts, hflatten⟩ := ih
    have hone (h : IsStringPart part) : ∃ parts : List (List Char),
        (∀ part ∈ parts, IsStringPart part) ∧ parts.flatten = (part :: spelled).flatten :=
      ⟨part :: parts, List.forall_mem_cons.mpr ⟨h, hparts⟩, by
        rw [List.flatten_cons, List.flatten_cons, hflatten]⟩
    cases hpart with
    | raw hraw => exact hone (.raw hraw)
    | short hshort => exact hone (.short hshort)
    | number hdigits => exact hone (.number hdigits)
    | @pair n high low _ hhigh hlow =>
      refine ⟨('\\' :: 'u' :: high) :: ('\\' :: 'u' :: low) :: parts, ?_, by simp [hflatten]⟩
      simp only [List.forall_mem_cons]
      exact ⟨.number hhigh, .number hlow, hparts⟩

theorem SpellsString.isString {text : String} {literal : List Char}
    (h : SpellsString text literal) : IsString literal := by
  cases h with
  | quoted hspelled =>
    obtain ⟨parts, hparts, hflatten⟩ := exists_parts_of_spells hspelled
    rw [← hflatten]
    exact .quoted hparts

theorem WritesString.isString {text : Option String} {literal : List Char}
    (h : WritesString text literal) : IsString literal := by
  cases h with
  | text h => exact h.isString
  | broken h _ => exact h

theorem exists_cons_of_writes {node : Node} {text : List Char} (h : Writes node text) :
    ∃ c tail, text = c :: tail ∧ isBlank (.char c) = false ∧ node.BeginsWith c := by
  cases h with
  | null => exact ⟨'n', _, rfl, rfl, rfl⟩
  | true => exact ⟨'t', _, rfl, rfl, .inl rfl⟩
  | false => exact ⟨'f', _, rfl, rfl, .inr rfl⟩
  | @number sign whole fraction power hsign hwhole _ _ =>
    simp only [List.mem_cons, List.not_mem_nil, or_false] at hsign
    rcases hsign with rfl | rfl | rfl
    · obtain ⟨d, ds, rfl⟩ := List.exists_cons_of_ne_nil hwhole.1
      have hdigit : d.isDigit = true := hwhole.2 d List.mem_cons_self
      exact ⟨d, _, rfl, isBlank_of_isDigit hdigit, .inr (.inr hdigit)⟩
    · exact ⟨'-', _, rfl, rfl, .inl rfl⟩
    · exact ⟨'+', _, rfl, rfl, .inr (.inl rfl)⟩
  | string h =>
    cases h.isString
    exact ⟨'\x22', _, rfl, rfl, rfl⟩
  | @list items _ _ _ htext =>
    generalize items.map (·.text) = parts at htext
    cases htext <;> exact ⟨'[', _, rfl, rfl, rfl⟩
  | @object members _ _ _ _ htext =>
    generalize members.map (·.text) = parts at htext
    cases htext <;> exact ⟨'\x7b', _, rfl, rfl, rfl⟩

end Reading

section Values

theorem exists_writesString {literal : List Char} (h : IsString literal) :
    ∃ text, WritesString text literal := by
  by_cases hspelled : ∃ text, SpellsString text literal
  · obtain ⟨text, htext⟩ := hspelled
    exact ⟨some text, .text htext⟩
  · exact ⟨none, .broken h fun text htext => hspelled ⟨text, htext⟩⟩

theorem Written.of_padded {node : Node} {text : List Char} (h : Padded (Writes node) text) :
    ∃ written : Written, written.node = node ∧ written.text = text ∧
      Writes node written.core ∧ written.Spaced := by
  obtain @⟨before, core, after, hbefore, hcore, hafter⟩ := h
  exact ⟨⟨node, before, core, after⟩, rfl, rfl, hcore, hbefore, hafter⟩

theorem exists_written {items : List (List Char)}
    (h : ∀ item ∈ items, ∃ node, Padded (Writes node) item) :
    ∃ written : List Written, written.map (·.text) = items ∧
      (∀ item ∈ written, Writes item.node item.core) ∧ ∀ item ∈ written, item.Spaced := by
  induction items with
  | nil => exact ⟨[], rfl, nofun, nofun⟩
  | cons item items ih =>
    obtain ⟨node, hnode⟩ := h item List.mem_cons_self
    obtain ⟨first, rfl, rfl, hwrites, hspaced⟩ := Written.of_padded hnode
    obtain ⟨written, rfl, hall, hblanks⟩ := ih fun other hother =>
      h other (List.mem_cons_of_mem _ hother)
    exact ⟨first :: written, rfl, List.forall_mem_cons.mpr ⟨hwrites, hall⟩,
      List.forall_mem_cons.mpr ⟨hspaced, hblanks⟩⟩

theorem exists_writtenMember {members : List (List Char × List Char)}
    (hnames : ∀ member ∈ members, Padded IsString member.1)
    (hvalues : ∀ member ∈ members, ∃ node, Padded (Writes node) member.2) :
    ∃ written : List WrittenMember,
      written.map (·.text) = members.map (fun member => member.1 ++ ':' :: member.2) ∧
      (∀ member ∈ written, Padded (WritesString member.name) member.spelled) ∧
      (∀ member ∈ written, Writes member.value.node member.value.core) ∧
      ∀ member ∈ written, member.value.Spaced := by
  induction members with
  | nil => exact ⟨[], rfl, nofun, nofun, nofun⟩
  | cons member members ih =>
    obtain ⟨spelled, text⟩ := member
    obtain @⟨before, literal, after, hbefore, hliteral, hafter⟩ := hnames _ List.mem_cons_self
    obtain ⟨name, hname⟩ := exists_writesString hliteral
    obtain ⟨node, hnode⟩ := hvalues _ List.mem_cons_self
    obtain ⟨value, rfl, rfl, hwrites, hspaced⟩ := Written.of_padded hnode
    obtain ⟨written, htext, hspelled, hall, hblanks⟩ := ih
      (fun other hother => hnames other (List.mem_cons_of_mem _ hother))
      (fun other hother => hvalues other (List.mem_cons_of_mem _ hother))
    refine ⟨⟨name, before ++ literal ++ after, value⟩ :: written, ?_,
      List.forall_mem_cons.mpr ⟨.padded hbefore hname hafter, hspelled⟩,
      List.forall_mem_cons.mpr ⟨hwrites, hall⟩, List.forall_mem_cons.mpr ⟨hspaced, hblanks⟩⟩
    rw [List.map_cons, List.map_cons, htext]
    rfl

/-- Every value of JSON writes something. -/
theorem exists_writes {text : List Char} (h : IsValue text) :
    ∃ node, Padded (Writes node) text := by
  induction h with
  | null => exact ⟨_, padded_self .null⟩
  | true => exact ⟨_, padded_self .true⟩
  | false => exact ⟨_, padded_self .false⟩
  | number hsign hwhole hfraction hpower =>
    cases hwhole with
    | digits hdigits _ =>
      refine ⟨_, padded_self (.number ?_ hdigits hfraction hpower)⟩
      simp only [List.mem_cons, List.not_mem_nil, or_false] at hsign ⊢
      rcases hsign with rfl | rfl
      · exact .inl rfl
      · exact .inr (.inl rfl)
  | string h =>
    obtain ⟨text, htext⟩ := exists_writesString h
    exact ⟨_, padded_self (.string htext)⟩
  | list _ htext ih =>
    obtain ⟨written, rfl, hwrites, hspaced⟩ := exists_written ih
    exact ⟨_, padded_self (.list hwrites hspaced htext)⟩
  | object hnames _ htext ih =>
    obtain ⟨written, heq, hspelled, hwrites, hspaced⟩ := exists_writtenMember hnames ih
    rw [← heq] at htext
    exact ⟨_, padded_self (.object hspelled hwrites hspaced htext)⟩
  | @padded before text after hbefore _ hafter ih =>
    obtain ⟨node, hnode⟩ := ih
    obtain @⟨before', core, after', hbefore', hcore, hafter'⟩ := hnode
    have htext : before ++ (before' ++ core ++ after') ++ after =
        (before ++ before') ++ core ++ (after' ++ after) := by
      simp
    rw [htext]
    exact ⟨node, .padded (fun c hc => (List.mem_append.mp hc).elim (hbefore c) (hbefore' c)) hcore
      fun c hc => (List.mem_append.mp hc).elim (hafter' c) (hafter c)⟩

end Values

section Printed
open Policy.Printer (member natural)
open StringLiteral (write)

theorem writes_string (text : String) : Writes (.string (some text)) (write text) :=
  .string (.text (spellsString_write text))

theorem writes_natural (n : Nat) : Writes (.number (natural n)) (natural n) := by
  have hdigits : IsDigits (natural n) := by
    cases isWhole_natural n with
    | digits h _ => exact h
  have hnumber := @Writes.number [] (natural n) [] [] List.mem_cons_self hdigits .none .none
  rwa [List.nil_append, List.append_nil, List.append_nil] at hnumber

/-- A value with no blanks around it. -/
def Written.bare (node : Node) (core : List Char) : Written := ⟨node, [], core, []⟩

theorem Written.text_bare (node : Node) (core : List Char) : (bare node core).text = core := by
  simp [bare, Written.text]

theorem Written.spaced_bare (node : Node) (core : List Char) : (bare node core).Spaced :=
  ⟨nofun, nofun⟩

/-- The text of a list writes its items if theirs do. -/
theorem writes_list {items : List (Node × List Char)} (h : ∀ item ∈ items, Writes item.1 item.2) :
    Writes (.list (items.map (·.1))) (Policy.Printer.list (items.map (·.2))) := by
  have hitems : ∀ item ∈ items.map fun item => Written.bare item.1 item.2,
      Writes item.node item.core := List.forall_mem_map.mpr h
  have hlist := Writes.list hitems
    (List.forall_mem_map.mpr fun item _ => Written.spaced_bare item.1 item.2)
    (encloses_separated '[' ']' _)
  simp only [List.map_map, Function.comp_def, Written.text_bare] at hlist
  exact hlist

theorem writes_object {members : List (String × Node × List Char)}
    (h : ∀ one ∈ members, Writes one.2.1 one.2.2) :
    Writes (.object (members.map fun one => (some one.1, one.2.1)))
      (Policy.Printer.object (members.map fun one => member one.1 one.2.2)) := by
  let written (one : String × Node × List Char) : WrittenMember :=
    ⟨some one.1, write one.1, .bare one.2.1 one.2.2⟩
  have hnames : ∀ one ∈ members.map written, Padded (WritesString one.name) one.spelled :=
    List.forall_mem_map.mpr fun one _ => padded_self (.text (spellsString_write one.1))
  have hvalues : ∀ one ∈ members.map written, Writes one.value.node one.value.core :=
    List.forall_mem_map.mpr h
  have hobject := Writes.object hnames hvalues
    (List.forall_mem_map.mpr fun one _ => Written.spaced_bare one.2.1 one.2.2)
    (encloses_separated '\x7b' '\x7d' _)
  simp only [written, List.map_map, Function.comp_def, WrittenMember.text, Written.text_bare]
    at hobject
  exact hobject

end Printed

end SyscallPolicy.Json
