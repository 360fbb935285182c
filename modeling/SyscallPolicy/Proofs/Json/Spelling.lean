import SyscallPolicy.Proofs.Json.Skipping
import SyscallPolicy.Proofs.Lists

/-! Texts that spell a list or an object, its members in any order and others among them. A reader
gives the value back, however it is spelled. -/
namespace SyscallPolicy.Json
open Policy.Printer (separated)
open Text (Symbol)

section Values
variable {α : Type}

/-- A value, or `null` where it is absent. -/
inductive SpellsNullable (spells : α → List Char → Prop) : Option α → List Char → Prop where
  | null : SpellsNullable spells none ['n', 'u', 'l', 'l']
  | value {value : α} {text : List Char} : spells value text →
      SpellsNullable spells (some value) text

inductive SpellsList (spells : α → List Char → Prop) : List α → List Char → Prop where
  | list {values : List α} {items : List (List Char)} {text : List Char} :
      List.Forall₂ (fun value => Padded (spells value)) values items →
      Encloses '[' ']' items text → SpellsList spells values text

/-- A list, or `null` for the empty one. -/
inductive SpellsListOrNull (spells : α → List Char → Prop) : List α → List Char → Prop where
  | null : SpellsListOrNull spells [] ['n', 'u', 'l', 'l']
  | list {values : List α} {text : List Char} : SpellsList spells values text →
      SpellsListOrNull spells values text

end Values

/-- What an object holds under a name. -/
structure Part where
  name : String
  /-- Whether it may be left out. -/
  optional : Prop
  spells : List Char → Prop

/-- What a member with a name may hold: any value at all under a name of no part. -/
def held (parts : List Part) (name : String) : List Char → Prop :=
  ((parts.find? (·.name = name)).map Part.spells).getD IsValue

inductive SpellsMember (parts : List Part) (name : String) : List Char → Prop where
  | member {spelled text : List Char} : Padded (SpellsString name) spelled →
      Padded (held parts name) text → SpellsMember parts name (spelled ++ ':' :: text)

/-- The members of an object, in any order. Each part is there once, or else may be left out. -/
inductive SpellsObject (parts : List Part) : List Char → Prop where
  | object {names : List String} {members : List (List Char)} {text : List Char} :
      List.Forall₂ (SpellsMember parts) names members →
      (∀ part ∈ parts, names.count part.name = 1 ∨ part.name ∉ names ∧ part.optional) →
      Encloses '\x7b' '\x7d' members text → SpellsObject parts text

section Written
open StringLiteral (write)

theorem spellsMember_write {parts : List Part} (name : String) {text : List Char}
    (h : held parts name text) : SpellsMember parts name (write name ++ ':' :: text) :=
  .member (padded_self (spellsString_write name)) (padded_self h)

theorem spellsList_map {α : Type} {spells : α → List Char → Prop} {write : α → List Char}
    (h : ∀ value, spells value (write value)) (values : List α) :
    SpellsListOrNull spells values (Policy.Printer.list (values.map write)) := by
  refine .list (.list ?_ (encloses_separated _ _ _))
  rw [List.forall₂_map_right_iff, List.forall₂_same]
  exact fun value _ => padded_self (h value)

theorem spellsNullable_orNull {α : Type} {spells : α → List Char → Prop} {write : α → List Char}
    (h : ∀ value, spells value (write value)) (value : Option α) :
    SpellsNullable spells value (Policy.Printer.orNull write value) := by
  cases value with
  | none => exact .null
  | some value => exact .value (h value)

end Written

section Strings

theorem readsElement_spelled {text : String} {spelled : List Char} (h : SpellsString text spelled) :
    ReadsElement readString spelled text where
  reads := reads_spelled h
  leads := by
    obtain ⟨tail, rfl, _⟩ := exists_read_spelled h
    exact ⟨'\x22', rfl, by decide⟩

theorem readsName_spelled {name : String} {text : List Char} (h : Padded (SpellsString name) text) :
    Schema.ReadsName text name := by
  obtain @⟨before, spelled, after, hbefore, hspelled, hafter⟩ := h
  obtain ⟨tail, rfl, hread⟩ := exists_read_spelled hspelled
  intro s
  have hsymbols : symbols (before ++ '\x22' :: tail ++ after) ++ s =
      symbols before ++ .char '\x22' :: (symbols tail ++ (symbols after ++ s)) := by
    simp
  refine ⟨_, symbols after ++ s, ?_, hread _, skipBlanks_append hafter s⟩
  rw [hsymbols, skipBlanks_append hbefore, skipBlanks_cons rfl]

end Strings

section Lists
variable {α : Type} {reader : Reader α} {spells : α → List Char → Prop}

theorem reads_padded {P : List Char → Prop} {text : List Char} {value : α}
    (hread : ∀ text, P text → Reads reader text value) (h : Padded P text) :
    Reads reader text value := by
  obtain @⟨before, text, after, hbefore, htext, hafter⟩ := h
  intro s rest hrest hs
  have hsymbols : symbols (before ++ text ++ after) ++ rest =
      symbols before ++ (symbols text ++ (symbols after ++ rest)) := by
    simp
  rw [hsymbols, skipBlanks_append hbefore] at hs
  obtain ⟨left, hvalue, hleft⟩ := hread text htext s _ (apart_append hafter hrest) hs
  exact ⟨left, hvalue, hleft.trans (skipBlanks_append hafter rest)⟩

theorem readsElement_padded {P : List Char → Prop} {text : List Char} {value : α}
    (hread : ∀ text, P text → ReadsElement reader text value) (h : Padded P text) :
    ReadsElement reader text value where
  reads := reads_padded (fun text htext => (hread text htext).reads) h
  leads := by
    cases h with
    | padded hbefore htext _ =>
      obtain ⟨c, hc, hne⟩ := (hread _ htext).leads
      exact ⟨c, leading?_padded hbefore hc _, hne⟩

theorem reads_nullable {value : Option α} {text : List Char}
    (hread : ∀ a ∈ value, ∀ text, spells a text →
      Reads reader text a ∧ ∃ c, leading? text = some c ∧ c ≠ 'n')
    (h : SpellsNullable spells value text) : Reads (readNullable reader) text value := by
  cases h with
  | null => exact reads_null
  | value h =>
    obtain ⟨hreads, c, hc, hne⟩ := hread _ rfl _ h
    exact hreads.nullable hc hne

theorem reads_emptyList {blanks : List Char} (h : Blanks blanks) :
    Reads (readList reader) ('[' :: blanks ++ [']']) [] := by
  intro s rest _ hs
  have hopening : skipBlanks s = .char '[' :: (symbols blanks ++ .char ']' :: rest) := by
    rw [hs]
    simp [skipBlanks_cons, isBlank]
  have hclosing : skipBlanks (symbols blanks ++ .char ']' :: rest) = .char ']' :: rest := by
    rw [skipBlanks_append h, skipBlanks_cons rfl]
  refine ⟨rest, ?_, rfl⟩
  simp only [readList, hopening, readElements, nextElement, hclosing, endList, bind, Except.bind]
  rfl

theorem reads_spelledList {values : List α} {text : List Char}
    (hread : ∀ value text, spells value text → ReadsElement reader text value)
    (h : SpellsList spells values text) : Reads (readList reader) text values := by
  cases h with
  | list hitems htext =>
    have helements : List.Forall₂ (ReadsElement reader) _ values :=
      (List.Forall₂.imp (fun value _ hitem => readsElement_padded (hread value) hitem) hitems).flip
    cases htext with
    | empty hblanks =>
      cases helements
      exact reads_emptyList hblanks
    | parts => exact reads_list helements

theorem reads_spelledListOrNull {values : List α} {text : List Char}
    (hread : ∀ value text, spells value text → ReadsElement reader text value)
    (h : SpellsListOrNull spells values text) : Reads (readListOrNull reader) text values := by
  cases h with
  | null =>
    have hnull : Reads (readNullable (readList reader)) ['n', 'u', 'l', 'l'] none := reads_null
    exact hnull.map fun list => list.getD []
  | list h =>
    have hopening : leading? text = some '[' := by
      cases h with
      | list _ htext => cases htext <;> rfl
    exact ((reads_spelledList hread h).nullable hopening (by decide)).map fun list => list.getD []

end Lists

section Objects
variable {σ : Type} {schema : Schema σ} {parts : List Part} {record : List String → σ}

/-- A field takes in a part. What the record has by now depends on the names read so far. -/
structure Part.Fills (record : List String → σ) (part : Part) (field : Member σ) : Prop where
  name_eq : field.name = part.name
  required : field.required = true → ¬part.optional
  isSet_eq : ∀ names, field.isSet (record names) = decide (part.name ∈ names)
  reads : ∀ names text, part.spells text →
    Reads (field.read (record names)) text (record (part.name :: names))

/-- Every field takes in a part of its own. Names of no part change nothing. -/
structure Schema.Holds (schema : Schema σ) (parts : List Part) (record : List String → σ) :
    Prop where
  fills : List.Forall₂ (Part.Fills record) parts schema.fields
  other : ∀ name names, (∀ part ∈ parts, part.name ≠ name) → record (name :: names) = record names

theorem readsMember_spelled (h : schema.Holds parts record) {name : String} {names : List String}
    {text : List Char} (hnew : ∀ part ∈ parts, part.name = name → name ∉ names)
    (htext : SpellsMember parts name text) :
    schema.ReadsMember (record names) text (record (name :: names)) := by
  obtain @⟨spelled, value, hspelled, hvalue⟩ := htext
  have hname := readsName_spelled hspelled
  have hrel : Option.Rel (Part.Fills record) (parts.find? (·.name = name))
      (schema.fields.find? (·.name = name)) :=
    rel_find?_of_forall₂ (fun part field hfills => by rw [hfills.name_eq]) h.fills
  rw [held] at hvalue
  cases hpart : parts.find? (·.name = name) with
  | none =>
    rw [hpart] at hvalue hrel
    generalize hfield : schema.fields.find? (·.name = name) = field? at hrel
    cases hrel
    have hother : ∀ part ∈ parts, part.name ≠ name := by
      simpa using List.find?_eq_none.mp hpart
    rw [h.other name names hother]
    exact Schema.readsMember_other hname hfield (reads_padded (fun _ => reads_skipValue) hvalue)
  | some part =>
    rw [hpart] at hvalue hrel
    generalize hfield : schema.fields.find? (·.name = name) = field? at hrel
    cases hrel with
    | some hfills =>
      have hmem : part ∈ parts := List.mem_of_find?_eq_some hpart
      obtain rfl : part.name = name := by simpa using List.find?_some hpart
      refine Schema.readsMember_known hname hfield ?_ (reads_padded (hfills.reads names) hvalue)
      rw [hfills.isSet_eq, decide_eq_false_iff_not]
      exact hnew part hmem rfl

theorem readsMembers_spelled (h : schema.Holds parts record) {names seen : List String}
    {members : List (List Char)} (hmembers : List.Forall₂ (SpellsMember parts) names members)
    (honce : ∀ part ∈ parts, (names ++ seen).count part.name ≤ 1) :
    schema.ReadsMembers (record seen) members (record (names.reverse ++ seen)) := by
  -- Names of no part are counted as seen too, so that one list says what the record has.
  induction hmembers generalizing seen with
  | nil => exact .nil _
  | @cons name text names members htext _ ih =>
    have hnew : ∀ part ∈ parts, part.name = name → name ∉ seen := by
      rintro part hpart rfl hmem
      have hcount := honce part hpart
      have hpos := List.count_pos_iff.mpr hmem
      rw [List.cons_append, List.count_cons_self, List.count_append] at hcount
      omega
    have hrest : ∀ part ∈ parts, (names ++ name :: seen).count part.name ≤ 1 := by
      intro part hpart
      rw [List.perm_middle.count_eq]
      exact honce part hpart
    rw [List.reverse_cons, List.append_assoc, List.singleton_append]
    exact .cons (readsMember_spelled h hnew htext) (ih hrest)

theorem reads_emptyObject {blanks : List Char} {empty : σ} (h : Blanks blanks)
    (hmissing : schema.missing? empty = none) :
    Reads (schema.read empty) ('\x7b' :: blanks ++ ['\x7d']) empty := by
  intro s rest _ hs
  have hopening : skipBlanks s = .char '\x7b' :: (symbols blanks ++ .char '\x7d' :: rest) := by
    rw [hs]
    simp [skipBlanks_cons, isBlank]
  have hclosing : skipBlanks (symbols blanks ++ .char '\x7d' :: rest) = .char '\x7d' :: rest := by
    rw [skipBlanks_append h, skipBlanks_cons rfl]
  refine ⟨rest, ?_, rfl⟩
  simp only [Schema.read, hopening, Schema.readObject, Schema.readMembers, nextName, hclosing,
    List.tail_cons, hmissing, bind, Except.bind, pure, Except.pure]

theorem SpellsObject.leading {text : List Char} (h : SpellsObject parts text) :
    leading? text = some '\x7b' := by
  cases h with
  | object _ _ henclosed => cases henclosed <;> rfl

/-- Whatever spells an object is read, and every part that it may not leave out is there. -/
theorem reads_spelledObject (h : schema.Holds parts record) {text : List Char}
    (htext : SpellsObject parts text) :
    ∃ names, (∀ part ∈ parts, part.name ∈ names ∨ part.optional) ∧
      Reads (schema.read (record [])) text (record names) := by
  obtain @⟨names, members, text, hmembers, hparts, henclosed⟩ := htext
  have hgiven : ∀ part ∈ parts, part.name ∈ names.reverse ∨ part.optional := by
    intro part hpart
    rw [List.mem_reverse]
    rcases hparts part hpart with hcount | ⟨_, hoptional⟩
    · exact .inl (List.count_pos_iff.mp (by omega))
    · exact .inr hoptional
  have honce : ∀ part ∈ parts, (names ++ []).count part.name ≤ 1 := by
    intro part hpart
    rw [List.append_nil]
    rcases hparts part hpart with hcount | ⟨habsent, _⟩
    · exact Nat.le_of_eq hcount
    · rw [List.count_eq_zero.mpr habsent]
      exact Nat.zero_le 1
  have hmissing : schema.missing? (record names.reverse) = none := by
    refine List.find?_eq_none.mpr fun field hfield => ?_
    obtain ⟨part, hpart, hfills⟩ := exists_mem_of_forall₂ h.fills hfield
    rw [hfills.isSet_eq]
    rcases hgiven part hpart with hmem | hoptional
    · simp [hmem]
    · simp [show field.required = false by simpa [hoptional] using hfills.required]
  have hreads := readsMembers_spelled h hmembers honce
  rw [List.append_nil] at hreads
  refine ⟨names.reverse, hgiven, ?_⟩
  cases henclosed with
  | empty hblanks =>
    cases hmembers
    exact reads_emptyObject hblanks hmissing
  | parts => exact Schema.reads_object hreads hmissing

end Objects

end SyscallPolicy.Json
