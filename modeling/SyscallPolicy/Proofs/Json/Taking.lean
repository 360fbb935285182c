import SyscallPolicy.Proofs.Json.Document
import SyscallPolicy.Proofs.Json.Literals
import SyscallPolicy.Proofs.Json.Skipping

/-! What a text must say for a reader to take a value from it. -/
namespace SyscallPolicy.Json
open Policy.Printer (natural separated)
open Text (Symbol)

/-- A reader that takes a value off the front of a text stops where the text does, and `P` is true
of the value. -/
def Takes {α : Type} (reader : Reader α) (text : List Char) (rest : List Symbol)
    (P : α → Prop) : Prop :=
  ∀ s value left, skipBlanks s = skipBlanks (symbols text ++ rest) →
    reader s = .ok (value, left) → P value ∧ skipBlanks left = skipBlanks rest

/-- What a reader takes is what the text says. Nothing is known of texts that say anything else than
`Keyed` allows. -/
def Faithful {α : Type} (reader : Reader α) (Keyed : Node → Prop) (Says : Node → α → Prop) : Prop :=
  ∀ node text rest, Keyed node → Writes node text → Apart rest →
    Takes reader text rest (Says node)

section Relations

def Node.IsText (node : Node) (text : String) : Prop := node = .string (some text)

/-- A number in its plain digits, below a power of two. -/
def Node.IsNatural (width : Nat) (node : Node) (n : Nat) : Prop :=
  n < Nat.pow 2 width ∧ node = .number (natural n)

variable {α : Type}

/-- A value, or `null` where it is absent. -/
inductive Node.IsNullable (Says : Node → α → Prop) : Node → Option α → Prop where
  | null : IsNullable Says .null none
  | value {node : Node} {value : α} : Says node value → IsNullable Says node (some value)

/-- Items that say the values of a list, in order. -/
inductive Node.IsList (Says : Node → α → Prop) : Node → List α → Prop where
  | list {items : List Node} {values : List α} : List.Forall₂ Says items values →
      IsList Says (.list items) values

/-- A list, or `null` for the empty one. -/
inductive Node.IsListOrNull (Says : Node → α → Prop) : Node → List α → Prop where
  | null : IsListOrNull Says .null []
  | list {node : Node} {values : List α} : IsList Says node values →
      IsListOrNull Says node values

end Relations

namespace Node
variable {node : Node}

theorem eq_null_of_beginsWith (h : node.BeginsWith 'n') : node = .null := by
  cases node with
  | null => rfl
  | _ => simp [BeginsWith] at h

theorem eq_number_of_beginsWith {c : Char} (h : node.BeginsWith c)
    (hc : c = '-' ∨ c.isDigit = true) : ∃ literal, node = .number literal := by
  cases node with
  | number literal => exact ⟨literal, rfl⟩
  | boolean => rcases h with rfl | rfl <;> simp at hc
  | _ =>
    rw [BeginsWith] at h
    simp [h] at hc

theorem eq_string_of_beginsWith (h : node.BeginsWith '\x22') : ∃ text, node = .string text := by
  cases node with
  | string text => exact ⟨text, rfl⟩
  | _ => simp [BeginsWith] at h

theorem eq_list_of_beginsWith (h : node.BeginsWith '[') : ∃ items, node = .list items := by
  cases node with
  | list items => exact ⟨items, rfl⟩
  | _ => simp [BeginsWith] at h

theorem eq_object_of_beginsWith (h : node.BeginsWith '\x7b') :
    ∃ members, node = .object members := by
  cases node with
  | object members => exact ⟨members, rfl⟩
  | _ => simp [BeginsWith] at h

theorem ne_closing_of_beginsWith {c : Char} (h : node.BeginsWith c) : c ≠ ']' := by
  rintro rfl
  cases node <;> simp [BeginsWith] at h

end Node

section Takes
variable {α β : Type} {reader : Reader α} {rest : List Symbol} {P : α → Prop}

/-- What is made of the value has no part in where the reader stops. -/
theorem Takes.map {Q : β → Prop} {text : List Char} {f : α × List Symbol → β × List Symbol}
    (h : Takes reader text rest P) (hleft : ∀ found, (f found).2 = found.2)
    (himp : ∀ value s, P value → Q (f (value, s)).1) :
    Takes (fun s => (reader s).map f) text rest Q := by
  intro s value left hs hread
  cases hinner : reader s with
  | error e =>
    simp only [hinner] at hread
    cases hread
  | ok found =>
    simp only [hinner, Except.map, Except.ok.injEq] at hread
    obtain ⟨hvalue, hbehind⟩ := h s found.1 found.2 hs hinner
    rw [← hleft found, hread] at hbehind
    have hfound := himp found.1 found.2 hvalue
    rw [hread] at hfound
    exact ⟨hfound, hbehind⟩

theorem Takes.padded {written : Written} (hspaced : written.Spaced)
    (h : Takes reader written.core (symbols written.after ++ rest) P) :
    Takes reader written.text rest P := by
  intro s value left hs hread
  have hsymbols : symbols written.text ++ rest =
      symbols written.before ++ (symbols written.core ++ (symbols written.after ++ rest)) := by
    simp [Written.text]
  rw [hsymbols, skipBlanks_append hspaced.1] at hs
  obtain ⟨hvalue, hleft⟩ := h s value left hs hread
  exact ⟨hvalue, hleft.trans (skipBlanks_append hspaced.2 rest)⟩

theorem Faithful.written {Keyed : Node → Prop} {Says : Node → α → Prop}
    (h : Faithful reader Keyed Says) {written : Written} (hkeyed : Keyed written.node)
    (hwrites : Writes written.node written.core) (hspaced : written.Spaced) (hrest : Apart rest) :
    Takes reader written.text rest (Says written.node) :=
  .padded hspaced (h _ _ _ hkeyed hwrites (apart_append hspaced.2 hrest))

theorem Written.leads (written : Written) (hwrites : Writes written.node written.core)
    (hspaced : written.Spaced) : ∃ c, leading? written.text = some c ∧ c ≠ ']' := by
  obtain ⟨c, tail, hcore, hblank, hbegins⟩ := exists_cons_of_writes hwrites
  have hleading : leading? written.core = some c := by
    rw [hcore]
    exact leading?_cons hblank tail
  exact ⟨c, leading?_padded hspaced.1 hleading _, Node.ne_closing_of_beginsWith hbegins⟩

/-- A text that writes a value begins with a symbol that tells its kind. -/
theorem exists_skipBlanks_of_writes {node : Node} {text : List Char} (h : Writes node text)
    {s : List Symbol} (hs : skipBlanks s = skipBlanks (symbols text ++ rest)) :
    ∃ c tail, text = c :: tail ∧ node.BeginsWith c ∧
      skipBlanks s = .char c :: (symbols tail ++ rest) := by
  obtain ⟨c, tail, rfl, hblank, hbegins⟩ := exists_cons_of_writes h
  exact ⟨c, tail, rfl, hbegins, hs.trans (skipBlanks_cons hblank _)⟩

end Takes

section Leaves
variable {α : Type} {reader : Reader α}

theorem WritesString.eq_some_of_read {text : Option String} {tail : List Char}
    (h : WritesString text ('\x22' :: tail)) {value : String} {s left : List Symbol}
    (hread : StringLiteral.read (symbols tail ++ s) = .ok (value, left)) :
    text = some value ∧ left = s := by
  cases h with
  | text hspelled =>
    obtain ⟨tail', hcons, hvalue⟩ := exists_read_spelled hspelled
    cases hcons
    rw [hvalue] at hread
    cases hread
    exact ⟨rfl, rfl⟩
  | broken hstring hnone => exact absurd (spells_of_read hstring hread).1 (hnone value)

theorem faithful_readString : Faithful readString (fun _ => True) Node.IsText := by
  intro node text rest _ hwrites _ s value left hs hread
  obtain ⟨c, tail, rfl, hbegins, hchar⟩ := exists_skipBlanks_of_writes hwrites hs
  unfold readString at hread
  split at hread
  · cases hread
  · next heq =>
    rw [hchar] at heq
    cases heq
    obtain ⟨text, rfl⟩ := Node.eq_string_of_beginsWith hbegins
    cases hwrites with
    | string hstring =>
      obtain ⟨rfl, rfl⟩ := hstring.eq_some_of_read hread
      exact ⟨rfl, rfl⟩
  · cases hread

/-- Digits that are read as an unsigned integer are those of the integer, with nothing else. -/
theorem of_read_unsigned {negative : Bool} {whole fraction power : List Char} {width n : Nat}
    (hwhole : IsDigits whole) (hfraction : IsFraction fraction) (hpower : IsPower power)
    {rest left : List Symbol} (hrest : Apart rest)
    (hread : (do
      let (numeral, s) ← Numeral.read .endInValue negative
        (symbols (whole ++ fraction ++ power) ++ rest)
      return (← checkUnsigned width (← Quantity.ofNumeral numeral), s)) = .ok (n, left)) :
    negative = false ∧ n < Nat.pow 2 width ∧ whole ++ fraction ++ power = natural n ∧
      left = rest := by
  simp only [bind_eq_ok, pure_eq_ok, Prod.exists, Prod.mk.injEq] at hread
  obtain ⟨numeral, behind, hnumeral, quantity, hquantity, value, hvalue, rfl, rfl⟩ := hread
  obtain ⟨hwhole', rfl, hnegative, hdigits, hnoFraction, hnoPower⟩ :=
    of_read_number hwhole hfraction hpower hrest hnumeral
  cases quantity with
  | natural u =>
    obtain ⟨hpositive, hfractionNone, hpowerNone, hu⟩ := of_ofNumeral_natural hquantity
    rw [checkUnsigned] at hvalue
    split at hvalue
    · next hlt =>
      cases hvalue
      refine ⟨hnegative.symm.trans hpositive, hlt, ?_, rfl⟩
      rw [hnoFraction hfractionNone, hnoPower hpowerNone, List.append_nil, List.append_nil, hu,
        hdigits, natural_ofDigitChars hwhole']
    · cases hvalue
  | negative => cases hvalue
  | floating => cases hvalue

theorem faithful_readUnsigned (width : Nat) :
    Faithful (readUnsigned width) (fun _ => True) (Node.IsNatural width) := by
  intro node text rest _ hwrites hrest s value left hs hread
  obtain ⟨c, tail, htext, hbegins, hchar⟩ := exists_skipBlanks_of_writes hwrites hs
  have hnumber : c = '-' ∨ c.isDigit = true := by
    unfold readUnsigned at hread
    rw [hchar] at hread
    split at hread
    · cases hread
    · next heq =>
      cases heq
      exact .inl rfl
    · next heq =>
      cases heq
      split at hread
      · next hdigit => exact .inr hdigit
      · cases hread
    · cases hread
  obtain ⟨literal, rfl⟩ := Node.eq_number_of_beginsWith hbegins hnumber
  cases hwrites with
  | @number sign whole fraction power hsign hwhole hfraction hpower =>
    simp only [List.mem_cons, List.not_mem_nil, or_false] at hsign
    rcases hsign with rfl | rfl | rfl
    · obtain ⟨d, ds, rfl⟩ := List.exists_cons_of_ne_nil hwhole.1
      have hdigit : d.isDigit = true := hwhole.2 d List.mem_cons_self
      rw [List.nil_append] at htext ⊢
      cases htext
      rw [readUnsigned_of_isDigit width hdigit hchar] at hread
      obtain ⟨_, hlt, hnatural, rfl⟩ := of_read_unsigned hwhole hfraction hpower hrest hread
      exact ⟨⟨hlt, congrArg Node.number hnatural⟩, rfl⟩
    · cases htext
      unfold readUnsigned at hread
      simp only [hchar] at hread
      obtain ⟨hfalse, _⟩ := of_read_unsigned hwhole hfraction hpower hrest hread
      cases hfalse
    · cases htext
      simp at hnumber

theorem Faithful.nullable {Keyed : Node → Prop} {Says : Node → α → Prop}
    (h : Faithful reader Keyed Says) :
    Faithful (readNullable reader) Keyed (Node.IsNullable Says) := by
  intro node text rest hkeyed hwrites hrest s value left hs hread
  obtain ⟨c, tail, htext, hbegins, hchar⟩ := exists_skipBlanks_of_writes hwrites hs
  have hvalue : Takes (fun s => (reader s).map fun found => (some found.1, found.2)) text rest
      (Node.IsNullable Says node) :=
    (h node text rest hkeyed hwrites hrest).map (fun _ => rfl) fun _ _ => .value
  unfold readNullable at hread
  split at hread
  · next heq =>
    rw [hchar] at heq
    cases heq
    obtain rfl := Node.eq_null_of_beginsWith hbegins
    cases hwrites
    cases htext
    cases hread
    exact ⟨.null, rfl⟩
  · exact hvalue s value left hs hread

end Leaves

section Enclosed
variable {opening closing : Char} {tail : List Char}

theorem skipBlanks_of_encloses (hclosing : isBlank (.char closing) = false)
    (h : Encloses opening closing [] (opening :: tail)) (rest : List Symbol) :
    skipBlanks (symbols tail ++ rest) = .char closing :: rest := by
  cases h with
  | @empty blanks hblanks =>
    have hsymbols : symbols (blanks.append [closing]) ++ rest =
        symbols blanks ++ .char closing :: rest := by
      simp
    rw [hsymbols, skipBlanks_append hblanks, skipBlanks_cons hclosing]

theorem symbols_of_encloses {part : List Char} {parts : List (List Char)}
    (h : Encloses opening closing (part :: parts) (opening :: tail)) (rest : List Symbol) :
    symbols tail ++ rest =
      symbols part ++ (symbols (parts.flatMap (',' :: ·)) ++ .char closing :: rest) := by
  cases h with
  | parts => simp [separated_cons]

end Enclosed

section Lists
variable {α : Type} {reader : Reader α} {Says : Node → α → Prop}

/-- An item from whose text a reader takes what the item says. -/
structure TakesElement (reader : Reader α) (Says : Node → α → Prop) (item : Written) : Prop where
  takes : ∀ rest, Apart rest → Takes reader item.text rest (Says item.node)
  leads : ∃ c, leading? item.text = some c ∧ c ≠ ']'

theorem Faithful.element {Keyed : Node → Prop} (h : Faithful reader Keyed Says) {item : Written}
    (hkeyed : Keyed item.node) (hwrites : Writes item.node item.core) (hspaced : item.Spaced) :
    TakesElement reader Says item where
  takes _ hrest := h.written hkeyed hwrites hspaced hrest
  leads := item.leads hwrites hspaced

theorem of_readElements_none {first : Bool} {limit : Nat} {done : List α} {s : List Symbol}
    {found : List α × List Symbol} (hnext : nextElement first s = .ok none)
    (hread : readElements reader limit first done s = .ok found) :
    ∃ left, endList s = .ok ((), left) ∧ found = (done.reverse, left) := by
  cases limit with
  | zero => cases hread
  | succ limit =>
    rw [readElements, hnext] at hread
    obtain ⟨_, hsame, hread⟩ := bind_eq_ok.mp hread
    cases hsame
    obtain ⟨⟨_, left⟩, hend, hfound⟩ := bind_eq_ok.mp hread
    exact ⟨left, hend, (pure_eq_ok.mp hfound).symm⟩

theorem of_readElements_some {first : Bool} {limit : Nat} {done : List α} {s item : List Symbol}
    {found : List α × List Symbol} (hnext : nextElement first s = .ok (some item))
    (hread : readElements reader limit first done s = .ok found) :
    ∃ limit value left, reader item = .ok (value, left) ∧
      readElements reader limit false (value :: done) left = .ok found := by
  cases limit with
  | zero => cases hread
  | succ limit =>
    rw [readElements, hnext] at hread
    obtain ⟨_, hsame, hread⟩ := bind_eq_ok.mp hread
    cases hsame
    obtain ⟨⟨value, left⟩, hvalue, hrest⟩ := bind_eq_ok.mp hread
    exact ⟨limit, value, left, hvalue, hrest⟩

/-- Items after the first one are taken in order, each with a comma in front. -/
theorem of_readElements_flatMap {items : List Written}
    (h : ∀ item ∈ items, TakesElement reader Says item) {limit : Nat} {done values : List α}
    {s rest left : List Symbol}
    (hs : skipBlanks s =
      skipBlanks (symbols ((items.map (·.text)).flatMap (',' :: ·)) ++ .char ']' :: rest))
    (hread : readElements reader limit false done s = .ok (values, left)) :
    ∃ found, values = done.reverse ++ found ∧
      List.Forall₂ Says (items.map (·.node)) found ∧ left = rest := by
  induction items generalizing limit done s with
  | nil =>
    have hclosing : skipBlanks s = .char ']' :: rest := hs
    have hnext : nextElement false s = .ok none := by simp only [nextElement, hclosing]
    obtain ⟨left', hend, heq⟩ := of_readElements_none hnext hread
    rw [endList, hclosing] at hend
    cases hend
    cases heq
    exact ⟨[], (List.append_nil _).symm, .nil, rfl⟩
  | cons item items ih =>
    have hitem := h item List.mem_cons_self
    have hcomma : skipBlanks s = .char ',' :: (symbols item.text ++
        (symbols ((items.map (·.text)).flatMap (',' :: ·)) ++ .char ']' :: rest)) := by
      rw [hs]
      simp [skipBlanks_cons, isBlank]
    obtain ⟨limit, value, behind, hvalue, hrest⟩ :=
      of_readElements_some (nextElement_comma hitem.leads hcomma) hread
    obtain ⟨hsaid, hbehind⟩ := hitem.takes _ (apart_flatMap ']' (by decide) _ rest) _ _ _
      (skipBlanks_skipBlanks _) hvalue
    obtain ⟨found, rfl, hfound, hleft⟩ :=
      ih (fun other hother => h other (List.mem_cons_of_mem item hother)) hbehind hrest
    exact ⟨value :: found, by simp, .cons hsaid hfound, hleft⟩

/-- A list that is read is written as one, and its items are taken in order. -/
theorem Faithful.list {Keyed : Node → Prop} (h : Faithful reader Keyed Says) :
    Faithful (readList reader) (fun node => ∀ item ∈ node.items, Keyed item)
      (Node.IsList Says) := by
  intro node text rest hkeyed hwrites _ s values left hs hread
  obtain ⟨c, tail, htext, hbegins, hchar⟩ := exists_skipBlanks_of_writes hwrites hs
  unfold readList at hread
  split at hread
  · cases hread
  · next heq =>
    rw [hchar] at heq
    cases heq
    obtain ⟨nodes, rfl⟩ := Node.eq_list_of_beginsWith hbegins
    cases hwrites with
    | @list items _ hitems hspaced henclosed =>
      have helements : ∀ item ∈ items, TakesElement reader Says item := fun item hitem =>
        h.element (hkeyed item.node (List.mem_map_of_mem hitem)) (hitems item hitem)
          (hspaced item hitem)
      subst htext
      cases items with
      | nil =>
        have hclosing := skipBlanks_of_encloses rfl henclosed rest
        have hnext : nextElement true (symbols tail ++ rest) = .ok none := by
          simp only [nextElement, hclosing]
        obtain ⟨left', hend, heq⟩ := of_readElements_none hnext hread
        rw [endList, hclosing] at hend
        cases hend
        cases heq
        exact ⟨.list .nil, rfl⟩
      | cons item items =>
        have hitem := helements item List.mem_cons_self
        rw [symbols_of_encloses henclosed rest] at hread
        obtain ⟨limit, value, behind, hvalue, hrest⟩ :=
          of_readElements_some (nextElement_first hitem.leads rfl) hread
        obtain ⟨hsaid, hbehind⟩ := hitem.takes _ (apart_flatMap ']' (by decide) _ rest) _ _ _
          (skipBlanks_skipBlanks _) hvalue
        obtain ⟨found, rfl, hfound, rfl⟩ := of_readElements_flatMap
          (fun other hother => helements other (List.mem_cons_of_mem item hother)) hbehind hrest
        exact ⟨.list (.cons hsaid hfound), rfl⟩
  · cases hread

theorem Faithful.listOrNull {Keyed : Node → Prop} (h : Faithful reader Keyed Says) :
    Faithful (readListOrNull reader) (fun node => ∀ item ∈ node.items, Keyed item)
      (Node.IsListOrNull Says) := by
  intro node text rest hkeyed hwrites hrest
  have hlist := h.list.nullable node text rest hkeyed hwrites hrest
  refine hlist.map (fun _ => rfl) fun list _ hlist => ?_
  cases hlist with
  | null => exact .null
  | value hvalue => exact .list hvalue

end Lists

section Others

/-- A value that is refused at its first symbol. -/
theorem passes_refused {c : Char} {tail : List Char} (hblank : isBlank (.char c) = false)
    (hbegin : ∀ s, Apart s → ∃ e, Ignored.begin (.char c) (symbols tail ++ s) = .error e) :
    Passes True (c :: tail) := by
  intro inside s hs
  obtain ⟨e, he⟩ := hbegin s hs
  refine ⟨s, rfl, .inr ⟨trivial, e, ?_⟩⟩
  rw [symbols, List.map_cons, List.cons_append, Ignored.rest.eq_4 _ _ _ _ (waits_value inside),
    hblank, if_neg Bool.false_ne_true]
  simp only [Ignored.step, he]
  rfl

theorem passes_digits {sign whole fraction power : List Char} (hsign : sign ∈ [[], ['-'], ['+']])
    (hwhole : IsDigits whole) (hfraction : IsFraction fraction) (hpower : IsPower power) :
    Passes True (sign ++ whole ++ fraction ++ power) := by
  have hrefused (negative : Bool) (hzero : ¬IsWhole whole) {s : List Symbol} (hs : Apart s) :
      ∃ e, Numeral.read .invalidNumber negative
        (symbols (whole ++ fraction ++ power) ++ s) = .error e := by
    cases hread : Numeral.read .invalidNumber negative
        (symbols (whole ++ fraction ++ power) ++ s) with
    | error e => exact ⟨e, rfl⟩
    | ok found => exact absurd (of_read_number hwhole hfraction hpower hs hread).1 hzero
  simp only [List.mem_cons, List.not_mem_nil, or_false] at hsign
  by_cases hzero : IsWhole whole
  · rcases hsign with rfl | rfl | rfl
    · exact passes_number List.mem_cons_self hzero hfraction hpower
    · exact passes_number (by simp) hzero hfraction hpower
    · exact passes_refused rfl fun _ _ => ⟨_, rfl⟩
  · rcases hsign with rfl | rfl | rfl
    · obtain ⟨d, ds, rfl⟩ := List.exists_cons_of_ne_nil hwhole.1
      have hdigit : d.isDigit = true := hwhole.2 d List.mem_cons_self
      refine passes_refused (isBlank_of_isDigit hdigit) fun s hs => ?_
      obtain ⟨e, he⟩ := hrefused false hzero hs
      refine ⟨e, ?_⟩
      rw [begin_of_isDigit hdigit]
      exact congrArg (Except.map _) he
    · refine passes_refused rfl fun s hs => ?_
      obtain ⟨e, he⟩ := hrefused true hzero hs
      exact ⟨e, congrArg (Except.map _) he⟩
    · exact passes_refused rfl fun _ _ => ⟨_, rfl⟩

/-- Whatever writes a value is passed over, unless it is refused. -/
theorem passes_written {node : Node} {text : List Char} (h : Writes node text) :
    Passes True text := by
  induction h with
  | null => exact passes_value .null
  | true => exact passes_value .true
  | false => exact passes_value .false
  | number hsign hwhole hfraction hpower => exact passes_digits hsign hwhole hfraction hpower
  | string h => exact passes_string h.isString
  | @list items _ hitems hspaced htext ih =>
    refine passes_container (c := .list) (fun part hpart => ?_) htext
    obtain ⟨item, hitem, rfl⟩ := List.mem_map.mp hpart
    have hblanks := hspaced item hitem
    exact ⟨fun inside => passes_padded hblanks.1 (ih item hitem) hblanks.2 (.list :: inside),
      item.leads (hitems item hitem) hblanks⟩
  | @object members _ hnames _ hspaced htext ih =>
    refine passes_container (c := .object) (fun part hpart => ?_) htext
    obtain ⟨member, hmember, rfl⟩ := List.mem_map.mp hpart
    have hblanks := hspaced member hmember
    have hname := (hnames member hmember).imp fun _ => WritesString.isString
    exact passesIn_member hname (passes_padded hblanks.1 (ih member hmember) hblanks.2)

theorem faithful_skipValue : Faithful skipValue (fun _ => True) fun _ _ => True := by
  intro node text rest _ hwrites hrest s _ left hs hread
  obtain ⟨behind, hbehind, hfollows⟩ := passes_written hwrites [] rest hrest
  rw [skipValue, rest_congr (waits_value []) hs] at hread
  rcases hfollows with heq | ⟨_, e, heq⟩
  · rw [heq] at hread
    cases behind <;> cases hread <;> exact ⟨trivial, hbehind⟩
  · rw [heq] at hread
    cases hread

end Others

end SyscallPolicy.Json
