import SyscallPolicy.Proofs.Json.Grammar

/-! A reader that passes over a value passes over the whole of it, however deep it nests. -/
namespace SyscallPolicy.Json
open Policy.Printer (separated)
open Text (Symbol)
open Ignored (Container Expected)

section Machine
variable {expected next : Expected} {inside containers : List Container}

/-- Something is still to come: not all that was begun has ended. -/
def Waits (expected : Expected) (inside : List Container) : Prop :=
  expected = .commaOrEnd → inside ≠ []

theorem waits_value (inside : List Container) : Waits .value inside := nofun

theorem waits_inside (expected : Expected) (c : Container) (inside : List Container) :
    Waits expected (c :: inside) := fun _ => List.cons_ne_nil c inside

theorem rest_skipBlanks (h : Waits expected inside) (s : List Symbol) :
    Ignored.rest 0 expected inside (skipBlanks s) = Ignored.rest 0 expected inside s := by
  induction s with
  | nil => rfl
  | cons a s ih =>
    cases hblank : isBlank a with
    | false => rw [skipBlanks_cons hblank]
    | true =>
      rw [skipBlanks, List.dropWhile_cons_of_pos hblank, Ignored.rest.eq_4 _ _ _ _ h, if_pos hblank]
      exact ih

theorem rest_congr (h : Waits expected inside) {s s' : List Symbol}
    (hs : skipBlanks s = skipBlanks s') :
    Ignored.rest 0 expected inside s = Ignored.rest 0 expected inside s' := by
  rw [← rest_skipBlanks h s, hs, rest_skipBlanks h]

theorem rest_step (h : Waits expected inside) {a : Symbol} {s : List Symbol}
    {taken : Nat} (hblank : isBlank a = false)
    (hstep : Ignored.step expected inside a s = .ok (next, containers, taken)) :
    Ignored.rest 0 expected inside (a :: s) = Ignored.rest taken next containers s := by
  rw [Ignored.rest.eq_4 _ _ _ _ h, hblank, if_neg Bool.false_ne_true, hstep]

theorem rest_taken (settled s : List Symbol) :
    Ignored.rest settled.length expected inside (settled ++ s) =
      Ignored.rest 0 expected inside s := by
  induction settled with
  | nil => rfl
  | cons a settled ih =>
    rw [List.length_cons, List.cons_append, Ignored.rest.eq_3]
    exact ih

end Machine

/-- One run comes to the same as another, or else it fails, where it may. -/
def Follows (mayFail : Prop) (run other : Except Fault (List Symbol)) : Prop :=
  run = other ∨ mayFail ∧ ∃ e, run = .error e

theorem Follows.trans {mayFail : Prop} {first second third : Except Fault (List Symbol)}
    (h : Follows mayFail first second) (h' : Follows mayFail second third) :
    Follows mayFail first third := by
  rcases h with rfl | hfails
  · exact h'
  · exact .inr hfails

/-- A value is passed over, inside whatever it stands. One that is not JSON may be refused. -/
def Passes (mayFail : Prop) (text : List Char) : Prop :=
  ∀ inside s, Apart s → ∃ left, skipBlanks left = skipBlanks s ∧
    Follows mayFail (Ignored.rest 0 .value inside (symbols text ++ s))
      (Ignored.rest 0 .commaOrEnd inside left)

variable {mayFail : Prop}

section Scalars

/-- A value that is settled with its first symbol. -/
theorem passes_scalar {c : Char} {tail : List Char} (hblank : isBlank (.char c) = false)
    (hbegin : ∀ s, Apart s →
      Ignored.begin (.char c) (symbols tail ++ s) = .ok (none, tail.length)) :
    Passes mayFail (c :: tail) := by
  intro inside s hs
  have hstep : Ignored.step .value inside (.char c) (symbols tail ++ s) =
      .ok (.commaOrEnd, inside, tail.length) := by
    simp only [Ignored.step, hbegin s hs]
    rfl
  have htaken : Ignored.rest tail.length .commaOrEnd inside (symbols tail ++ s) =
      Ignored.rest 0 .commaOrEnd inside s := by
    rw [← rest_taken (symbols tail) s, symbols, List.length_map]
  refine ⟨s, rfl, .inl ?_⟩
  rw [symbols, List.map_cons, List.cons_append, rest_step (waits_value inside) hblank hstep, htaken]

theorem passes_string {text : List Char} (h : IsString text) : Passes mayFail text := by
  obtain ⟨tail, rfl, hmeasure⟩ := exists_measure h
  refine passes_scalar rfl fun s _ => ?_
  simp only [Ignored.begin, hmeasure s]
  rfl

theorem begin_of_isDigit {d : Char} (h : d.isDigit = true) (s : List Symbol) :
    Ignored.begin (.char d) s =
      (Numeral.read .invalidNumber false (.char d :: s)).map fun (n, _) => (none, n.width - 1) := by
  unfold Ignored.begin
  split
  iterate 7
    next heq =>
      cases heq
      cases h
  · next heq =>
    cases heq
    rw [if_pos h]
  · next heq => cases heq

theorem passes_number {sign whole fraction power : List Char} (hsign : sign ∈ [[], ['-']])
    (hwhole : IsWhole whole) (hfraction : IsFraction fraction) (hpower : IsPower power) :
    Passes mayFail (sign ++ whole ++ fraction ++ power) := by
  simp only [List.mem_cons, List.not_mem_nil, or_false] at hsign
  rcases hsign with rfl | rfl
  · obtain ⟨d, tail, hcons, hdigit⟩ := hwhole.exists_cons
    have htext : [] ++ whole ++ fraction ++ power = d :: (tail ++ fraction ++ power) := by
      rw [hcons]
      rfl
    rw [htext]
    refine passes_scalar (isBlank_of_isDigit hdigit) fun s hs => ?_
    obtain ⟨n, hread, hwidth⟩ := exists_read .invalidNumber false hwhole hfraction hpower hs
    rw [← List.nil_append whole, htext, symbols, List.map_cons, List.cons_append] at hread
    rw [← List.nil_append whole, htext, List.length_cons] at hwidth
    simp only [begin_of_isDigit hdigit, hread, Except.map, hwidth, Nat.add_sub_cancel]
  · have htext : ['-'] ++ whole ++ fraction ++ power = '-' :: (whole ++ fraction ++ power) := rfl
    rw [htext]
    refine passes_scalar rfl fun s hs => ?_
    obtain ⟨n, hread, hwidth⟩ := exists_read .invalidNumber true hwhole hfraction hpower hs
    simp only [Ignored.begin, hread, Except.map, hwidth]

end Scalars

section Containers

/-- The symbol that a container begins with. -/
def opening : Container → Char
  | .list => '['
  | .object => '\x7b'

/-- A text that may stand between the commas of a container. -/
structure PassesIn (mayFail : Prop) (c : Container) (part : List Char) : Prop where
  passes : ∀ inside s, Apart s → ∃ left, skipBlanks left = skipBlanks s ∧
    Follows mayFail (Ignored.rest 0 c.afterComma (c :: inside) (symbols part ++ s))
      (Ignored.rest 0 .commaOrEnd (c :: inside) left)
  leads : ∃ first, leading? part = some first ∧ first ≠ c.closing

theorem isBlank_closing (c : Container) : isBlank (.char c.closing) = false := by
  cases c <;> rfl

theorem continuesNumeral_closing (c : Container) : continuesNumeral (.char c.closing) = false := by
  cases c <;> rfl

theorem rest_opening (c : Container) (inside : List Container) (s : List Symbol) :
    Ignored.rest 0 .value inside (.char (opening c) :: s) =
      Ignored.rest 0 .firstOrEnd (c :: inside) s := by
  cases c <;> exact rest_step (waits_value inside) rfl rfl

theorem rest_closing {expected : Expected} (h : expected = .firstOrEnd ∨ expected = .commaOrEnd)
    (c : Container) (inside : List Container) (s : List Symbol) :
    Ignored.rest 0 expected (c :: inside) (.char c.closing :: s) =
      Ignored.rest 0 .commaOrEnd inside s := by
  refine rest_step (waits_inside expected c inside) (isBlank_closing c) ?_
  rcases h with rfl | rfl <;> cases c <;> rfl

theorem rest_comma (c : Container) (inside : List Container) (s : List Symbol) :
    Ignored.rest 0 .commaOrEnd (c :: inside) (.char ',' :: s) =
      Ignored.rest 0 c.afterComma (c :: inside) s :=
  rest_step (waits_inside _ c inside) rfl rfl

/-- What begins no end of a container begins a part of it. -/
theorem rest_first {c : Container} {first : Char} (hfirst : first ≠ c.closing)
    (inside : List Container) {s tail : List Symbol} (hs : skipBlanks s = .char first :: tail) :
    Ignored.rest 0 .firstOrEnd (c :: inside) s = Ignored.rest 0 c.afterComma (c :: inside) s := by
  have hblank : isBlank (.char first) = false := by
    have hhead := List.head?_dropWhile_not isBlank s
    rw [skipBlanks] at hs
    simpa [hs] using hhead
  have hstep : Ignored.step .firstOrEnd (c :: inside) (.char first) tail =
      Ignored.step c.afterComma (c :: inside) (.char first) tail := by
    have hne : Symbol.char first ≠ .char c.closing := fun heq => hfirst (Symbol.char.inj heq)
    cases c with
    | list => simp only [Ignored.step, if_neg hne]; rfl
    | object => simp only [Ignored.step, if_neg hne]; rfl
  rw [← rest_skipBlanks (waits_inside _ c inside) s,
    ← rest_skipBlanks (waits_inside c.afterComma c inside) s, hs,
    Ignored.rest.eq_4 _ _ _ _ (waits_inside _ c inside),
    Ignored.rest.eq_4 _ _ _ _ (waits_inside c.afterComma c inside), hstep]
  simp only [hblank, Bool.false_eq_true, if_false]

theorem rest_parts {c : Container} {parts : List (List Char)}
    (h : ∀ part ∈ parts, PassesIn mayFail c part) (inside : List Container) (s : List Symbol) :
    Follows mayFail (Ignored.rest 0 .commaOrEnd (c :: inside)
        (symbols (parts.flatMap (',' :: ·)) ++ .char c.closing :: s))
      (Ignored.rest 0 .commaOrEnd inside s) := by
  induction parts with
  | nil => exact .inl (rest_closing (.inr rfl) c inside s)
  | cons part parts ih =>
    have happart := apart_flatMap c.closing (continuesNumeral_closing c) parts s
    obtain ⟨left, hleft, hpasses⟩ := (h part List.mem_cons_self).passes inside _ happart
    have hrest := ih fun other hother => h other (List.mem_cons_of_mem part hother)
    have hsymbols : symbols ((part :: parts).flatMap (',' :: ·)) ++ .char c.closing :: s =
        .char ',' ::
          (symbols part ++ (symbols (parts.flatMap (',' :: ·)) ++ .char c.closing :: s)) := by
      simp
    rw [rest_congr (waits_inside _ c inside) hleft] at hpasses
    rw [hsymbols, rest_comma]
    exact hpasses.trans hrest

/-- A container is passed over if its parts are. -/
theorem passes_container {c : Container} {parts : List (List Char)} {text : List Char}
    (h : ∀ part ∈ parts, PassesIn mayFail c part)
    (htext : Encloses (opening c) c.closing parts text) : Passes mayFail text := by
  intro inside s hs
  refine ⟨s, rfl, ?_⟩
  cases htext with
  | @empty blanks hblanks =>
    have hsymbols : symbols (opening c :: blanks ++ [c.closing]) ++ s =
        .char (opening c) :: (symbols blanks ++ .char c.closing :: s) := by
      simp
    rw [hsymbols, rest_opening, rest_congr (waits_inside _ c inside) (skipBlanks_append hblanks _),
      rest_closing (.inl rfl)]
    exact .inl rfl
  | parts part parts =>
    obtain ⟨first, hfirst, hne⟩ := (h part List.mem_cons_self).leads
    have happart := apart_flatMap c.closing (continuesNumeral_closing c) parts s
    obtain ⟨left, hleft, hpasses⟩ := (h part List.mem_cons_self).passes inside _ happart
    have hrest := rest_parts (fun other hother => h other (List.mem_cons_of_mem part hother))
      inside s
    have hsymbols : symbols (opening c :: separated (part :: parts) ++ [c.closing]) ++ s =
        .char (opening c) ::
          (symbols part ++ (symbols (parts.flatMap (',' :: ·)) ++ .char c.closing :: s)) := by
      simp [separated_cons]
    obtain ⟨tail, _, htail⟩ := exists_skipBlanks hfirst
    rw [rest_congr (waits_inside _ c inside) hleft] at hpasses
    rw [hsymbols, rest_opening, rest_first hne inside (htail _)]
    exact hpasses.trans hrest

end Containers

section Values

/-- A member is passed over from its name on, its value like any other. -/
theorem passesIn_member {name value : List Char} (hname : Padded IsString name)
    (hvalue : Passes mayFail value) : PassesIn mayFail .object (name ++ ':' :: value) := by
  obtain @⟨before, quoted, after, hbefore, hquoted, hafter⟩ := hname
  obtain ⟨tail, rfl, hmeasure⟩ := exists_measure hquoted
  refine ⟨fun inside s hs => ?_, '\x22', ?_, by decide⟩
  · obtain ⟨left, hleft, hpasses⟩ := hvalue (.object :: inside) s hs
    have hsymbols : symbols (before ++ '\x22' :: tail ++ after ++ ':' :: value) ++ s =
        symbols before ++ .char '\x22' ::
          (symbols tail ++ (symbols after ++ .char ':' :: (symbols value ++ s))) := by
      simp
    have hstep : Ignored.step .name (.object :: inside) (.char '\x22')
        (symbols tail ++ (symbols after ++ .char ':' :: (symbols value ++ s))) =
          .ok (.colon, .object :: inside, (symbols tail).length) := by
      simp only [Ignored.step, hmeasure, List.length_map]
      rfl
    refine ⟨left, hleft, ?_⟩
    rw [hsymbols, Ignored.Container.afterComma,
      rest_congr (waits_inside _ _ inside) (skipBlanks_append hbefore _),
      rest_step (waits_inside _ _ inside) rfl hstep, rest_taken,
      rest_congr (waits_inside _ _ inside) (skipBlanks_append hafter _),
      rest_step (waits_inside _ _ inside) rfl rfl]
    exact hpasses
  · rw [List.append_assoc]
    exact leading?_padded hbefore rfl _

theorem IsValue.leads {text : List Char} (h : IsValue text) :
    ∃ c, leading? text = some c ∧ c ≠ ']' := by
  induction h with
  | null => exact ⟨'n', rfl, by decide⟩
  | true => exact ⟨'t', rfl, by decide⟩
  | false => exact ⟨'f', rfl, by decide⟩
  | number hsign hwhole _ _ =>
    simp only [List.mem_cons, List.not_mem_nil, or_false] at hsign
    rcases hsign with rfl | rfl
    · obtain ⟨d, tail, rfl, hdigit⟩ := hwhole.exists_cons
      refine ⟨d, leading?_cons (isBlank_of_isDigit hdigit) _, ?_⟩
      rintro rfl
      cases hdigit
    · exact ⟨'-', rfl, by decide⟩
  | string h =>
    obtain ⟨tail, rfl, _⟩ := exists_measure h
    exact ⟨'\x22', rfl, by decide⟩
  | list _ htext => cases htext <;> exact ⟨'[', rfl, by decide⟩
  | @object members _ _ _ htext =>
    generalize members.map (fun member => member.1 ++ ':' :: member.2) = parts at htext
    cases htext <;> exact ⟨'\x7b', rfl, by decide⟩
  | padded hbefore _ _ ih =>
    obtain ⟨c, hc, hne⟩ := ih
    exact ⟨c, leading?_padded hbefore hc _, hne⟩

theorem passes_padded {before core after : List Char} (hbefore : Blanks before)
    (h : Passes mayFail core) (hafter : Blanks after) :
    Passes mayFail (before ++ core ++ after) := by
  intro inside s hs
  obtain ⟨left, hleft, hpasses⟩ := h inside (symbols after ++ s) (apart_append hafter hs)
  have hsymbols : symbols (before ++ core ++ after) ++ s =
      symbols before ++ (symbols core ++ (symbols after ++ s)) := by
    simp
  refine ⟨left, hleft.trans (skipBlanks_append hafter s), ?_⟩
  rw [hsymbols, rest_congr (waits_value inside) (skipBlanks_append hbefore _)]
  exact hpasses

theorem passes_value {text : List Char} (h : IsValue text) : Passes mayFail text := by
  induction h with
  | null => exact passes_scalar rfl fun _ _ => rfl
  | true => exact passes_scalar rfl fun _ _ => rfl
  | false => exact passes_scalar rfl fun _ _ => rfl
  | number hsign hwhole hfraction hpower => exact passes_number hsign hwhole hfraction hpower
  | string h => exact passes_string h
  | list hitems htext ih =>
    have hparts : ∀ item ∈ _, PassesIn mayFail .list item := fun item hitem =>
      ⟨fun inside => ih item hitem (.list :: inside), (hitems item hitem).leads⟩
    exact passes_container hparts htext
  | object hnames _ htext ih =>
    refine passes_container (c := .object) (fun part hpart => ?_) htext
    obtain ⟨member, hmember, rfl⟩ := List.mem_map.mp hpart
    exact passesIn_member (hnames member hmember) (ih member hmember)
  | padded hbefore _ hafter ih => exact passes_padded hbefore ih hafter

/-- The text of any value is passed over, and nothing but blanks with it. -/
theorem reads_skipValue {text : List Char} (h : IsValue text) : Reads skipValue text () := by
  intro s rest hrest hs
  have hvalue : Passes False text := passes_value h
  obtain ⟨left, hleft, hpasses⟩ := hvalue [] rest hrest
  refine ⟨left, ?_, hleft⟩
  rw [skipValue, rest_congr (waits_value []) hs, hpasses.resolve_right nofun]
  cases left <;> rfl

end Values

end SyscallPolicy.Json
