import SyscallPolicy.Proofs.Json.Taking

/-! What an object must say for a record to be read from it: each field at most once, and the
required ones. What the record then has is what the object says. -/
namespace SyscallPolicy.Json
open Text (Symbol)

section Names

theorem mem_valuesOf {name : String} {value : Node} {members : List (Option String × Node)} :
    value ∈ valuesOf name members ↔ (some name, value) ∈ members := by
  simp only [valuesOf, List.mem_filterMap, Option.ite_none_right_eq_some, Option.some.injEq,
    Prod.exists]
  constructor
  · rintro ⟨_, _, hmem, rfl, rfl⟩
    exact hmem
  · exact fun hmem => ⟨_, _, hmem, rfl, rfl⟩

theorem valuesOf_append (name : String) (members others : List (Option String × Node)) :
    valuesOf name (members ++ others) = valuesOf name members ++ valuesOf name others :=
  List.filterMap_append

theorem valuesOf_singleton_self (name : String) (value : Node) :
    valuesOf name [(some name, value)] = [value] := by
  simp [valuesOf]

theorem valuesOf_singleton_of_ne {name : String} {other : Option String} (h : other ≠ some name)
    (value : Node) : valuesOf name [(other, value)] = [] := by
  simp [valuesOf, h]

end Names

/-- A field of records, with what is known of the values that an object gives for it. -/
structure Slot (σ : Type) where
  field : Member σ
  Keyed : Node → Prop
  /-- The record has what these values say. -/
  Has : List Node → σ → Prop

/-- Reading a field takes in the value for it, and leaves the others as they are. -/
structure Slot.Sound {σ : Type} (slots : List (Slot σ)) (slot : Slot σ) : Prop where
  isSet_iff : ∀ values record, slot.Has values record →
    (slot.field.isSet record = true ↔ values ≠ [])
  faithful : ∀ record, Faithful (slot.field.read record) slot.Keyed fun value next =>
    slot.Has [value] next ∧ ∀ other ∈ slots, other.field.name ≠ slot.field.name → ∀ values,
      other.Has values record → other.Has values next

/-- Fields with different names make up a schema. -/
structure Schema.Tracks {σ : Type} (schema : Schema σ) (slots : List (Slot σ)) : Prop where
  fields_eq : schema.fields = slots.map (·.field)
  nodup : (slots.map (·.field.name)).Nodup
  sound : ∀ slot ∈ slots, slot.Sound slots

/-- A name with a value after it, both of them written. -/
structure WrittenMember.Valid (member : WrittenMember) : Prop where
  name : Padded (WritesString member.name) member.spelled
  value : Writes member.value.node member.value.core
  spaced : member.value.Spaced

section Members
variable {σ : Type} {schema : Schema σ} {slots : List (Slot σ)}

/-- A record has what members say. -/
def HasAll (slots : List (Slot σ)) (members : List (Option String × Node)) (record : σ) : Prop :=
  ∀ slot ∈ slots, slot.Has (valuesOf slot.field.name members) record

/-- The name that is read is the one that is written, and the value stands behind the colon. -/
theorem WrittenMember.Valid.exists_name {member : WrittenMember} (h : member.Valid)
    (rest : List Symbol) :
    ∃ body, skipBlanks (symbols member.text ++ rest) = .char '\x22' :: body ∧
      ∀ name left, StringLiteral.read body = .ok (name, left) →
        member.name = some name ∧ readColon left = .ok ((), symbols member.value.text ++ rest) := by
  have hpadded := h.name
  generalize hspelled : member.spelled = spelled at hpadded
  cases hpadded with
  | @padded before literal after hbefore hliteral hafter =>
    obtain ⟨c, tail, rfl, hblank, hbegins⟩ := exists_cons_of_writes (.string hliteral)
    obtain rfl : c = '\x22' := hbegins
    have hsymbols : symbols member.text ++ rest = symbols before ++ .char '\x22' :: (symbols tail ++
        (symbols after ++ .char ':' :: (symbols member.value.text ++ rest))) := by
      simp [WrittenMember.text, hspelled]
    have hcolon : isBlank (.char ':') = false := rfl
    rw [hsymbols, skipBlanks_append hbefore, skipBlanks_cons hblank]
    refine ⟨_, rfl, fun name left hread => ?_⟩
    obtain ⟨hname, rfl⟩ := hliteral.eq_some_of_read hread
    refine ⟨hname, ?_⟩
    simp only [readColon, skipBlanks_append hafter, skipBlanks_cons hcolon, if_pos]

theorem Schema.Tracks.mem_fields (h : schema.Tracks slots) {slot : Slot σ} (hslot : slot ∈ slots) :
    slot.field ∈ schema.fields := by
  rw [h.fields_eq]
  exact List.mem_map_of_mem hslot

/-- A required field that is not missing was given a value. -/
theorem HasAll.ne_nil (h : schema.Tracks slots) {members : List (Option String × Node)} {record : σ}
    (hhas : HasAll slots members record) (hmissing : schema.missing? record = none) {slot : Slot σ}
    (hslot : slot ∈ slots) (hrequired : slot.field.required = true) :
    valuesOf slot.field.name members ≠ [] := by
  rw [← (h.sound slot hslot).isSet_iff _ record (hhas slot hslot)]
  have hset := List.find?_eq_none.mp hmissing _ (h.mem_fields hslot)
  simpa [hrequired] using hset

/-- A member that has the name of no field says nothing to any of them. -/
theorem HasAll.other (h : schema.Tracks slots) {seen : List (Option String × Node)} {record : σ}
    (hhas : HasAll slots seen record) {name : String}
    (hfind : schema.fields.find? (·.name = name) = none) (value : Node) :
    HasAll slots (seen ++ [(some name, value)]) record := by
  intro slot hslot
  have hother : some name ≠ some slot.field.name := by
    rintro heq
    cases heq
    simpa using List.find?_eq_none.mp hfind _ (h.mem_fields hslot)
  rw [valuesOf_append, valuesOf_singleton_of_ne hother, List.append_nil]
  exact hhas slot hslot

/-- A member of a field that has no value yet is the only one of that field. -/
theorem HasAll.field (h : schema.Tracks slots) {seen : List (Option String × Node)}
    {record next : σ} (hhas : HasAll slots seen record) {slot : Slot σ} (hslot : slot ∈ slots)
    (hunset : slot.field.isSet record = false) {value : Node} (htaken : slot.Has [value] next)
    (hothers : ∀ other ∈ slots, other.field.name ≠ slot.field.name → ∀ values,
      other.Has values record → other.Has values next) :
    HasAll slots (seen ++ [(some slot.field.name, value)]) next := by
  have hnone : valuesOf slot.field.name seen = [] := by
    by_contra hne
    have hset := ((h.sound slot hslot).isSet_iff _ record (hhas slot hslot)).mpr hne
    rw [hunset] at hset
    cases hset
  intro other hother
  by_cases heq : other.field.name = slot.field.name
  · obtain rfl := List.inj_on_of_nodup_map h.nodup hother hslot heq
    rw [valuesOf_append, hnone, List.nil_append, valuesOf_singleton_self]
    exact htaken
  · have hdiffers : some slot.field.name ≠ some other.field.name :=
      fun hsame => heq (Option.some.inj hsame).symm
    rw [valuesOf_append, valuesOf_singleton_of_ne hdiffers, List.append_nil]
    exact hothers other hother heq _ (hhas other hother)

/-- A member that is read is of no field, or else the first of its field. -/
theorem hasAll_of_readMember (h : schema.Tracks slots) {member : WrittenMember}
    (hmember : member.Valid)
    (hkeyed : ∀ slot ∈ slots, member.name = some slot.field.name → slot.Keyed member.value.node)
    {rest body left : List Symbol} (hrest : Apart rest)
    (hbody : skipBlanks (symbols member.text ++ rest) = .char '\x22' :: body)
    {seen : List (Option String × Node)} {record next : σ} (hhas : HasAll slots seen record)
    (hread : schema.readMember record body = .ok (next, left)) :
    HasAll slots (seen ++ [member.entry]) next ∧ skipBlanks left = skipBlanks rest := by
  obtain ⟨body', hbody', hnamed⟩ := hmember.exists_name rest
  obtain rfl : body' = body := (List.cons.inj (hbody'.symm.trans hbody)).2
  obtain ⟨⟨name, behind⟩, hspelled, hread⟩ := bind_eq_ok.mp hread
  obtain ⟨hname, hcolon⟩ := hnamed name behind hspelled
  have hentry : member.entry = (some name, member.value.node) := by rw [← hname]; rfl
  rw [hentry]
  cases hfind : schema.fields.find? (·.name = name) with
  | none =>
    simp only [hfind, hcolon] at hread
    obtain ⟨_, hsame, hread⟩ := bind_eq_ok.mp hread
    cases hsame
    obtain ⟨⟨_, behind⟩, hskip, hread⟩ := bind_eq_ok.mp hread
    cases hread
    obtain ⟨_, hleft⟩ := faithful_skipValue.written trivial hmember.value hmember.spaced hrest _ _ _
      rfl hskip
    exact ⟨hhas.other h hfind member.value.node, hleft⟩
  | some field =>
    simp only [hfind] at hread
    have hmem : field ∈ schema.fields := List.mem_of_find?_eq_some hfind
    have hfield : field.name = name := by simpa using List.find?_some hfind
    rw [h.fields_eq] at hmem
    obtain ⟨slot, hslot, rfl⟩ := List.mem_map.mp hmem
    subst hfield
    have hunset : slot.field.isSet record = false := by
      cases hset : slot.field.isSet record with
      | false => rfl
      | true => simp [hset, throw, throwThe, MonadExceptOf.throw, bind, Except.bind] at hread
    simp only [hunset, hcolon, Bool.false_eq_true, if_false] at hread
    obtain ⟨_, hsame, hread⟩ := bind_eq_ok.mp hread
    cases hsame
    obtain ⟨⟨htaken, hothers⟩, hleft⟩ := ((h.sound slot hslot).faithful record).written
      (hkeyed slot hslot hname) hmember.value hmember.spaced hrest _ _ _ rfl hread
    exact ⟨hhas.field h hslot hunset htaken hothers, hleft⟩

theorem of_readMembers_none {first : Bool} {limit : Nat} {record : σ} {s : List Symbol}
    {found : σ × List Symbol} (hnext : nextName first s = .ok none)
    (hread : schema.readMembers limit first record s = .ok found) :
    found = (record, (skipBlanks s).tail) := by
  cases limit with
  | zero => cases hread
  | succ limit =>
    rw [Schema.readMembers, hnext] at hread
    obtain ⟨_, hsame, hread⟩ := bind_eq_ok.mp hread
    cases hsame
    exact (pure_eq_ok.mp hread).symm

theorem of_readMembers_some {first : Bool} {limit : Nat} {record : σ} {s body : List Symbol}
    {found : σ × List Symbol} (hnext : nextName first s = .ok (some body))
    (hread : schema.readMembers limit first record s = .ok found) :
    ∃ limit next left, schema.readMember record body = .ok (next, left) ∧
      schema.readMembers limit false next left = .ok found := by
  cases limit with
  | zero => cases hread
  | succ limit =>
    rw [Schema.readMembers, hnext] at hread
    obtain ⟨_, hsame, hread⟩ := bind_eq_ok.mp hread
    cases hsame
    obtain ⟨⟨next, left⟩, hmember, hrest⟩ := bind_eq_ok.mp hread
    exact ⟨limit, next, left, hmember, hrest⟩

/-- What each field was given is known of all the members once the object ends. -/
theorem hasAll_of_readMembers (h : schema.Tracks slots) {members : List WrittenMember}
    (hmembers : ∀ member ∈ members, member.Valid)
    (hkeyed : ∀ slot ∈ slots, ∀ member ∈ members, member.name = some slot.field.name →
      slot.Keyed member.value.node)
    {limit : Nat} {seen : List (Option String × Node)} {record last : σ} {s rest left : List Symbol}
    (hhas : HasAll slots seen record)
    (hs : skipBlanks s =
      skipBlanks (symbols ((members.map (·.text)).flatMap (',' :: ·)) ++ .char '\x7d' :: rest))
    (hread : schema.readMembers limit false record s = .ok (last, left)) :
    HasAll slots (seen ++ members.map (·.entry)) last ∧ left = rest := by
  induction members generalizing limit seen record s with
  | nil =>
    have hclosing : skipBlanks s = .char '\x7d' :: rest := hs
    have hend := of_readMembers_none (Schema.nextName_closing false hclosing) hread
    rw [hclosing] at hend
    cases hend
    rw [List.map_nil, List.append_nil]
    exact ⟨hhas, rfl⟩
  | cons member members ih =>
    have hmember := hmembers member List.mem_cons_self
    have happart := apart_flatMap '\x7d' (by decide) (members.map (·.text)) rest
    have hcomma : skipBlanks s = .char ',' :: (symbols member.text ++
        (symbols ((members.map (·.text)).flatMap (',' :: ·)) ++ .char '\x7d' :: rest)) := by
      rw [hs]
      simp [skipBlanks_cons, isBlank]
    obtain ⟨body, hbody, _⟩ := hmember.exists_name
      (symbols ((members.map (·.text)).flatMap (',' :: ·)) ++ .char '\x7d' :: rest)
    obtain ⟨limit, next, behind, hone, hrest⟩ :=
      of_readMembers_some (Schema.nextName_comma hcomma hbody) hread
    obtain ⟨hnext, hbehind⟩ := hasAll_of_readMember h hmember
      (fun slot hslot => hkeyed slot hslot member List.mem_cons_self) happart hbody hhas hone
    have hall := ih (fun other hother => hmembers other (List.mem_cons_of_mem member hother))
      (fun slot hslot other hother => hkeyed slot hslot other (List.mem_cons_of_mem member hother))
      hnext hbehind hrest
    rwa [List.append_assoc, List.singleton_append, ← List.map_cons] at hall

/-- The members of an object, from its opening brace on. -/
theorem hasAll_of_enclosed (h : schema.Tracks slots) {members : List WrittenMember}
    (hmembers : ∀ member ∈ members, member.Valid)
    (hkeyed : ∀ slot ∈ slots, ∀ member ∈ members, member.name = some slot.field.name →
      slot.Keyed member.value.node)
    {limit : Nat} {record last : σ} {rest left : List Symbol} {tail : List Char}
    (hhas : HasAll slots [] record)
    (henclosed : Encloses '\x7b' '\x7d' (members.map (·.text)) ('\x7b' :: tail))
    (hread : schema.readMembers limit true record (symbols tail ++ rest) = .ok (last, left)) :
    HasAll slots (members.map (·.entry)) last ∧ left = rest := by
  cases members with
  | nil =>
    have hclosing := skipBlanks_of_encloses rfl henclosed rest
    have hend := of_readMembers_none (Schema.nextName_closing true hclosing) hread
    rw [hclosing] at hend
    cases hend
    exact ⟨hhas, rfl⟩
  | cons member members =>
    have hmember := hmembers member List.mem_cons_self
    have happart := apart_flatMap '\x7d' (by decide) (members.map (·.text)) rest
    rw [symbols_of_encloses henclosed rest] at hread
    obtain ⟨body, hbody, _⟩ := hmember.exists_name
      (symbols ((members.map (·.text)).flatMap (',' :: ·)) ++ .char '\x7d' :: rest)
    obtain ⟨limit, next, behind, hone, hrest⟩ :=
      of_readMembers_some (Schema.nextName_first hbody) hread
    obtain ⟨hnext, hbehind⟩ := hasAll_of_readMember h hmember
      (fun slot hslot => hkeyed slot hslot member List.mem_cons_self) happart hbody hhas hone
    exact hasAll_of_readMembers h
      (fun other hother => hmembers other (List.mem_cons_of_mem member hother))
      (fun slot hslot other hother => hkeyed slot hslot other (List.mem_cons_of_mem member hother))
      hnext hbehind hrest

/-- A record that is read has what an object says, and no required field is missing there. -/
theorem takes_object (h : schema.Tracks slots) {empty : σ} (hempty : HasAll slots [] empty)
    {node : Node} {text : List Char} (hwrites : Writes node text)
    (hlist : ∀ items, node ≠ .list items)
    (hkeyed : ∀ slot ∈ slots, ∀ value ∈ node.named slot.field.name, slot.Keyed value)
    (rest : List Symbol) :
    Takes (schema.read empty) text rest fun record => ∃ members, node = .object members ∧
      HasAll slots members record ∧ ∀ slot ∈ slots, slot.field.required = true →
        valuesOf slot.field.name members ≠ [] := by
  intro s record left hs hread
  obtain ⟨c, tail, htext, hbegins, hchar⟩ := exists_skipBlanks_of_writes hwrites hs
  unfold Schema.read at hread
  split at hread
  · cases hread
  · next heq =>
    rw [hchar] at heq
    cases heq
    obtain ⟨nodes, rfl⟩ := Node.eq_object_of_beginsWith hbegins
    cases hwrites with
    | @object members _ hnames hvalues hspaced henclosed =>
      subst htext
      obtain ⟨⟨last, behind⟩, hmembers, hread⟩ := bind_eq_ok.mp hread
      cases hmissing : schema.missing? last with
      | some field => simp [hmissing, throw, throwThe, MonadExceptOf.throw] at hread
      | none =>
        simp only [hmissing] at hread
        cases hread
        have hvalid : ∀ member ∈ members, member.Valid := fun member hmember =>
          ⟨hnames member hmember, hvalues member hmember, hspaced member hmember⟩
        have hfits : ∀ slot ∈ slots, ∀ member ∈ members, member.name = some slot.field.name →
            slot.Keyed member.value.node := by
          intro slot hslot member hmember hname
          refine hkeyed slot hslot _ (mem_valuesOf.mpr ?_)
          rw [← hname]
          exact List.mem_map_of_mem hmember
        obtain ⟨hall, hleft⟩ := hasAll_of_enclosed h hvalid hfits hempty henclosed hmembers
        exact ⟨⟨_, rfl, hall, fun slot => hall.ne_nil h hmissing⟩, congrArg skipBlanks hleft⟩
  · next heq =>
    rw [hchar] at heq
    cases heq
    obtain ⟨items, rfl⟩ := Node.eq_list_of_beginsWith hbegins
    exact absurd rfl (hlist items)
  · cases hread

end Members

end SyscallPolicy.Json
