import SyscallPolicy.Policy.Build
import SyscallPolicy.Policy.Printer
import SyscallPolicy.Proofs.Json.Spelling

/-! A policy is decoded from every text that spells it. Parts that are empty, zero or absent may be
left out. -/
namespace SyscallPolicy
open Json (IsDigits IsPower IsString IsValue Padded Part Reads ReadsElement SpellsChar
  SpellsListOrNull SpellsMember SpellsNullable SpellsObject SpellsString encloses_separated held
  spellsList_map spellsMember_write spellsNullable_orNull spellsString_write)
open Policy.Printer (natural)

/-- Texts that spell a number: its digits alone. -/
def SpellsNatural (n : Nat) (text : List Char) : Prop := text = natural n

def ArgCheck.parts (check : ArgCheck) : List Part := [
  ⟨"index", False, SpellsNatural check.index.toNat⟩,
  ⟨"value", check.value = 0, SpellsNatural check.value.toNat⟩,
  ⟨"valueTwo", check.valueTwo = 0, SpellsNatural check.valueTwo.toNat⟩,
  ⟨"op", False, SpellsString check.op⟩]

def SpellsCheck (check : ArgCheck) : List Char → Prop := SpellsObject check.parts

def Entry.parts (entry : Entry) : List Part := [
  ⟨"name", entry.name = "", SpellsString entry.name⟩,
  ⟨"action", entry.action = "", SpellsString entry.action⟩,
  ⟨"errnoRet", entry.errnoRet = none,
    SpellsNullable SpellsNatural (entry.errnoRet.map (·.toNat))⟩,
  ⟨"args", entry.args = [], SpellsListOrNull (SpellsNullable SpellsCheck) entry.args⟩]

def SpellsEntry (entry : Entry) : List Char → Prop := SpellsObject entry.parts

def Policy.parts (policy : Policy) : List Part := [
  ⟨"defaultAction", False, SpellsString policy.defaultAction⟩,
  ⟨"architectures", policy.architectures = [], SpellsListOrNull SpellsString policy.architectures⟩,
  ⟨"syscalls", policy.syscalls = [],
    SpellsListOrNull (SpellsNullable SpellsEntry) policy.syscalls⟩]

/-- A document that is a policy, with blanks around it. -/
def SpellsPolicy (policy : Policy) (text : String) : Prop :=
  Padded (SpellsObject policy.parts) text.toList

section Values

/-- A value once a member with its name has been read, and nothing before that. -/
def whenRead {α : Type} (name : String) (value : α) (names : List String) : Option α :=
  if name ∈ names then some value else none

theorem whenRead_cons_of_ne {α : Type} {name other : String} (h : name ≠ other) (value : α)
    (names : List String) : whenRead name value (other :: names) = whenRead name value names := by
  simp only [whenRead, List.mem_cons, h, false_or]

theorem getD_whenRead {α : Type} {name : String} {value missing : α} {names : List String}
    (h : name ∈ names ∨ value = missing) : (whenRead name value names).getD missing = value := by
  rw [whenRead]
  split
  · rfl
  · next hmem => exact (h.resolve_left hmem).symm

/-- A field takes in the value of its part if its reader reads whatever spells the value. -/
theorem fills_field {σ α : Type} {record : List String → σ} {name : String} {required : Bool}
    {optional : Prop} {get : σ → Option α} {set : σ → α → σ} {reader : Json.Reader α} {value : α}
    {spells : List Char → Prop} (hrequired : required = true → ¬optional)
    (hget : ∀ names, get (record names) = whenRead name value names)
    (hset : ∀ names, set (record names) value = record (name :: names))
    (hread : ∀ text, spells text → Reads reader text value) :
    Part.Fills record ⟨name, optional, spells⟩
      (Policy.Reader.field name required get set reader) where
  name_eq := rfl
  required := hrequired
  isSet_eq names := by
    simp only [Policy.Reader.field, hget, whenRead]
    split <;> simp_all
  reads names text htext := by
    rw [← hset]
    exact (hread text htext).map (set (record names))

theorem reads_spelledNatural {width n : Nat} {text : List Char} (hwidth : n < Nat.pow 2 width)
    (hn : n < UInt64.size) (h : SpellsNatural n text) : Reads (Json.readUnsigned width) text n := by
  rw [h]
  exact Json.reads_natural hwidth hn

/-- Values of a list that may be null are read if those that are not are objects and read. -/
theorem readsElement_spelledNullable {α : Type} {reader : Json.Reader α} {parts : α → List Part}
    (hread : ∀ value text, SpellsObject (parts value) text → Reads reader text value)
    (value : Option α) (text : List Char)
    (h : SpellsNullable (fun value => SpellsObject (parts value)) value text) :
    ReadsElement (Json.readNullable reader) text value where
  reads := Json.reads_nullable (fun value _ text htext =>
    ⟨hread value text htext, '\x7b', htext.leading, by decide⟩) h
  leads := by
    cases h with
    | null => exact ⟨'n', rfl, by decide⟩
    | value h => exact ⟨'\x7b', h.leading, by decide⟩

end Values

/-- The fields of a check once members with the given names have been read. -/
def ArgCheck.fields (check : ArgCheck) (names : List String) : Policy.Reader.ArgCheckFields where
  index := whenRead "index" check.index.toNat names
  value := whenRead "value" check.value.toNat names
  valueTwo := whenRead "valueTwo" check.valueTwo.toNat names
  op := whenRead "op" check.op names

theorem ArgCheck.holds_fields (check : ArgCheck) :
    Policy.Reader.argCheckSchema.Holds check.parts check.fields where
  fills := by
    have hword : ∀ (word : UInt64) text, SpellsNatural word.toNat text →
        Reads (Json.readUnsigned 64) text word.toNat :=
      fun word text => reads_spelledNatural word.toNat_lt word.toNat_lt
    have hindex : ∀ text, SpellsNatural check.index.toNat text →
        Reads (Json.readUnsigned 32) text check.index.toNat :=
      fun text => reads_spelledNatural check.index.toNat_lt
        (Nat.lt_trans check.index.toNat_lt (by decide))
    refine .cons (fills_field nofun (fun _ => rfl) ?_ hindex) ?_
    · simp [fields, whenRead]
    refine .cons (fills_field nofun (fun _ => rfl) ?_ (hword check.value)) ?_
    · simp [fields, whenRead]
    refine .cons (fills_field nofun (fun _ => rfl) ?_ (hword check.valueTwo)) ?_
    · simp [fields, whenRead]
    refine .cons (fills_field nofun (fun _ => rfl) ?_ fun _ => Json.reads_spelled) .nil
    · simp [fields, whenRead]
  other name names hother := by
    simp only [parts, List.forall_mem_cons, List.not_mem_nil, false_imp_iff, implies_true,
      and_true] at hother
    obtain ⟨hindex, hvalue, hvalueTwo, hop⟩ := hother
    simp only [fields, whenRead_cons_of_ne hindex, whenRead_cons_of_ne hvalue,
      whenRead_cons_of_ne hvalueTwo, whenRead_cons_of_ne hop]

theorem reads_spelledCheck (check : ArgCheck) (text : List Char) (h : SpellsCheck check text) :
    Reads Policy.Reader.argCheck text check := by
  obtain ⟨names, hnames, hread⟩ := Json.reads_spelledObject check.holds_fields h
  simp only [ArgCheck.parts, List.forall_mem_cons, List.not_mem_nil, false_imp_iff, implies_true,
    and_true, or_false] at hnames
  obtain ⟨hindex, hvalue, hvalueTwo, hop⟩ := hnames
  have hcheck := hread.map fun r =>
    (⟨(r.index.getD 0).toUInt32, (r.value.getD 0).toUInt64, (r.valueTwo.getD 0).toUInt64,
      r.op.getD ""⟩ : ArgCheck)
  have hzero : ∀ {name : String} {word : UInt64}, name ∈ names ∨ word = 0 →
      (whenRead name word.toNat names).getD 0 = word.toNat :=
    fun h => getD_whenRead (h.imp_right fun hword => by rw [hword]; rfl)
  simp only [ArgCheck.fields, getD_whenRead (.inl hindex), hzero hvalue, hzero hvalueTwo,
    getD_whenRead (.inl hop), Nat.toUInt32, Nat.toUInt64, UInt32.ofNat_toNat, UInt64.ofNat_toNat]
    at hcheck
  exact hcheck

/-- The fields of an entry once members with the given names have been read. -/
def Entry.fields (entry : Entry) (names : List String) : Policy.Reader.EntryFields where
  name := whenRead "name" entry.name names
  action := whenRead "action" entry.action names
  errnoRet := whenRead "errnoRet" (entry.errnoRet.map (·.toNat)) names
  args := whenRead "args" entry.args names

theorem Entry.holds_fields (entry : Entry) :
    Policy.Reader.entrySchema.Holds entry.parts entry.fields where
  fills := by
    have hcode : ∀ text, SpellsNullable SpellsNatural (entry.errnoRet.map (·.toNat)) text →
        Reads (Json.readNullable (Json.readUnsigned 16)) text (entry.errnoRet.map (·.toNat)) := by
      refine fun text => Json.reads_nullable fun code hcode text htext => ?_
      obtain ⟨code, -, rfl⟩ := Option.map_eq_some_iff.mp hcode
      refine ⟨reads_spelledNatural code.toNat_lt (Nat.lt_trans code.toNat_lt (by decide)) htext, ?_⟩
      rw [htext]
      exact Json.leading?_natural code.toNat
    have hargs : ∀ text, SpellsListOrNull (SpellsNullable SpellsCheck) entry.args text →
        Reads (Json.readListOrNull (Json.readNullable Policy.Reader.argCheck)) text entry.args :=
      fun _ => Json.reads_spelledListOrNull (readsElement_spelledNullable reads_spelledCheck)
    refine .cons (fills_field nofun (fun _ => rfl) ?_ fun _ => Json.reads_spelled) ?_
    · simp [fields, whenRead]
    refine .cons (fills_field nofun (fun _ => rfl) ?_ fun _ => Json.reads_spelled) ?_
    · simp [fields, whenRead]
    refine .cons (fills_field nofun (fun _ => rfl) ?_ hcode) ?_
    · simp [fields, whenRead]
    refine .cons (fills_field nofun (fun _ => rfl) ?_ hargs) .nil
    · simp [fields, whenRead]
  other name names hother := by
    simp only [parts, List.forall_mem_cons, List.not_mem_nil, false_imp_iff, implies_true,
      and_true] at hother
    obtain ⟨hname, haction, herrno, hargs⟩ := hother
    simp only [fields, whenRead_cons_of_ne hname, whenRead_cons_of_ne haction,
      whenRead_cons_of_ne herrno, whenRead_cons_of_ne hargs]

theorem reads_spelledEntry (entry : Entry) (text : List Char) (h : SpellsEntry entry text) :
    Reads Policy.Reader.entry text entry := by
  obtain ⟨names, hnames, hread⟩ := Json.reads_spelledObject entry.holds_fields h
  simp only [Entry.parts, List.forall_mem_cons, List.not_mem_nil, false_imp_iff, implies_true,
    and_true] at hnames
  obtain ⟨hname, haction, herrno, hargs⟩ := hnames
  have hentry := hread.map fun r =>
    (⟨r.name.getD "", r.action.getD "", (r.errnoRet.getD none).map (·.toUInt16),
      r.args.getD []⟩ : Entry)
  have hcode : (whenRead "errnoRet" (entry.errnoRet.map (·.toNat)) names).getD none =
      entry.errnoRet.map (·.toNat) :=
    getD_whenRead (herrno.imp_right fun hnone => by rw [hnone]; rfl)
  have hback : (entry.errnoRet.map (·.toNat)).map (·.toUInt16) = entry.errnoRet := by
    cases entry.errnoRet <;> simp
  simp only [Entry.fields, getD_whenRead hname, getD_whenRead haction, hcode, hback,
    getD_whenRead hargs] at hentry
  exact hentry

/-- The fields of a policy once members with the given names have been read. -/
def Policy.fields (policy : Policy) (names : List String) : Reader.PolicyFields where
  defaultAction := whenRead "defaultAction" policy.defaultAction names
  architectures := whenRead "architectures" policy.architectures names
  syscalls := whenRead "syscalls" policy.syscalls names

namespace Policy

theorem holds_fields (policy : Policy) : Reader.policySchema.Holds policy.parts policy.fields where
  fills := by
    have harchitectures : ∀ text, SpellsListOrNull SpellsString policy.architectures text →
        Reads (Json.readListOrNull Json.readString) text policy.architectures :=
      fun _ => Json.reads_spelledListOrNull fun _ _ => Json.readsElement_spelled
    have hsyscalls : ∀ text, SpellsListOrNull (SpellsNullable SpellsEntry) policy.syscalls text →
        Reads (Json.readListOrNull (Json.readNullable Reader.entry)) text policy.syscalls :=
      fun _ => Json.reads_spelledListOrNull (readsElement_spelledNullable reads_spelledEntry)
    refine .cons (fills_field nofun (fun _ => rfl) ?_ fun _ => Json.reads_spelled) ?_
    · simp [fields, whenRead]
    refine .cons (fills_field nofun (fun _ => rfl) ?_ harchitectures) ?_
    · simp [fields, whenRead]
    refine .cons (fills_field nofun (fun _ => rfl) ?_ hsyscalls) .nil
    · simp [fields, whenRead]
  other name names hother := by
    simp only [parts, List.forall_mem_cons, List.not_mem_nil, false_imp_iff, implies_true,
      and_true] at hother
    obtain ⟨hdefault, harchitectures, hsyscalls⟩ := hother
    simp only [fields, whenRead_cons_of_ne hdefault, whenRead_cons_of_ne harchitectures,
      whenRead_cons_of_ne hsyscalls]

theorem reads_spelled (policy : Policy) (text : List Char) (h : SpellsObject policy.parts text) :
    Reads Reader.policy text policy := by
  obtain ⟨names, hnames, hread⟩ := Json.reads_spelledObject policy.holds_fields h
  simp only [parts, List.forall_mem_cons, List.not_mem_nil, false_imp_iff, implies_true,
    and_true, or_false] at hnames
  obtain ⟨hdefault, harchitectures, hsyscalls⟩ := hnames
  have hpolicy := hread.map fun r =>
    (⟨r.defaultAction.getD "", r.architectures.getD [], r.syscalls.getD []⟩ : Policy)
  simp only [fields, getD_whenRead (.inl hdefault), getD_whenRead harchitectures,
    getD_whenRead hsyscalls] at hpolicy
  exact hpolicy

/-- Decoding a text gives the policy that it spells: in any order of members, with any blanks, with
members that a policy does not know, with or without what is empty, and in any escapes. -/
theorem decode_of_spells {policy : Policy} {text : String} (h : SpellsPolicy policy text) :
    decode text = .ok policy := by
  have hread : ofJson text = .ok policy := (Json.reads_padded policy.reads_spelled h).document
  rw [decode, hread]
  rfl

/-- A document whose members stand in an unusual order, with an unknown one that holds half of a
surrogate pair, and with escapes in a name and in a value. -/
theorem decode_of_spells_escaped :
    let policy : Policy := ⟨"/", [], [none, some ⟨"😀", "", none, [some ⟨7, 0, 0, "="⟩]⟩]⟩
    let text := "\x7b\"x\":[\x7b\"\\ud800\":-1.5e+3\x7d,null]," ++
      "\n\"syscalls\":[null,\x7b\"args\":[\x7b\"op\":\"=\",\"index\":7\x7d],\"errnoRet\":null," ++
      "\"\\u006eame\":\"\\ud83d\\uDE00\"\x7d],\"defaultAction\":\"\\/\"\x7d"
    SpellsPolicy policy text ∧ decode text = .ok policy := by
  intro policy text
  have hlone : IsString "\"\\ud800\"".toList :=
    @IsString.quoted ["\\ud800".toList] (List.forall_mem_singleton.mpr
      (.number (n := 0xd800) (by constructor <;> decide)))
  have hdigit : ∀ d : Char, d.isDigit = true → IsDigits [d] :=
    fun d hd => ⟨List.cons_ne_nil d [], List.forall_mem_singleton.mpr hd⟩
  have hnumber : IsValue "-1.5e+3".toList :=
    @IsValue.number ['-'] ['1'] ['.', '5'] ['e', '+', '3'] (by decide)
      (.digits (hdigit '1' rfl) (by decide)) (.digits (hdigit '5' rfl))
      (@IsPower.digits 'e' ['+'] ['3'] (by decide) (by decide) (hdigit '3' rfl))
  have hobject : IsValue "\x7b\"\\ud800\":-1.5e+3\x7d".toList :=
    @IsValue.object [("\"\\ud800\"".toList, "-1.5e+3".toList)] _
      (List.forall_mem_singleton.mpr (Json.padded_self hlone))
      (List.forall_mem_singleton.mpr hnumber) (.parts _ _)
  have hunknown : held policy.parts "x" "[\x7b\"\\ud800\":-1.5e+3\x7d,null]".toList :=
    @IsValue.list ["\x7b\"\\ud800\":-1.5e+3\x7d".toList, "null".toList] _
      (List.forall_mem_cons.mpr ⟨hobject, List.forall_mem_singleton.mpr .null⟩) (.parts _ _)
  have hcheck : SpellsCheck ⟨7, 0, 0, "="⟩ _ :=
    .object (.cons (spellsMember_write "op" (spellsString_write "="))
        (.cons (spellsMember_write "index" rfl) .nil))
      (by simp [ArgCheck.parts]) (.parts _ _)
  have hname : SpellsString "name" "\"\\u006eame\"".toList :=
    @SpellsString.quoted "name" ["\\u006e".toList, ['a'], ['m'], ['e']]
      (.cons (.number (by constructor <;> decide)) (.cons (.raw ⟨by decide, by decide, by decide⟩)
        (.cons (.raw ⟨by decide, by decide, by decide⟩)
          (.cons (.raw ⟨by decide, by decide, by decide⟩) .nil))))
  have hpair : SpellsChar '😀' "\\ud83d\\uDE00".toList :=
    @SpellsChar.pair _ 0xf600 ['d', '8', '3', 'd'] ['D', 'E', '0', '0'] (by decide)
      (by constructor <;> decide) (by constructor <;> decide)
  have hface : SpellsString "😀" "\"\\ud83d\\uDE00\"".toList :=
    @SpellsString.quoted "😀" ["\\ud83d\\uDE00".toList] (.cons hpair .nil)
  have hargs : SpellsListOrNull (SpellsNullable SpellsCheck) [some ⟨7, 0, 0, "="⟩] _ :=
    .list (.list (.cons (Json.padded_self (.value hcheck)) .nil) (.parts _ _))
  have hentry : SpellsEntry ⟨"😀", "", none, [some ⟨7, 0, 0, "="⟩]⟩ _ :=
    .object (.cons (spellsMember_write "args" hargs) (.cons (spellsMember_write "errnoRet" .null)
        (.cons (.member (Json.padded_self hname) (Json.padded_self hface)) .nil)))
      (by simp [Entry.parts]) (.parts _ _)
  have hsyscalls : SpellsListOrNull (SpellsNullable SpellsEntry) policy.syscalls _ :=
    .list (.list (.cons (Json.padded_self .null)
      (.cons (Json.padded_self (.value hentry)) .nil)) (.parts _ _))
  have hslash : SpellsString "/" "\"\\/\"".toList :=
    @SpellsString.quoted "/" [['\\', '/']] (.cons (.short (by decide)) .nil)
  have hbroken : Padded (SpellsString "syscalls") "\n\"syscalls\"".toList :=
    @Padded.padded _ ['\n'] _ [] (List.forall_mem_singleton.mpr (by decide))
      (spellsString_write "syscalls") nofun
  have hpolicy : SpellsObject policy.parts _ :=
    .object (.cons (spellsMember_write "x" hunknown)
        (.cons (.member hbroken (Json.padded_self hsyscalls))
          (.cons (spellsMember_write "defaultAction" hslash) .nil)))
      (by simp [policy, parts]) (.parts _ _)
  have hspells : SpellsPolicy policy text := by
    refine Json.padded_self (Eq.mp (congrArg _ ?_) hpolicy)
    decide +kernel
  exact ⟨hspells, decode_of_spells hspells⟩

end Policy

section Written

theorem spellsCheck_argCheck (check : ArgCheck) :
    SpellsCheck check (Policy.Printer.argCheck check) :=
  .object (.cons (spellsMember_write "index" rfl) (.cons (spellsMember_write "value" rfl)
      (.cons (spellsMember_write "valueTwo" rfl)
        (.cons (spellsMember_write "op" (spellsString_write check.op)) .nil))))
    (by simp [ArgCheck.parts]) (encloses_separated _ _ _)

theorem spellsEntry_entry (entry : Entry) : SpellsEntry entry (Policy.Printer.entry entry) := by
  have hargs : held entry.parts "args" _ :=
    spellsList_map (spellsNullable_orNull spellsCheck_argCheck) entry.args
  have hname : SpellsMember entry.parts "name" _ :=
    spellsMember_write "name" (spellsString_write entry.name)
  have haction : SpellsMember entry.parts "action" _ :=
    spellsMember_write "action" (spellsString_write entry.action)
  cases herrno : entry.errnoRet with
  | none =>
    rw [Policy.Printer.entry, herrno]
    exact .object (.cons hname (.cons haction (.cons (spellsMember_write "args" hargs) .nil)))
      (by simp [Entry.parts, herrno]) (encloses_separated _ _ _)
  | some code =>
    have hcode : held entry.parts "errnoRet" (natural code.toNat) := by
      have hspells : SpellsNullable SpellsNatural (entry.errnoRet.map (·.toNat))
          (natural code.toNat) := by
        rw [herrno]
        exact .value rfl
      exact hspells
    rw [Policy.Printer.entry, herrno]
    exact .object (.cons hname (.cons haction (.cons (spellsMember_write "errnoRet" hcode)
        (.cons (spellsMember_write "args" hargs) .nil))))
      (by simp [Entry.parts]) (encloses_separated _ _ _)

/-- Every policy is spelled by the text that it is written as. -/
theorem Policy.spells_toJson (policy : Policy) : SpellsPolicy policy policy.toJson := by
  have harchitectures : held policy.parts "architectures" _ :=
    spellsList_map spellsString_write policy.architectures
  have hsyscalls : held policy.parts "syscalls" _ :=
    spellsList_map (spellsNullable_orNull spellsEntry_entry) policy.syscalls
  have hdefault : held policy.parts "defaultAction" _ := spellsString_write policy.defaultAction
  rw [SpellsPolicy, toJson, String.toList_ofList]
  exact Json.padded_self (.object (.cons (spellsMember_write "defaultAction" hdefault)
      (.cons (spellsMember_write "architectures" harchitectures)
        (.cons (spellsMember_write "syscalls" hsyscalls) .nil)))
    (by simp [parts]) (encloses_separated _ _ _))

end Written

end SyscallPolicy
