import SyscallPolicy.Policy.Build
import SyscallPolicy.Proofs.Json.Numbers
import SyscallPolicy.Proofs.Json.Structure

/-! A policy is read back from the JSON text that it is written as. -/
namespace SyscallPolicy.Policy
open Json (Reads ReadsElement)
open Json.Schema (readsMember_field reads_object)
open Json.StringLiteral (write)
open Policy.Printer (list member natural orNull)

private theorem reads_field {σ α : Type} {name : String} {required : Bool} {get : σ → Option α}
    {set : σ → α → σ} {reader : Json.Reader α} {record : σ} {text : List Char} {value : α}
    (h : Reads reader text value) :
    Reads ((Reader.field name required get set reader).read record) text (set record value) :=
  h.map (set record)

/-- An optional part of a list is read back, with `null` for what is absent. -/
theorem readsElement_orNull {α : Type} {reader : Json.Reader α} {write : α → List Char}
    (hread : ∀ a, Reads reader (write a) a) (hleads : ∀ a, Json.leading? (write a) = some '\x7b')
    (a : Option α) : ReadsElement (Json.readNullable reader) (orNull write a) a where
  reads := by
    cases a with
    | none => exact Json.reads_null
    | some a => exact (hread a).nullable (hleads a) (by decide)
  leads := by
    cases a with
    | none => exact ⟨'n', rfl, by decide⟩
    | some a => exact ⟨'\x7b', hleads a, by decide⟩

/-- A list is read back if each of its elements is. -/
theorem reads_list_map {α : Type} {reader : Json.Reader α} {write : α → List Char}
    (h : ∀ a, ReadsElement reader (write a) a) (as : List α) :
    Reads (Json.readListOrNull reader) (list (as.map write)) as := by
  have helements : List.Forall₂ (ReadsElement reader) (as.map write) as := by
    rw [List.forall₂_map_left_iff, List.forall₂_same]
    exact fun a _ => h a
  have hlist : Reads (Json.readNullable (Json.readList reader)) (list (as.map write)) (some as) :=
    (Json.reads_list helements).nullable rfl (by decide)
  exact hlist.map fun list => list.getD []

/-- The members of a check, in the order in which they are written. -/
private theorem readsMembers_argCheck (check : ArgCheck) :
    Reader.argCheckSchema.ReadsMembers {}
      [member "index" (natural check.index.toNat), member "value" (natural check.value.toNat),
        member "valueTwo" (natural check.valueTwo.toNat), member "op" (write check.op)]
      ⟨check.index.toNat, check.value.toNat, check.valueTwo.toNat, check.op⟩ := by
  have hindex : Reads (Json.readUnsigned 32) (natural check.index.toNat) check.index.toNat :=
    Json.reads_natural check.index.toNat_lt (Nat.lt_trans check.index.toNat_lt (by decide))
  have hword : ∀ word : UInt64, Reads (Json.readUnsigned 64) (natural word.toNat) word.toNat :=
    fun word => Json.reads_natural word.toNat_lt word.toNat_lt
  refine .cons (readsMember_field rfl rfl (reads_field hindex)) ?_
  refine .cons (readsMember_field rfl rfl (reads_field (hword check.value))) ?_
  refine .cons (readsMember_field rfl rfl (reads_field (hword check.valueTwo))) ?_
  exact .cons (readsMember_field rfl rfl (reads_field (Json.reads_write check.op))) (.nil _)

theorem reads_argCheck (check : ArgCheck) :
    Reads Reader.argCheck (Printer.argCheck check) check := by
  have hobject := (reads_object (readsMembers_argCheck check) rfl).map fun r =>
    (⟨(r.index.getD 0).toUInt32, (r.value.getD 0).toUInt64, (r.valueTwo.getD 0).toUInt64,
      r.op.getD ""⟩ : ArgCheck)
  have hcheck : (⟨check.index.toNat.toUInt32, check.value.toNat.toUInt64,
      check.valueTwo.toNat.toUInt64, check.op⟩ : ArgCheck) = check := by
    simp
  simp only [Option.getD_some, hcheck] at hobject
  exact hobject

/-- The members of an entry. The code has none when it is absent. -/
private theorem readsMembers_entry (entry : Entry) :
    ∃ r : Reader.EntryFields, Reader.entrySchema.ReadsMembers {}
      ([member "name" (write entry.name), member "action" (write entry.action)] ++
        (entry.errnoRet.toList.map fun code => member "errnoRet" (natural code.toNat)) ++
        [member "args" (list (entry.args.map (orNull Printer.argCheck)))]) r ∧
      r.name = some entry.name ∧ r.action = some entry.action ∧
      (r.errnoRet.getD none).map (·.toUInt16) = entry.errnoRet ∧ r.args = some entry.args := by
  have hcode : ∀ code : UInt16, Reads (Json.readNullable (Json.readUnsigned 16))
      (natural code.toNat) (some code.toNat) := by
    intro code
    have hnumber : Reads (Json.readUnsigned 16) (natural code.toNat) code.toNat :=
      Json.reads_natural code.toNat_lt (Nat.lt_trans code.toNat_lt (by decide))
    obtain ⟨d, hleads, hd⟩ := Json.leading?_natural code.toNat
    exact hnumber.nullable hleads hd
  have hargs := reads_list_map
    (readsElement_orNull reads_argCheck fun _ => rfl) entry.args
  cases herrno : entry.errnoRet with
  | none =>
    refine ⟨_, .cons (readsMember_field rfl rfl (reads_field (Json.reads_write entry.name))) <|
      .cons (readsMember_field rfl rfl (reads_field (Json.reads_write entry.action))) <|
      .cons (readsMember_field rfl rfl (reads_field hargs)) (.nil _), rfl, rfl, rfl, rfl⟩
  | some code =>
    refine ⟨_, .cons (readsMember_field rfl rfl (reads_field (Json.reads_write entry.name))) <|
      .cons (readsMember_field rfl rfl (reads_field (Json.reads_write entry.action))) <|
      .cons (readsMember_field rfl rfl (reads_field (hcode code))) <|
      .cons (readsMember_field rfl rfl (reads_field hargs)) (.nil _), rfl, rfl, ?_, rfl⟩
    simp

theorem reads_entry (entry : Entry) : Reads Reader.entry (Printer.entry entry) entry := by
  obtain ⟨r, hmembers, hname, haction, herrno, hargs⟩ := readsMembers_entry entry
  have hobject := (reads_object hmembers rfl).map fun r =>
    (⟨r.name.getD "", r.action.getD "", (r.errnoRet.getD none).map (·.toUInt16),
      r.args.getD []⟩ : Entry)
  simp only [hname, haction, herrno, hargs, Option.getD_some] at hobject
  exact hobject

/-- The members of a policy. -/
private theorem readsMembers_policy (policy : Policy) :
    Reader.policySchema.ReadsMembers {}
      [member "defaultAction" (write policy.defaultAction),
        member "architectures" (list (policy.architectures.map write)),
        member "syscalls" (list (policy.syscalls.map (orNull Printer.entry)))]
      ⟨policy.defaultAction, policy.architectures, policy.syscalls⟩ := by
  have hnames : ∀ name : String, ReadsElement Json.readString (write name) name :=
    fun name => ⟨Json.reads_write name, '\x22', rfl, by decide⟩
  have harchitectures := reads_list_map hnames policy.architectures
  have hentries := reads_list_map (readsElement_orNull reads_entry fun _ => rfl) policy.syscalls
  refine .cons (readsMember_field rfl rfl (reads_field (Json.reads_write policy.defaultAction))) ?_
  refine .cons (readsMember_field rfl rfl (reads_field harchitectures)) ?_
  exact .cons (readsMember_field rfl rfl (reads_field hentries)) (.nil _)

theorem reads_policy (policy : Policy) : Reads Reader.policy (Printer.policy policy) policy := by
  have hobject := (reads_object (readsMembers_policy policy) rfl).map fun r =>
    (⟨r.defaultAction.getD "", r.architectures.getD [], r.syscalls.getD []⟩ : Policy)
  exact hobject

/-- Reading the JSON text of a policy gives the policy back, whatever strings, numbers and null
parts are in it. -/
theorem decode_toJson (policy : Policy) : decode policy.toJson = .ok policy := by
  have hsymbols : Text.Symbol.ofString policy.toJson = Json.symbols (Printer.policy policy) := by
    rw [toJson, Text.Symbol.ofString, String.toList_ofList]
  have hread : ofJson policy.toJson = .ok policy := by
    rw [ofJson, hsymbols]
    exact (reads_policy policy).document
  rw [decode, hread]
  rfl

end SyscallPolicy.Policy
