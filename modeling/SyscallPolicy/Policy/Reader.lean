import SyscallPolicy.Policy
import SyscallPolicy.Json.Record
/-! Policies read from JSON. -/
namespace SyscallPolicy
open Json (Member Reader Schema)
open Text (Symbol)

namespace Policy.Reader

/-- A field that `get` finds and `set` stores. -/
def field {σ α : Type} (name : String) (required : Bool) (get : σ → Option α)
    (set : σ → α → σ) (reader : Reader α) : Member σ where
  name := name
  required := required
  isSet record := (get record).isSome
  read record s := (reader s).map fun (value, s) => (set record value, s)

/-- The fields of a check as far as they have been read. -/
structure ArgCheckFields where
  index : Option Nat := none
  value : Option Nat := none
  valueTwo : Option Nat := none
  op : Option String := none

def argCheckSchema : Schema ArgCheckFields where
  title := "ArgCondition"
  fields := [
    field "index" true (·.index) (fun r v => { r with index := v }) (Json.readUnsigned 32),
    field "value" false (·.value) (fun r v => { r with value := v }) (Json.readUnsigned 64),
    field "valueTwo" false (·.valueTwo) (fun r v => { r with valueTwo := v })
      (Json.readUnsigned 64),
    field "op" true (·.op) (fun r v => { r with op := v }) Json.readString]

def argCheck : Reader ArgCheck := fun s =>
  (argCheckSchema.read {} s).map fun (r, s) =>
    (⟨(r.index.getD 0).toUInt32, (r.value.getD 0).toUInt64, (r.valueTwo.getD 0).toUInt64,
      r.op.getD ""⟩, s)

structure EntryFields where
  name : Option String := none
  action : Option String := none
  errnoRet : Option (Option Nat) := none
  args : Option (List (Option ArgCheck)) := none

def entrySchema : Schema EntryFields where
  title := "SyscallRule"
  fields := [
    field "name" false (·.name) (fun r v => { r with name := v }) Json.readString,
    field "action" false (·.action) (fun r v => { r with action := v }) Json.readString,
    field "errnoRet" false (·.errnoRet) (fun r v => { r with errnoRet := some v })
      (Json.readNullable (Json.readUnsigned 16)),
    field "args" false (·.args) (fun r v => { r with args := v })
      (Json.readListOrNull (Json.readNullable argCheck))]

def entry : Reader Entry := fun s =>
  (entrySchema.read {} s).map fun (r, s) =>
    (⟨r.name.getD "", r.action.getD "", (r.errnoRet.getD none).map (·.toUInt16), r.args.getD []⟩, s)

structure PolicyFields where
  defaultAction : Option String := none
  architectures : Option (List String) := none
  syscalls : Option (List (Option Entry)) := none

def policySchema : Schema PolicyFields where
  title := "Policy"
  fields := [
    field "defaultAction" true (·.defaultAction) (fun r v => { r with defaultAction := v })
      Json.readString,
    field "architectures" false (·.architectures) (fun r v => { r with architectures := v })
      (Json.readListOrNull Json.readString),
    field "syscalls" false (·.syscalls) (fun r v => { r with syscalls := v })
      (Json.readListOrNull (Json.readNullable entry))]

def policy : Reader Policy := fun s =>
  (policySchema.read {} s).map fun (r, s) =>
    (⟨r.defaultAction.getD "", r.architectures.getD [], r.syscalls.getD []⟩, s)

end Policy.Reader

def Policy.ofSymbols (s : List Symbol) : Except Json.Fault Policy := Reader.policy.document s

def Policy.ofJson (text : String) : Except Json.Fault Policy := ofSymbols (Symbol.ofString text)

def Policy.ofBytes (bytes : List UInt8) : Except Json.Fault Policy :=
  ofSymbols (Symbol.ofBytes bytes)

end SyscallPolicy
