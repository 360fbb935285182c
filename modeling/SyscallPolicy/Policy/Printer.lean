import SyscallPolicy.Policy
import SyscallPolicy.Json.StringLiteral
/-! Policies as compact JSON. -/
namespace SyscallPolicy
open Json (StringLiteral.write)

namespace Policy.Printer

def member (name : String) (value : List Char) : List Char :=
  StringLiteral.write name ++ ':' :: value

def separated : List (List Char) → List Char
  | [] => []
  | [item] => item
  | item :: items => item ++ ',' :: separated items

def object (members : List (List Char)) : List Char := '\x7b' :: separated members ++ ['\x7d']

def list (items : List (List Char)) : List Char := '[' :: separated items ++ [']']

def natural (n : Nat) : List Char := Nat.toDigits 10 n

def orNull {α : Type} (write : α → List Char) : Option α → List Char
  | none => ['n', 'u', 'l', 'l']
  | some value => write value

def argCheck (check : ArgCheck) : List Char :=
  object [member "index" (natural check.index.toNat), member "value" (natural check.value.toNat),
    member "valueTwo" (natural check.valueTwo.toNat), member "op" (StringLiteral.write check.op)]

/-- The code has no member when it is absent. -/
def entry (entry : Entry) : List Char :=
  object ([member "name" (StringLiteral.write entry.name),
      member "action" (StringLiteral.write entry.action)] ++
    (entry.errnoRet.toList.map fun code => member "errnoRet" (natural code.toNat)) ++
    [member "args" (list (entry.args.map (orNull argCheck)))])

def policy (policy : Policy) : List Char :=
  object [member "defaultAction" (StringLiteral.write policy.defaultAction),
    member "architectures" (list (policy.architectures.map StringLiteral.write)),
    member "syscalls" (list (policy.syscalls.map (orNull entry)))]

end Policy.Printer

/-- The JSON text of a policy, without blanks. -/
def Policy.toJson (policy : Policy) : String := .ofList (Policy.Printer.policy policy)

end SyscallPolicy
