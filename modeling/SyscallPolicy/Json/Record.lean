import SyscallPolicy.Json.Value
/-! Records with known fields, written as objects or as lists of the fields in order. -/
namespace SyscallPolicy.Json
open Text (Symbol)

/-- A member of records whose values, as far as read, are in a `σ`. -/
structure Member (σ : Type) where
  name : String
  required : Bool
  isSet : σ → Bool
  read : σ → Reader σ

structure Schema (σ : Type) where
  title : String
  fields : List (Member σ)

/-- Goes on to the name of the next member of an object, past its opening quote, with `none` at the
closing brace, which stays. -/
def nextName (first : Bool) (s : List Symbol) : Except Fault (Option (List Symbol)) :=
  match skipBlanks s with
  | [] => .error .endInObject
  | .char '\x7d' :: _ => .ok none
  | a :: s =>
    if first then
      if a = .char '\x22' then .ok (some s) else .error .keyNotString
    else if a = .char ',' then
      match skipBlanks s with
      | [] => .error .endInValue
      | .char '\x22' :: s => .ok (some s)
      | .char '\x7d' :: _ => .error .trailingComma
      | _ => .error .keyNotString
    else .error .expectedCommaOrBrace

namespace Schema
variable {σ : Type}

/-- Reads one member, from its name on. A member without a field of its name is passed over. -/
def readMember (schema : Schema σ) (record : σ) : Reader σ := fun s => do
  let (name, s) ← StringLiteral.read s
  match schema.fields.find? (·.name = name) with
  | some field =>
    if field.isSet record then throw (.duplicateField name)
    let (_, s) ← readColon s
    field.read record s
  | none =>
    let (_, s) ← readColon s
    let (_, s) ← skipValue s
    return (record, s)

/-- Reads the members up to the closing brace, at most `limit` of them. -/
def readMembers (schema : Schema σ) : (limit : Nat) → (first : Bool) → σ → Reader σ
  | 0, _, _, _ => .error .endInObject
  | limit + 1, first, record, s => do
    match ← nextName first s with
    | none => return (record, (skipBlanks s).tail)
    | some s =>
      let (record, s) ← schema.readMember record s
      readMembers schema limit false record s

def missing? (schema : Schema σ) (record : σ) : Option (Member σ) :=
  schema.fields.find? fun field => field.required ∧ ¬field.isSet record

def readObject (schema : Schema σ) (record : σ) : Reader σ := fun s => do
  let (record, s) ← schema.readMembers (s.length + 1) true record s
  match schema.missing? record with
  | some field => throw (.missingField field.name)
  | none => return (record, s)

/-- Reads the values of `fields` from a list, of which the first `index` fields are read. Required
fields must be there. -/
def readFields (schema : Schema σ) : (fields : List (Member σ)) → (index : Nat) → σ → Reader σ
  | [], _, record, s => .ok (record, s)
  | field :: fields, index, record, s => do
    match ← nextElement (index = 0) s with
    | some s =>
      let (record, s) ← field.read record s
      readFields schema fields (index + 1) record s
    | none =>
      if field.required then throw (.tooFewElements index schema.title schema.fields.length)
      readFields schema fields (index + 1) record s

/-- Reads a record in either form, starting from `record`, which has no field set. -/
def read (schema : Schema σ) (record : σ) : Reader σ := fun s =>
  match skipBlanks s with
  | [] => .error .endInValue
  | .char '\x7b' :: s => schema.readObject record s
  | .char '[' :: s => do
    let (record, s) ← schema.readFields schema.fields 0 record s
    let (_, s) ← endList s
    return (record, s)
  | a :: s => .error (mismatch (.record schema.title) a s)

end Schema

end SyscallPolicy.Json
