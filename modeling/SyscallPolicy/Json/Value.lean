import SyscallPolicy.Json.Ignored
/-! Readers for values of a known type. -/
namespace SyscallPolicy.Json
open Text (Symbol)

/-- The fault of a value of the wrong type, given from its first symbol on. What is not a list or an
object is read before it is refused. -/
def mismatch (wanted : Wanted) (a : Symbol) (s : List Symbol) : Fault :=
  let refuse {α : Type} (found : α → Found) : Except Fault (α × List Symbol) → Fault
    | .error e => e
    | .ok (value, _) => .wrongType (found value) wanted
  let number (negative : Bool) (s : List Symbol) : Fault :=
    refuse Quantity.found do
      let (n, s) ← Numeral.read .endInValue negative s
      return (← Quantity.ofNumeral n, s)
  match a with
  | .char 'n' => refuse (fun _ => .null) (readWord ['u', 'l', 'l'] s)
  | .char 't' => refuse (fun _ => .boolean true) (readWord ['r', 'u', 'e'] s)
  | .char 'f' => refuse (fun _ => .boolean false) (readWord ['a', 'l', 's', 'e'] s)
  | .char '-' => number true s
  | .char '\x22' => refuse .string (StringLiteral.read s)
  | .char '[' => .wrongType .sequence wanted
  | .char '\x7b' => .wrongType .map wanted
  | .char c => if c.isDigit then number false (a :: s) else .expectedValue
  | .stray _ => .expectedValue

def readString : Reader String := fun s =>
  match skipBlanks s with
  | [] => .error .endInValue
  | .char '\x22' :: s => StringLiteral.read s
  | a :: s => .error (mismatch .string a s)

/-- Takes a number for an unsigned integer of `width` bits, of at most 64. -/
def checkUnsigned (width : Nat) : Quantity → Except Fault Nat
  | .natural n =>
    if n.toNat < Nat.pow 2 width then .ok n.toNat else .error (.outOfRange n.toNat (.unsigned width))
  | .negative n => .error (.outOfRange n (.unsigned width))
  | .floating x => .error (.wrongType (.floating x) (.unsigned width))

def readUnsigned (width : Nat) : Reader Nat := fun s =>
  let number (negative : Bool) (s : List Symbol) : Except Fault (Nat × List Symbol) := do
    let (n, s) ← Numeral.read .endInValue negative s
    return (← checkUnsigned width (← Quantity.ofNumeral n), s)
  match skipBlanks s with
  | [] => .error .endInValue
  | .char '-' :: s => number true s
  | .char c :: s =>
    if c.isDigit then number false (.char c :: s)
    else .error (mismatch (.unsigned width) (.char c) s)
  | a :: s => .error (mismatch (.unsigned width) a s)

def readNullable {α : Type} (reader : Reader α) : Reader (Option α) := fun s =>
  match skipBlanks s with
  | .char 'n' :: s => (readWord ['u', 'l', 'l'] s).map fun (_, s) => (none, s)
  | _ => (reader s).map fun (value, s) => (some value, s)

/-- Goes on to the next element of a list, with `none` at the closing bracket, which stays. -/
def nextElement (first : Bool) (s : List Symbol) : Except Fault (Option (List Symbol)) :=
  match skipBlanks s with
  | [] => .error .endInList
  | .char ']' :: _ => .ok none
  | s@(a :: rest) =>
    if first then .ok (some s)
    else if a = .char ',' then
      match skipBlanks rest with
      | [] => .error .endInValue
      | .char ']' :: _ => .error .trailingComma
      | s => .ok (some s)
    else .error .expectedCommaOrBracket

/-- Reads the closing bracket of a list that may have no further element. -/
def endList : Reader Unit := fun s =>
  match skipBlanks s with
  | [] => .error .endInList
  | .char ']' :: s => .ok ((), s)
  | .char ',' :: s =>
    match skipBlanks s with
    | .char ']' :: _ => .error .trailingComma
    | _ => .error .trailingCharacters
  | _ => .error .trailingCharacters

/-- Reads elements up to the closing bracket, at most `limit` of them. -/
def readElements {α : Type} (reader : Reader α) :
    (limit : Nat) → (first : Bool) → (done : List α) → Reader (List α)
  | 0, _, _, _ => .error .endInList
  | limit + 1, first, done, s => do
    match ← nextElement first s with
    | none =>
      let (_, s) ← endList s
      return (done.reverse, s)
    | some s =>
      let (value, s) ← reader s
      readElements reader limit false (value :: done) s

/-- Reads a list. Every element takes a symbol, so the length of the text limits their number. -/
def readList {α : Type} (reader : Reader α) : Reader (List α) := fun s =>
  match skipBlanks s with
  | [] => .error .endInValue
  | .char '[' :: s => readElements reader (s.length + 1) true [] s
  | a :: s => .error (mismatch .sequence a s)

/-- Reads a list, or `null` for the empty one. -/
def readListOrNull {α : Type} (reader : Reader α) : Reader (List α) := fun s =>
  (readNullable (readList reader) s).map fun (list, s) => (list.getD [], s)

end SyscallPolicy.Json
