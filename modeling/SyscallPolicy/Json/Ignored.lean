import SyscallPolicy.Json.Numeral
import SyscallPolicy.Json.StringLiteral
/-! Values that a reader passes over. They nest to any depth; strings and numbers in them are only
checked for their form. -/
namespace SyscallPolicy.Json
open Text (Symbol)

namespace Ignored

/-- A list or an object whose end is still to come. -/
inductive Container where
  | list
  | object
  deriving DecidableEq, Repr

inductive Expected where
  | value
  | firstOrEnd
  | commaOrEnd
  | name
  | colon
  deriving DecidableEq, Repr

/-- A value by its first symbol: how many symbols of it follow, all of them unless it is a list or
an object. -/
def begin (a : Symbol) (s : List Symbol) : Except Fault (Option Container × Nat) :=
  match a with
  | .char 'n' => (readWord ['u', 'l', 'l'] s).map fun _ => (none, 3)
  | .char 't' => (readWord ['r', 'u', 'e'] s).map fun _ => (none, 3)
  | .char 'f' => (readWord ['a', 'l', 's', 'e'] s).map fun _ => (none, 4)
  | .char '-' => (Numeral.read .invalidNumber true s).map fun (n, _) => (none, n.width)
  | .char '\x22' => (StringLiteral.measure s).map fun n => (none, n)
  | .char '[' => .ok (some .list, 0)
  | .char '\x7b' => .ok (some .object, 0)
  | .char c =>
    if c.isDigit then
      (Numeral.read .invalidNumber false (.char c :: s)).map fun (n, _) => (none, n.width - 1)
    else .error .expectedValue
  | .stray _ => .error .expectedValue

def Container.atEnd : Container → Fault
  | list => .endInList
  | object => .endInObject

def Container.closing : Container → Char
  | list => ']'
  | object => '\x7d'

def Container.afterComma : Container → Expected
  | list => .value
  | object => .name

def Container.commaFault : Container → Fault
  | list => .expectedCommaOrBracket
  | object => .expectedCommaOrBrace

/-- What one symbol changes: the new state, the containers still open, and how many symbols after
this one are settled with it. -/
def step (expected : Expected) (inside : List Container) (a : Symbol) (s : List Symbol) :
    Except Fault (Expected × List Container × Nat) :=
  let value : Except Fault (Expected × List Container × Nat) := do
    match ← begin a s with
    | (some c, n) => .ok (.firstOrEnd, c :: inside, n)
    | (none, n) => .ok (.commaOrEnd, inside, n)
  let name : Except Fault (Expected × List Container × Nat) := do
    if a = .char '\x22' then return (.colon, inside, ← StringLiteral.measure s)
    else throw .keyNotString
  match expected, inside with
  | .value, _ => value
  | .name, _ => name
  | .colon, _ => if a = .char ':' then .ok (.value, inside, 0) else .error .expectedColon
  | .firstOrEnd, c :: outside =>
    if a = .char c.closing then .ok (.commaOrEnd, outside, 0)
    else if c = .list then value else name
  | .commaOrEnd, c :: outside =>
    if a = .char ',' then .ok (c.afterComma, inside, 0)
    else if a = .char c.closing then .ok (.commaOrEnd, outside, 0)
    else .error c.commaFault
  | .firstOrEnd, [] | .commaOrEnd, [] => .error .expectedValue

/-- The fault of a text that ends where something is expected. -/
def atEnd : Expected → List Container → Fault
  | .firstOrEnd, c :: _ => c.atEnd
  | .commaOrEnd, c :: _ => c.atEnd
  | .name, _ => .endInObject
  | .colon, _ => .endInObject
  | _, _ => .endInValue

/-- Passes over the rest of a value, of which the first `taken` symbols are settled. -/
def rest : (taken : Nat) → Expected → List Container → List Symbol → Except Fault (List Symbol)
  | 0, .commaOrEnd, [], s => .ok s
  | _, expected, inside, [] => .error (atEnd expected inside)
  | taken + 1, expected, inside, _ :: s => rest taken expected inside s
  | 0, expected, inside, a :: s =>
    if isBlank a then rest 0 expected inside s
    else
      match step expected inside a s with
      | .error e => .error e
      | .ok (expected, inside, taken) => rest taken expected inside s

end Ignored

def skipValue : Reader Unit := fun s => (Ignored.rest 0 .value [] s).map fun s => ((), s)

end SyscallPolicy.Json
