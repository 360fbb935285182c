import SyscallPolicy.Json.Reader
/-! JSON numbers: their syntax, and the value that a numeral stands for. -/
namespace SyscallPolicy.Json
open Text (Symbol)
open Decimal (Binary64)

structure Exponent where
  sign : Option Char
  digits : List Char
  deriving DecidableEq, Repr

def Exponent.value (e : Exponent) : Int :=
  let n : Int := e.digits.foldl (fun n d => n * 10 + (d.toNat - '0'.toNat)) (0 : Nat)
  if e.sign = some '-' then -n else n

structure Numeral where
  negative : Bool
  whole : List Char
  fraction : Option (List Char)
  exponent : Option Exponent
  deriving DecidableEq, Repr

namespace Numeral

def splitDigits : List Symbol → List Char × List Symbol
  | .char c :: s =>
    if c.isDigit then
      let (ds, rest) := splitDigits s
      (c :: ds, rest)
    else ([], .char c :: s)
  | s => ([], s)

/-- Digits, of which there must be one; `atEnd` is the fault of a text that ends before it. -/
def readDigits (atEnd : Fault) : Reader (List Char) := fun s =>
  match splitDigits s with
  | ([], []) => .error atEnd
  | ([], _ :: _) => .error .invalidNumber
  | found => .ok found

/-- The digits before the point. A zero stands alone. -/
def readWhole (atEnd : Fault) : Reader (List Char) := fun s => do
  let (ds, rest) ← readDigits atEnd s
  if ds.head? = some '0' ∧ 1 < ds.length then .error .invalidNumber else .ok (ds, rest)

def readFraction (atEnd : Fault) : Reader (Option (List Char))
  | .char '.' :: s => do
    let (ds, rest) ← readDigits atEnd s
    .ok (some ds, rest)
  | s => .ok (none, s)

def readSign : List Symbol → Option Char × List Symbol
  | .char '+' :: s => (some '+', s)
  | .char '-' :: s => (some '-', s)
  | s => (none, s)

def readPower (atEnd : Fault) : Reader (Option Exponent) := fun s => do
  let (sign, s) := readSign s
  let (ds, rest) ← readDigits atEnd s
  .ok (some ⟨sign, ds⟩, rest)

def readExponent (atEnd : Fault) : Reader (Option Exponent)
  | .char 'e' :: s => readPower atEnd s
  | .char 'E' :: s => readPower atEnd s
  | s => .ok (none, s)

/-- Reads a numeral that has begun with a minus sign, or else with the digit in front of `s`. -/
def read (atEnd : Fault) (negative : Bool) : Reader Numeral := fun s => do
  let (whole, s) ← readWhole atEnd s
  let (fraction, s) ← readFraction atEnd s
  let (exponent, s) ← readExponent atEnd s
  .ok (⟨negative, whole, fraction, exponent⟩, s)

def width (n : Numeral) : Nat :=
  n.whole.length + n.fraction.elim 0 (1 + ·.length) +
    n.exponent.elim 0 fun e => 1 + e.sign.elim 0 (fun _ => 1) + e.digits.length

end Numeral

/-- The value of a numeral: an integer of 64 bits where its form and size allow one. -/
inductive Quantity where
  | natural (n : UInt64)
  | negative (n : Int)
  | floating (x : Binary64)
  deriving DecidableEq, Repr

namespace Quantity

def found : Quantity → Found
  | natural n => .integer n.toNat
  | negative n => .integer n
  | floating x => .floating x

/-- Appends digits to `n` as long as the result fits in 64 bits. Gives the digits that are left,
the first that does not fit among them. -/
def absorb (n : Nat) : List Char → Nat × List Char
  | [] => (n, [])
  | d :: ds =>
    let next := n * 10 + (d.toNat - '0'.toNat)
    if next < UInt64.size then absorb next ds else (n, d :: ds)

def powerOfTen (e : Nat) : Float := Float.ofScientific 1 false e

/-- Divides by a power of ten, in steps that each have a double for their divisor. -/
def divided (f : Float) (e : Nat) : Float :=
  if e ≤ 308 then f / powerOfTen e
  else if f == 0 then f
  else divided (f / powerOfTen 308) (e - 308)
termination_by e

/-- The double for `significand * 10 ^ e`, computed in doubles; none if it is too large. -/
def scale? (significand : Nat) (e : Int) : Option Float :=
  let f := significand.toUInt64.toFloat
  if e < 0 then some (divided f e.natAbs)
  else if e ≤ 308 then
    let product := f * powerOfTen e.toNat
    if product.isInf then none else some product
  else if f == 0 then some f
  else none

def floatingOf (n : Numeral) (significand : Nat) (e : Int) : Except Fault Quantity :=
  match scale? significand (e + n.exponent.elim 0 Exponent.value) with
  | none => .error .numberOutOfRange
  | some f => .ok (.floating (.ofFloat (if n.negative then -f else f)))

/-- The value of a numeral. Digits beyond the first 64 bits' worth only count for the magnitude. A
negative zero and an integer below the least signed one become doubles. -/
def ofNumeral (n : Numeral) : Except Fault Quantity :=
  let (significand, dropped) := absorb 0 n.whole
  match n.fraction with
  | some ds =>
    let (significand, unread) := absorb significand ds
    floatingOf n significand (dropped.length - (ds.length - unread.length : Nat))
  | none =>
    if n.exponent.isSome ∨ ¬dropped.isEmpty then floatingOf n significand dropped.length
    else if ¬n.negative then .ok (.natural significand.toUInt64)
    else if significand = 0 ∨ 0x8000000000000000 < significand then floatingOf n significand 0
    else .ok (.negative (-significand))

end Quantity

end SyscallPolicy.Json
