import SyscallPolicy.Decimal.Shortest
/-! Double-precision numbers by their bits, and their text. -/
namespace SyscallPolicy.Decimal

structure Binary64 where
  bits : UInt64
  deriving DecidableEq, Repr

namespace Binary64

def ofFloat (f : Float) : Binary64 := ⟨f.toBits⟩

def negative (x : Binary64) : Bool := x.bits >>> 63 = 1

def biasedExponent (x : Binary64) : Nat := ((x.bits >>> 52) &&& 0x7ff).toNat

def fraction (x : Binary64) : Nat := (x.bits &&& 0xfffffffffffff).toNat

/-- The magnitude of a finite number other than zero, with what rounds to it. -/
def rounding? (x : Binary64) : Option Rounding :=
  if x.biasedExponent = 0 then
    if x.fraction = 0 then none else some (.ofSignificand x.fraction (-1074) false)
  else
    some (.ofSignificand (0x10000000000000 + x.fraction) (x.biasedExponent - 1075)
      (x.fraction = 0 ∧ x.biasedExponent ≠ 1))

/-- The powers of ten that are written without an exponent. -/
structure Layout where
  least : Int
  greatest : Int

/-- Numbers of at least a hundred-thousandth and below ten to the sixteenth have no exponent. -/
def layout : Layout := ⟨-5, 15⟩

/-- An exponent with its sign, which is never left out. -/
def exponentText (e : Int) : List Char :=
  (if e < 0 then '-' else '+') :: Nat.toDigits 10 e.natAbs

/-- The text of a positive decimal. One without an exponent has a point, with a digit on both sides
of it. -/
def Layout.write (l : Layout) (s : Scaled) : List Char :=
  let digits := Nat.toDigits 10 s.digits
  let e : Int := s.exponent + digits.length - 1
  if l.least ≤ e ∧ e ≤ l.greatest then
    if e < 0 then '0' :: '.' :: List.replicate (-e - 1).toNat '0' ++ digits
    else
      let whole := digits.take (e.toNat + 1)
      let rest := digits.drop (e.toNat + 1)
      whole ++ List.replicate (e.toNat + 1 - whole.length) '0' ++
        '.' :: (if rest.isEmpty then ['0'] else rest)
  else
    match digits with
    | [] => []
    | [d] => d :: 'e' :: exponentText e
    | d :: rest => d :: '.' :: rest ++ 'e' :: exponentText e

/-- The text of a finite number: the fewest digits that read back. -/
def text (x : Binary64) : String :=
  .ofList ((if x.negative then ['-'] else []) ++
    match x.rounding? with
    | none => ['0', '.', '0']
    | some r => layout.write r.shortest)

end Binary64

end SyscallPolicy.Decimal
