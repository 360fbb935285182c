/-! The shortest decimal that reads back as a given binary floating-point number. -/
namespace SyscallPolicy.Decimal

/-- The positive number `digits * 10 ^ exponent`. -/
structure Scaled where
  digits : Nat
  exponent : Int
  deriving DecidableEq, Repr

/-- A positive number `4 * m * 2 ^ e` together with the reals that round to it, from `low * 2 ^ e`
to `high * 2 ^ e`, the ends included if `closed`. -/
structure Rounding where
  low : Nat
  value : Nat
  high : Nat
  exponent : Int
  closed : Bool
  deriving DecidableEq, Repr

namespace Rounding

/-- The number with significand `m` and exponent `q`. Below a power of two that is not the least
exponent's, the gap to the next number is half as wide. -/
def ofSignificand (m : Nat) (q : Int) (narrow : Bool) : Rounding :=
  ⟨4 * m - (if narrow then 1 else 2), 4 * m, 4 * m + 2, q - 2, m % 2 = 0⟩

/-- Compares `d * 10 ^ k` with `x * 2 ^ e` after both are multiplied up to natural numbers. -/
def scaled (r : Rounding) (k : Int) (x : Nat) : Nat :=
  x * Nat.pow 2 r.exponent.toNat * Nat.pow 10 (-k).toNat

def unit (r : Rounding) (k : Int) : Nat :=
  Nat.pow 2 (-r.exponent).toNat * Nat.pow 10 k.toNat

def covers (r : Rounding) (k : Int) (d : Nat) : Bool :=
  let point := d * r.unit k
  if r.closed then r.scaled k r.low ≤ point ∧ point ≤ r.scaled k r.high
  else r.scaled k r.low < point ∧ point < r.scaled k r.high

/-- The multiple of `10 ^ k` next to the number, if one rounds to it. Of two that do, the nearer
one counts, and at equal distance the even one. -/
def onGrid? (r : Rounding) (k : Int) : Option Nat :=
  let v := r.scaled k r.value
  let u := r.unit k
  let d := v / u
  let below := v - d * u
  let above := (d + 1) * u - v
  if r.covers k d then
    if r.covers k (d + 1) ∧ (above < below ∨ above = below ∧ d % 2 = 1) then some (d + 1)
    else some d
  else if r.covers k (d + 1) then some (d + 1)
  else none

/-- Tries ever finer grids, from `10 ^ k` on. -/
def search (r : Rounding) : Nat → Int → Scaled
  | 0, k => ⟨r.scaled k r.value / r.unit k, k⟩
  | steps + 1, k =>
    match r.onGrid? k with
    | some d => ⟨d, k⟩
    | none => search r steps (k - 1)

/-- The decimal with the fewest digits that rounds to the number, the nearest one of them. The
grids run from the greatest to the least power of ten that a double can need. -/
def shortest (r : Rounding) : Scaled := r.search 640 309

end Rounding

end SyscallPolicy.Decimal
