import Interchange.Text.Digits

/-!
# Binary floating-point numbers as text

A number of the IEEE 754 formats binary32 and binary64, read from its bits, and its shortest
decimal numeral: the one with the fewest digits among those that round to the number, and of these
the nearest. A grid is the set of multiples of a power of ten. `coarsest` walks from coarse grids
to fine ones and stops at the first with a point in the interval of reals that round to the
number; all arithmetic is on natural numbers. `nearest` rounds a natural number to the format.
-/

namespace Interchange

/-- A number of format binary64. -/
inductive Binary64 where
  /-- Not a number. -/
  | nan
  /-- An infinity. -/
  | infinite (negative : Bool)
  /-- The number `mantissa * 2 ^ exponent`, with its sign. -/
  | finite (negative : Bool) (mantissa : Nat) (exponent : Int)
  deriving DecidableEq, Repr

namespace Binary64

/-- The least magnitude that rounds to an infinity. -/
def overflow : Nat := Nat.pow 2 1024 - Nat.pow 2 970

/-- The natural number with a mantissa of 53 bits that is nearest to `n`. A tie goes to the even
mantissa. -/
def nearest (n : Nat) : Nat :=
  let unit := Nat.pow 2 (Nat.log2 n - 52)
  let mantissa := n / unit
  let rest := n % unit
  if unit < 2 * rest ∨ (unit = 2 * rest ∧ mantissa % 2 = 1) then (mantissa + 1) * unit
  else mantissa * unit

/-- The number with the given 64 bits. -/
def ofBits (bits : Nat) : Binary64 :=
  let negative := (bits >>> 63) % 2 == 1
  let exponent : Nat := (bits >>> 52) % 2048
  let fraction := bits % Nat.pow 2 52
  if exponent = 2047 then
    if fraction = 0 then .infinite negative else .nan
  else if exponent = 0 then .finite negative fraction (-1074)
  else .finite negative (Nat.pow 2 52 + fraction) (exponent - 1075)

/-- The number of format binary32 with the given 32 bits, which format binary64 holds exactly. The
mantissa of a number other than zero is brought to 53 bits. -/
def ofBits32 (bits : Nat) : Binary64 :=
  let negative := (bits >>> 31) % 2 == 1
  let exponent : Nat := (bits >>> 23) % 256
  let fraction := bits % Nat.pow 2 23
  if exponent = 255 then
    if fraction = 0 then .infinite negative else .nan
  else if exponent = 0 then
    if fraction = 0 then .finite negative 0 (-1074)
    else
      let shift := 52 - Nat.log2 fraction
      .finite negative (fraction <<< shift) (-149 - shift)
  else .finite negative ((Nat.pow 2 23 + fraction) <<< 29) (exponent - 179)

/-- The reals that round to a number, in quarters of the unit `2 ^ exponent`. -/
structure Interval where
  /-- The number itself. -/
  centre : Nat
  /-- The lower end. -/
  low : Nat
  /-- The upper end. -/
  high : Nat
  /-- Whether the ends belong to it. -/
  closed : Bool
  /-- The unit. -/
  exponent : Int

/-- The interval of a mantissa above zero. Below a power of two the numbers lie twice as close, and
a tie goes to the even mantissa. -/
def Interval.of (mantissa : Nat) (exponent : Int) : Interval where
  centre := 4 * mantissa
  low := if mantissa = Nat.pow 2 52 ∧ exponent ≠ -1074 then 4 * mantissa - 1 else 4 * mantissa - 2
  high := 4 * mantissa + 2
  closed := mantissa % 2 == 0
  exponent := exponent

/-- The factor that brings `x` quarters of the unit and `c` steps of the grid `10 ^ k` to the same
integer scale: the first number multiplies `x`, the second `c`. -/
def Interval.scales (i : Interval) (k : Int) : Nat × Nat :=
  (Nat.pow 2 i.exponent.toNat * Nat.pow 10 (-k).toNat,
    4 * Nat.pow 2 (-i.exponent).toNat * Nat.pow 10 k.toNat)

/-- Whether the point `c * 10 ^ k` lies in the interval. -/
def Interval.holds (i : Interval) (k : Int) (c : Nat) : Bool :=
  let (sx, sc) := i.scales k
  if i.closed then i.low * sx ≤ c * sc && c * sc ≤ i.high * sx
  else i.low * sx < c * sc && c * sc < i.high * sx

/-- The nearest of the two neighbours of the number on the grid `10 ^ k` that lie in the interval.
A tie goes up. -/
def Interval.hit? (i : Interval) (k : Int) : Option Nat :=
  let (sx, sc) := i.scales k
  let below := i.centre * sx / sc
  match i.holds k below, i.holds k (below + 1) with
  | true, true =>
    let distance := i.centre * sx - below * sc
    some (if 2 * distance < sc then below else below + 1)
  | true, false => some below
  | false, true => some (below + 1)
  | false, false => none

/-- The digits and the power of ten of the coarsest grid, from `10 ^ (n - 345)` down, with a point
in the interval. -/
def Interval.coarsest (i : Interval) : (n : Nat) → Nat × Int
  | 0 => (i.centre * (i.scales (-345)).1 / (i.scales (-345)).2, -345)
  | n + 1 =>
    match i.hit? (n + 1 - 345) with
    | some c => (c, n + 1 - 345)
    | none => i.coarsest n

/-- The numeral `c * 10 ^ k` in positional notation, with at least one digit on each side of the
point. -/
def positional (c : Nat) (k : Int) : List Char :=
  let ds := Digits.decimal c
  match k with
  | .ofNat n => ds ++ List.replicate n '0' ++ ['.', '0']
  | .negSucc n =>
    let places := n + 1
    let padded := List.replicate (places + 1 - ds.length) '0' ++ ds
    padded.take (padded.length - places) ++ '.' :: padded.drop (padded.length - places)

/-- The shortest numeral of a number. -/
def text : Binary64 → String
  | .nan => "NaN"
  | .infinite negative => if negative then "-inf" else "inf"
  | .finite negative mantissa exponent =>
    let (c, k) :=
      if mantissa = 0 then (0, (0 : Int)) else (Interval.of mantissa exponent).coarsest 655
    String.ofList ((if negative then ['-'] else []) ++ positional c k)

end Binary64

end Interchange
