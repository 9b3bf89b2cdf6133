import Atelier.Decimal.Literal

/-!
Floating-point numbers as exact fractions, and their decimal texts: with a fixed number of places, or
with the fewest digits that still tell the number from its neighbours.
-/

namespace Atelier.Decimal

/-- What the bits of a number stand for. A finite number is its mantissa times a power of two. -/
inductive Reading
  | undefined
  | infinite (negative : Bool)
  | finite (negative : Bool) (mantissa : Nat) (exponent : Int)
deriving DecidableEq

/-- Reads the bits of a double-precision number. -/
def Reading.ofBits (bits : UInt64) : Reading :=
  let n := bits.toNat
  let negative := n ≥ 9223372036854775808
  let biased := n / 4503599627370496 % 2048
  let fraction := n % 4503599627370496
  if biased = 2047 then
    if fraction = 0 then .infinite negative else .undefined
  else if biased = 0 then
    .finite negative fraction (-1074)
  else
    .finite negative (fraction + 4503599627370496) (biased - 1075)

def Reading.ofFloat (x : Float) : Reading :=
  .ofBits x.toBits

/-- The quotient rounded to the nearest number, of two the even one. -/
def divEven (n d : Nat) : Nat :=
  let q := n / d
  let r := n % d
  if 2 * r < d then q
  else if 2 * r > d then q + 1
  else q + q % 2

/-- The last `places` digits of `n` after a point, at least one digit before it. -/
def pointed (places n : Nat) : List Char :=
  let ds := padded (places + 1) n
  if places = 0 then
    ds
  else
    ds.take (ds.length - places) ++ '.' :: ds.drop (ds.length - places)

/-- The text of a number with a given number of places. -/
def fixedReading (places : Nat) : Reading → List Char
  | .undefined => ['N', 'a', 'N']
  | .infinite negative => Literal.sign negative ++ ['i', 'n', 'f']
  | .finite negative m e =>
    let scaled := m * ten places
    let n := if 0 ≤ e then scaled <<< e.toNat else divEven scaled (1 <<< (-e).toNat)
    Literal.sign negative ++ pointed places n

def fixed (places : Nat) (x : Float) : String :=
  String.ofList (fixedReading places (.ofFloat x))

/-- A positive number as a fraction, with the ends of the interval of numbers that round to it, all
three over one denominator. -/
structure Interval where
  low : Nat
  value : Nat
  high : Nat
  denominator : Nat
  closed : Bool

/-- The interval of a mantissa and an exponent. Below a power of two the numbers lie twice as dense. -/
def Interval.of (m : Nat) (e : Int) : Interval :=
  let up := 1 <<< e.toNat
  let down := 1 <<< (-e).toNat
  let narrow := m == 4503599627370496 && e > -1074
  ⟨(if narrow then 4 * m - 1 else 4 * m - 2) * up, 4 * m * up, (4 * m + 2) * up, 4 * down,
    m % 2 == 0⟩

def Interval.mem (i : Interval) (n d : Nat) : Bool :=
  let v := n * i.denominator
  let low := i.low * d
  let high := i.high * d
  if i.closed then low ≤ v && v ≤ high else low < v && v < high

/-- The power of ten just above a fraction: the least `k` with `n / d < 10 ^ k`. -/
def magnitude (n d : Nat) : Int :=
  let below (k : Int) : Bool := n * ten (-k).toNat < d * ten k.toNat
  let guess := (((n.log2 : Int) - d.log2) * 30103).fdiv 100000
  (([-1, 0, 1, 2, 3] : List Int).map (guess + ·)).find? below |>.getD guess

/-- The number nearest to the interval's value among those with `count` digits, as its digits and the
power of ten of the last of them, if it lies in the interval. -/
def Interval.nearest? (i : Interval) (top : Int) (count : Nat) : Option (Nat × Int) :=
  let last := top - count
  let up := ten last.toNat
  let down := ten (-last).toNat
  let n := i.value * down
  let d := i.denominator * up
  let q := n / d
  let ok (k : Nat) : Bool := k != 0 && i.mem (k * up) down
  let order := if divEven n d = q then [q, q + 1] else [q + 1, q]
  (order.find? ok).map fun k => (k, last)

def stripZeros : Nat → Nat → Int → Nat × Int
  | 0, n, k => (n, k)
  | fuel + 1, n, k => if n % 10 = 0 then stripZeros fuel (n / 10) (k + 1) else (n, k)

/-- The fewest digits that lie in the interval, and the power of ten of the last of them. -/
def Interval.shortest (i : Interval) : Nat × Int :=
  let top := magnitude i.value i.denominator
  let (n, k) := ((List.range 17).findSome? fun j => i.nearest? top (j + 1)).getD (0, 0)
  stripZeros 17 n k

/-- Where a shortest text stops being positional: the least and the greatest power of ten of the
first digit. -/
structure PositionalRange where
  least : Int
  greatest : Int

/-- The literal with the digits of `n`, the last one at the power of ten `k`. A positional literal has
at least one digit after the point, one with an exponent has a point only if digits follow it. -/
def scientific (range : PositionalRange) (negative : Bool) (n : Nat) (k : Int) : Literal :=
  let ds := digits n
  let first := k + ds.length - 1
  if range.least ≤ first ∧ first ≤ range.greatest then
    if 0 ≤ k then
      ⟨negative, ds ++ List.replicate k.toNat '0', some ['0'], none⟩
    else
      let places := (-k).toNat
      let ds := padded (places + 1) n
      ⟨negative, ds.take (ds.length - places), some (ds.drop (ds.length - places)), none⟩
  else
    ⟨negative, ds.take 1, if ds.length = 1 then none else some (ds.drop 1),
      some (first < 0, digits first.natAbs)⟩

/-- The shortest literal of a finite number; other numbers have none. -/
def shortestReading? (range : PositionalRange) : Reading → Option Literal
  | .finite negative 0 _ => some ⟨negative, ['0'], some ['0'], none⟩
  | .finite negative m e =>
    let (n, k) := (Interval.of m e).shortest
    some (scientific range negative n k)
  | _ => none

def shortest? (range : PositionalRange) (x : Float) : Option Literal :=
  shortestReading? range (.ofFloat x)

end Atelier.Decimal
