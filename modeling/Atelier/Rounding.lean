/-!
From floating-point numbers to integers. Results that leave the target range stop at its ends, and
an undefined number counts as zero.
-/

namespace Atelier

-- An undefined number passes through the comparisons unchanged.
def clampFloat (lo hi x : Float) : Float :=
  if x < lo then lo else if x > hi then hi else x

/-- The integer part of a number, within the signed words of 64 bits. -/
def truncate64 (x : Float) : Int :=
  if x < 0.0 then
    -(min (-x).toUInt64.toNat 9223372036854775808 : Nat)
  else
    (min x.toUInt64.toNat 9223372036854775807 : Nat)

/-- The integer part of a number, within the signed words of 32 bits. -/
def truncate32 (x : Float) : Int :=
  max (-2147483648) (min 2147483647 (truncate64 x))

/-- The nearest natural number, of two the upper one, within the unsigned words of 64 bits. -/
def roundNat (x : Float) : Nat :=
  let n := x.toUInt64
  if x - n.toFloat ≥ 0.5 then min (n.toNat + 1) 18446744073709551615 else n.toNat

theorem truncate32_le (x : Float) : truncate32 x ≤ 2147483647 := by
  unfold truncate32
  omega

end Atelier
