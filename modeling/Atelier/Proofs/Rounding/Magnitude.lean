import Atelier.Proofs.Rounding.Quotient

/-!
How large the results of arithmetic on floating-point numbers can be, judged by their exponents alone.
-/

namespace Atelier.Binary

open Float.Model UnpackedFloat

-- Numbers of one sign with an exponent up to a given one, and zero of that sign.
inductive IsUpTo (s : Sign) (k : Int) : UnpackedFloat → Prop
  | zero : IsUpTo s k (.zero s)
  | finite {m e} (hp : 0 < m) : m < 2 ^ 53 → e ≤ k → IsUpTo s k (.finite s m e hp)

variable {s s₁ s₂ : Sign} {m b : Nat} {e j k l : Int} {f g : UnpackedFloat}

theorem IsUpTo.mono (h : IsUpTo s k f) (hl : k ≤ l) : IsUpTo s l f := by
  cases h
  case zero => exact .zero
  case finite hp hm he => exact .finite hp hm (Int.le_trans he hl)

/-! Packing. Whatever is packed, its exponent is all that decides. -/

theorem isUpTo_unpack_pack_zero : IsUpTo s k (Float.Model.pack (.zero s)).unpack := by
  cases s <;> exact .zero

theorem isUpTo_packComponents (hb : b < 2047) (hk : -1074 ≤ k) (hk' : (b : Int) - 1075 ≤ k) (v : BitVec 52) :
    IsUpTo s k (UnpackedFloat.unpack Format.binary64 (packComponents Format.binary64 s (.ofNat 11 b) v)) := by
  have hn : (BitVec.ofNat 11 b).toNat = b := Nat.mod_eq_of_lt (by omega)
  have h₁ : BitVec.ofNat 11 b ≠ -1#11 := fun he => by
    have he : (BitVec.ofNat 11 b).toNat = 2047 := congrArg BitVec.toNat he
    omega
  have hx := @unpackExponent_packComponents .binary64 s (.ofNat 11 b) v
  have hv := @unpackMantissa_packComponents .binary64 s (.ofNat 11 b) v
  have hs := (congrArg Sign.ofBitVec (unpackSign_packComponents (f := .binary64) s (.ofNat 11 b) v)).trans
    (ofBitVec_toBitVec s)
  rw [← hx] at h₁
  unfold UnpackedFloat.unpack
  dsimp only
  rw [if_neg h₁, hs]
  generalize packComponents Format.binary64 s (.ofNat 11 b) v = w at hx
  by_cases hz : UnpackedFloat.unpackExponent w = 0#11
  case pos =>
    rw [if_pos hz, hz]
    by_cases hm : UnpackedFloat.unpackMantissa w = 0#52
    case pos =>
      rw [dif_pos hm]
      exact .zero
    case neg =>
      rw [dif_neg hm]
      exact .finite _ (Nat.lt_trans (BitVec.isLt _) (by decide)) hk
  case neg =>
    rw [if_neg hz, hx, hn]
    exact .finite _ (isFull_append _).right hk'

theorem isUpTo_unpack_pack (hp : 0 < m) (he : e ≤ k) (hk : -1074 ≤ k) (hk' : k ≤ 971) :
    IsUpTo s k (Float.Model.pack (.finite s m e hp)).unpack := by
  have hb : (e + Format.binary64.exponentBias + (52 : Nat)).toNat = (e + 1075).toNat := by
    show (e + (1023 : Nat) + (52 : Nat)).toNat = _
    omega
  have h₁ : ¬2 ^ 11 ≤ (e + 1075).toNat + 1 := by omega
  show IsUpTo s k (UnpackedFloat.unpack Format.binary64 (UnpackedFloat.pack Format.binary64 _))
  unfold UnpackedFloat.pack
  dsimp only
  rw [hb, if_neg h₁]
  split
  case isTrue => exact isUpTo_packComponents (by omega) hk (by omega) _
  case isFalse => exact isUpTo_packComponents (b := 0) (by decide) hk (by omega) _

/-! Rounding. If a significand has too many bits, then they are added to the exponent, and one more if
rounding needs a further bit. -/

theorem shiftToTargetExponent_bounds (hm : m < 2 ^ (53 + b)) (e : Int) (a : Accuracy) :
    (shiftToTargetExponent Format.binary64 m e a).1.mantissa < 2 ^ 53 ∧
    -1074 ≤ (shiftToTargetExponent Format.binary64 m e a).2 ∧
    (shiftToTargetExponent Format.binary64 m e a).2 ≤ max (e + b) (-1074) := by
  have hl := log2_lt_of_lt hm (by omega)
  unfold shiftToTargetExponent shiftToExponent
  simp only [mantissa_shiftRight, mantissa_ofMantissaAndAccuracy, targetExponent_eq_max]
  refine ⟨?mantissa, by omega, by omega⟩
  case mantissa =>
    rw [Nat.div_lt_iff_lt_mul (Nat.two_pow_pos _), ← Nat.pow_add]
    exact Nat.lt_of_lt_of_le Nat.lt_log2_self (Nat.pow_le_pow_right (by decide) (by omega))

theorem roundWithAccuracy_cases (hm : m < 2 ^ (53 + b)) (hk : e + b + 1 ≤ k) (hk' : -1073 ≤ k) (a : Accuracy) :
    roundWithAccuracy Format.binary64 s m e a = .zero s ∨
      ∃ m' e' hp, e' ≤ k ∧ roundWithAccuracy Format.binary64 s m e a = .finite s m' e' hp := by
  have ⟨hm, hl, hu⟩ := shiftToTargetExponent_bounds hm e a
  rcases hr : shiftToTargetExponent Format.binary64 m e a with ⟨r, e'⟩
  rw [hr] at hm hl hu
  dsimp only at hm hl hu
  have hm' : r.roundedMantissa < 2 ^ (53 + 1) := by
    have := roundedMantissa_le r
    omega
  have ⟨_, _, hu'⟩ := shiftToTargetExponent_bounds hm' e' .exact
  rw [roundWithAccuracy_eq hr]
  dsimp only
  by_cases hn : (shiftToTargetExponent Format.binary64 r.roundedMantissa e' .exact).1.mantissa = 0
  case pos => exact .inl (dif_pos hn)
  case neg => exact .inr ⟨_, _, Nat.pos_of_ne_zero hn, by omega, dif_neg hn⟩

theorem isUpTo_roundWithAccuracy (hm : m < 2 ^ (53 + b)) (hk : e + b + 1 ≤ k) (hl : -1073 ≤ k) (hu : k ≤ 971)
    (a : Accuracy) : IsUpTo s k (Float.Model.pack (roundWithAccuracy Format.binary64 s m e a)).unpack := by
  obtain h | ⟨m', e', hp, he, h⟩ := roundWithAccuracy_cases (s := s) hm hk hl a
  case inl =>
    rw [h]
    exact isUpTo_unpack_pack_zero
  case inr =>
    rw [h]
    exact isUpTo_unpack_pack hp he (by omega) hu

theorem mul_two_pow_lt {i n : Nat} (hm : m < 2 ^ n) (h : n + i ≤ b) : m * 2 ^ i < 2 ^ b := by
  calc
    m * 2 ^ i < 2 ^ n * 2 ^ i := Nat.mul_lt_mul_of_pos_right hm (Nat.two_pow_pos i)
    _ = 2 ^ (n + i) := (Nat.pow_add ..).symm
    _ ≤ 2 ^ b := Nat.pow_le_pow_right (by decide) h

theorem isUpTo_round (hm : m < 2 ^ (53 + b)) (hk : e + b + 1 ≤ k) (hl : -1073 ≤ k) (hu : k ≤ 971) :
    IsUpTo s k (Float.Model.pack (UnpackedFloat.round Format.binary64 s m e)).unpack := by
  have hlog := log2_lt_of_lt hm (by omega)
  simp only [UnpackedFloat.round, decreaseExponent, targetExponent_eq_max, Nat.shiftLeft_eq]
  generalize hd : (e - max ((m.log2 : Int) + 1 + e - 53) (-1074)).toNat = d
  by_cases h₀ : d = 0
  case pos =>
    subst h₀
    rw [Nat.pow_zero, Nat.mul_one]
    exact isUpTo_roundWithAccuracy hm (by omega) hl hu _
  case neg =>
    -- A short significand is filled up with zeros to all of its bits.
    have hm' : m * 2 ^ d < 2 ^ (53 + 0) := mul_two_pow_lt Nat.lt_log2_self (by omega)
    exact isUpTo_roundWithAccuracy hm' (by omega) hl hu _

/-! Products and sums -/

theorem IsUpTo.mul (hf : IsUpTo s₁ j f) (hg : IsUpTo s₂ k g) (h : j + k + 54 ≤ l) (hl : -1073 ≤ l) (hu : l ≤ 971) :
    IsUpTo (s₁ * s₂) l (Float.Model.pack (UnpackedFloat.mul Format.binary64 f g)).unpack := by
  cases hf
  case zero => cases hg <;> exact isUpTo_unpack_pack_zero
  case finite m₁ e₁ hp₁ hm₁ he₁ =>
    cases hg
    case zero => exact isUpTo_unpack_pack_zero
    case finite m₂ e₂ hp₂ hm₂ he₂ =>
      have hm : m₁ * m₂ < 2 ^ (53 + 53) := by
        rw [Nat.pow_add]
        exact Nat.mul_lt_mul'' hm₁ hm₂
      exact isUpTo_roundWithAccuracy hm (by omega) hl hu .exact

-- Both significands are moved to the lower of the two exponents.
theorem add_positive {m₁ m₂ : Nat} {e₁ e₂ : Int} (hp₁ : 0 < m₁) (hp₂ : 0 < m₂) :
    UnpackedFloat.add Format.binary64 (.finite .positive m₁ e₁ hp₁) (.finite .positive m₂ e₂ hp₂) =
      UnpackedFloat.round Format.binary64 .positive
        (m₁ * 2 ^ (e₁ - min e₁ e₂).toNat + m₂ * 2 ^ (e₂ - min e₁ e₂).toNat) (min e₁ e₂) := by
  have hp : 0 < m₁ * 2 ^ (e₁ - min e₁ e₂).toNat := Nat.mul_pos hp₁ (Nat.two_pow_pos _)
  rw [← normalize_of_pos (Nat.add_pos_left hp _) _ .positive, ← Nat.shiftLeft_eq, ← Nat.shiftLeft_eq]
  rfl

theorem IsUpTo.add (hf : IsUpTo .positive k f) (hg : IsUpTo .positive k g) (h : k + 2 ≤ l) (hl : -1073 ≤ l)
    (hu : l ≤ 971) : IsUpTo .positive l (Float.Model.pack (UnpackedFloat.add Format.binary64 f g)).unpack := by
  cases hf
  case zero =>
    cases hg
    case zero => exact .zero
    case finite hp _ he => exact isUpTo_unpack_pack hp (by omega) (by omega) hu
  case finite m₁ e₁ hp₁ hm₁ he₁ =>
    cases hg
    case zero => exact isUpTo_unpack_pack hp₁ (by omega) (by omega) hu
    case finite m₂ e₂ hp₂ hm₂ he₂ =>
      have h₁ : m₁ * 2 ^ (e₁ - min e₁ e₂).toNat < 2 ^ (53 + (k - min e₁ e₂).toNat) :=
        mul_two_pow_lt hm₁ (by omega)
      have h₂ : m₂ * 2 ^ (e₂ - min e₁ e₂).toNat < 2 ^ (53 + (k - min e₁ e₂).toNat) :=
        mul_two_pow_lt hm₂ (by omega)
      rw [add_positive]
      apply isUpTo_round (b := (k - min e₁ e₂).toNat + 1) _ (by omega) hl hu
      rw [← Nat.add_assoc, Nat.pow_succ]
      omega

theorem isUpTo_ofNat {n : Nat} (h : n < 2 ^ 53) : IsUpTo .positive (n.log2 - 52) (Float.ofNat n).toModel.unpack := by
  by_cases h₀ : n = 0
  case pos =>
    rw [h₀, unpack_ofNat_zero]
    exact .zero
  case neg =>
    rw [unpack_ofNat h₀ h]
    exact .finite _ (isFull_significand h₀ h).right (Int.le_refl _)

/-! Cutting off to integers -/

theorem IsUpTo.truncate64_bounds {x : Float} {i : Nat} (h : IsUpTo .positive (-i) x.toModel.unpack) :
    0 ≤ truncate64 x ∧ truncate64 x ≤ (2 ^ 53 / 2 ^ i : Nat) := by
  have hz : (0.0 : Float).toModel.unpack = .zero .positive := rfl
  generalize hf : x.toModel.unpack = f at h
  apply Binary.truncate64_bounds
  all_goals rw [hf]
  case hs =>
    rw [hz]
    cases h <;> rfl
  case h =>
    cases h
    case zero => exact Int.natCast_nonneg _
    case finite m e hp hm he =>
      obtain ⟨j, rfl⟩ : ∃ j : Nat, e = -j := ⟨(-e).toNat, by omega⟩
      show roundToInt .positive m (-j) ≤ _
      rw [roundToInt_of_neg rfl]
      have hp : 2 ^ i ≤ 2 ^ j := Nat.pow_le_pow_right (by decide) (by omega)
      exact Int.ofNat_le.mpr (Nat.div_le_div (Nat.le_of_lt hm) hp (Nat.ne_of_gt (Nat.two_pow_pos i)))

-- Numbers with a minus sign, minus zero among them.
inductive IsNegative : UnpackedFloat → Prop
  | infinity : IsNegative (.infinity .negative)
  | zero : IsNegative (.zero .negative)
  | finite {m : Nat} {e : Int} (hp : 0 < m) : IsNegative (.finite .negative m e hp)

theorem isNegative_unpack_pack (h : IsNegative f) : IsNegative (Float.Model.pack f).unpack := by
  cases h
  case infinity => exact .infinity
  case zero => exact .zero
  case finite m e hp =>
    by_cases he : e ≤ 971
    case pos =>
      have hu : IsUpTo .negative 971 (Float.Model.pack (.finite .negative m e hp)).unpack :=
        isUpTo_unpack_pack hp he (by decide) (Int.le_refl _)
      generalize (Float.Model.pack (.finite .negative m e hp)).unpack = g at hu
      cases hu
      case zero => exact .zero
      case finite => exact .finite _
    case neg =>
      have hb : 2 ^ 11 ≤ (e + Format.binary64.exponentBias + (52 : Nat)).toNat + 1 := by
        show 2 ^ 11 ≤ (e + (1023 : Nat) + (52 : Nat)).toNat + 1
        omega
      have hi : UnpackedFloat.pack Format.binary64 (.finite .negative m e hp) =
          packedInfinity Format.binary64 .negative := if_pos hb
      show IsNegative (UnpackedFloat.unpack Format.binary64 (UnpackedFloat.pack Format.binary64 _))
      rw [hi]
      exact .infinity

theorem isNegative_roundWithAccuracy (m : Nat) (e : Int) (a : Accuracy) :
    IsNegative (roundWithAccuracy Format.binary64 .negative m e a) := by
  rcases hr : shiftToTargetExponent Format.binary64 m e a with ⟨r, e'⟩
  rw [roundWithAccuracy_eq hr]
  dsimp only
  by_cases hn : (shiftToTargetExponent Format.binary64 r.roundedMantissa e' .exact).1.mantissa = 0
  case pos =>
    rw [dif_pos hn]
    exact .zero
  case neg =>
    rw [dif_neg hn]
    exact .finite _

theorem IsNegative.mul {hp : 0 < m} (h : IsNegative f) :
    IsNegative (UnpackedFloat.mul Format.binary64 (.finite .positive m e hp) f) := by
  cases h
  case infinity => exact .infinity
  case zero => exact .zero
  case finite m' e' _ => exact isNegative_roundWithAccuracy (m * m') (e + e') .exact

theorem IsNegative.truncate64_nonpos {x : Float} (h : IsNegative x.toModel.unpack) : truncate64 x ≤ 0 := by
  have hz : (0.0 : Float).toModel.unpack = .zero .positive := rfl
  unfold truncate64
  split
  case isTrue => omega
  case isFalse hn =>
    rw [lt_iff, hz] at hn
    have hu := toNat_toUInt64_le (x := x) rfl
    generalize x.toModel.unpack = f at h hn hu
    cases h
    case infinity => contradiction
    case zero =>
      have hu : x.toUInt64.toNat ≤ 0 := hu
      omega
    case finite => contradiction

end Atelier.Binary
