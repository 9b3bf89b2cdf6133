import Atelier.Canvas
import Atelier.Proofs.Rounding.Binary

/-!
A natural number divided by a scale and cut off to an integer is at least zero and not above that
number. So no side of a canvas is longer than the side of the screen.
-/

namespace Atelier

open Float.Model UnpackedFloat Binary

namespace Binary

variable {n : Nat}

def significand (n : Nat) : Nat :=
  n * 2 ^ (52 - n.log2)

theorem log2_le (h : n < 2 ^ 53) : n.log2 ≤ 52 :=
  Nat.le_of_lt_succ (log2_lt_of_lt h (by decide))

theorem isFull_significand (h₀ : n ≠ 0) (h : n < 2 ^ 53) : IsFull (significand n) := by
  have hl := log2_le h
  have ⟨hlo, hhi⟩ := (Nat.log2_eq_iff h₀).mp rfl
  have hs : 2 ^ 52 = 2 ^ n.log2 * 2 ^ (52 - n.log2) := by rw [← Nat.pow_add, Nat.add_sub_cancel' hl]
  constructor
  case left =>
    rw [hs]
    exact Nat.mul_le_mul_right _ hlo
  case right =>
    rw [Nat.pow_succ 2 52, hs, Nat.mul_right_comm, ← Nat.pow_succ]
    exact Nat.mul_lt_mul_of_pos_right hhi (Nat.two_pow_pos _)

theorem ofNat_eq (h₀ : n ≠ 0) (h : n < 2 ^ 53) :
    UnpackedFloat.ofNat Format.binary64 n =
      .finite .positive (significand n) (n.log2 - 52) (isFull_significand h₀ h).pos := by
  have hl := log2_le h
  have hf := isFull_significand h₀ h
  have he : (-1074 : Int) ≤ n.log2 - 52 := by omega
  have ht : Format.binary64.targetExponent (totalExponent n 0) = n.log2 - 52 := by
    rw [targetExponent_eq_max]
    omega
  have hs : (0 - ((n.log2 : Int) - 52)).toNat = 52 - n.log2 := by omega
  have hs' : (0 : Int) - (52 - n.log2 : Nat) = n.log2 - 52 := by omega
  have hn : UnpackedFloat.normalize Format.binary64 n 0 .positive =
      roundWithAccuracy Format.binary64 .positive (significand n) (n.log2 - 52) .exact := by
    rw [normalize_of_pos (Nat.pos_of_ne_zero h₀)]
    simp only [UnpackedFloat.round, ht, decreaseExponent, hs, hs', Nat.shiftLeft_eq, significand]
  show UnpackedFloat.normalize Format.binary64 n 0 .positive = _
  rw [hn]
  exact roundWithAccuracy_of_isFull (hf.shiftToTargetExponent_eq he) hf he

theorem unpack_pack_zero : (Float.Model.pack (.zero .positive)).unpack = .zero .positive :=
  rfl

theorem unpack_pack_notANumber : (Float.Model.pack .notANumber).unpack = .notANumber :=
  rfl

theorem unpack_ofNat_zero : (Float.ofNat 0).toModel.unpack = .zero .positive :=
  rfl

-- Small numbers are exact.
theorem unpack_ofNat (h₀ : n ≠ 0) (h : n < 2 ^ 53) :
    (Float.ofNat n).toModel.unpack =
      .finite .positive (significand n) (n.log2 - 52) (isFull_significand h₀ h).pos := by
  have hl := log2_le h
  have hf := isFull_significand h₀ h
  have hu : n.toUInt64.toNat = n := by
    rw [Nat.toUInt64, UInt64.toNat_ofNat']
    exact Nat.mod_eq_of_lt (Nat.lt_trans h (by decide))
  have hx : n.toUInt64.toFloat.toModel.unpack =
      .finite .positive (significand n) (n.log2 - 52) hf.pos := by
    show (Float.Model.pack (UnpackedFloat.ofNat Format.binary64 n.toUInt64.toNat)).unpack = _
    rw [hu, ofNat_eq h₀ h, unpack_pack hf (by omega) (by omega)]
  have ho : Float.ofNat n = n.toUInt64.toFloat * 1.0 := dif_pos ⟨h, by decide⟩
  have h1 : (1.0 : Float).toModel.unpack = .finite .positive (2 ^ 52) (-52) (by decide) := rfl
  have hm : UnpackedFloat.mul Format.binary64 (.finite .positive (significand n) (n.log2 - 52) hf.pos)
      (.finite .positive (2 ^ 52) (-52) (by decide)) =
        .finite .positive (significand n) (n.log2 - 52) hf.pos :=
    roundWithAccuracy_exact hf (by omega) (by omega)
  rw [ho]
  show (Float.Model.pack (UnpackedFloat.mul Format.binary64 n.toUInt64.toFloat.toModel.unpack
    (1.0 : Float).toModel.unpack)).unpack = _
  rw [hx, h1, hm, unpack_pack hf (by omega) (by omega)]

-- What a clamped scale is: undefined, or a number from one to eight.
inductive IsScale : UnpackedFloat → Prop
  | undefined : IsScale .notANumber
  | number {m e} (h : IsFull m) : -52 ≤ e → e ≤ -49 → IsScale (.finite .positive m e h.pos)

theorem unpack_minScale : Canvas.minScale.toModel.unpack = .finite .positive (2 ^ 52) (-52) (by decide) :=
  rfl

theorem unpack_maxScale : Canvas.maxScale.toModel.unpack = .finite .positive (2 ^ 52) (-49) (by decide) :=
  rfl

theorem lt_iff {x y : Float} : x < y ↔ x.toModel.unpack.lt y.toModel.unpack = true :=
  decide_eq_true_iff

theorem isScale_of_between {x : Float} (hl : ¬x < Canvas.minScale) (hu : ¬x > Canvas.maxScale) :
    IsScale x.toModel.unpack := by
  rw [lt_iff, unpack_minScale] at hl
  rw [gt_iff_lt, lt_iff, unpack_maxScale] at hu
  generalize hx : x.toModel.unpack = f at *
  cases f
  case notANumber => exact .undefined
  case infinity s =>
    cases s
    case positive => exact absurd rfl hu
    case negative => exact absurd rfl hl
  case zero => exact absurd rfl hl
  case finite s m e hp =>
    cases s
    case negative => exact absurd rfl hl
    case positive =>
      have hl : some ((compare e (-52)).then (compare m (2 ^ 52))) ≠ some .lt :=
        fun h => hl (beq_iff_eq.mpr h)
      have hu : some ((compare (-49) e).then (compare (2 ^ 52) m)) ≠ some .lt :=
        fun h => hu (beq_iff_eq.mpr h)
      have hl : -52 ≤ e := by
        apply Int.not_lt.mp
        intro he
        rw [Int.compare_eq_lt.mpr he] at hl
        contradiction
      have hu : e ≤ -49 := by
        apply Int.not_lt.mp
        intro he
        rw [Int.compare_eq_lt.mpr he] at hu
        contradiction
      exact .number (isFull_of_unpack hx (by omega)) hl hu

theorem isScale_clampScale (x : Float) : IsScale (Canvas.clampScale x).toModel.unpack := by
  unfold Canvas.clampScale clampFloat
  split
  case isTrue => exact .number (m := 2 ^ 52) ⟨Nat.le_refl _, by decide⟩ (by decide) (by decide)
  case isFalse hl =>
    split
    case isTrue => exact .number (m := 2 ^ 52) ⟨Nat.le_refl _, by decide⟩ (by decide) (by decide)
    case isFalse hu => exact isScale_of_between hl hu

variable {m m₁ m₂ : Nat} {e e₁ e₂ : Int}

theorem roundToInt_of_neg {j : Nat} (he : e = -j) :
    roundToInt .positive m e = (m / 2 ^ j : Nat) := by
  subst he
  have h₁ : (-(j : Int) - 0).toNat = 0 := by omega
  have h₂ : (0 - -(j : Int)).toNat = j := by omega
  have h₃ : -(j : Int) - (0 : Nat) = -j := by omega
  simp only [roundToInt, decreaseExponent, shiftToExponent, h₁, h₂, h₃, mantissa_shiftRight,
    mantissa_ofMantissaAndAccuracy, Nat.shiftLeft_zero]
  rfl

-- The quotient of two full significands has at least 53 bits and at most one more.
theorem log2_quotient (h₁ : IsFull m₁) (h₂ : IsFull m₂) :
    ∃ t, t ≤ 1 ∧ (m₁ * 2 ^ 53 / m₂).log2 = 52 + t := by
  have hl : 2 ^ 52 ≤ m₁ * 2 ^ 53 / m₂ := by
    rw [Nat.le_div_iff_mul_le h₂.pos]
    exact Nat.mul_le_mul h₁.left (Nat.le_of_lt h₂.right)
  have hu : m₁ * 2 ^ 53 / m₂ < 2 ^ 54 := by
    rw [Nat.div_lt_iff_lt_mul h₂.pos]
    have ⟨_, _⟩ := h₁
    have ⟨_, _⟩ := h₂
    omega
  by_cases h : m₁ * 2 ^ 53 / m₂ < 2 ^ 53
  case pos => exact ⟨0, by decide, log2_eq hl h⟩
  case neg => exact ⟨1, by decide, log2_eq (Nat.not_lt.mp h) hu⟩

theorem divCore_eq (h₁ : IsFull m₁) (h₂ : IsFull m₂) (he : -1021 ≤ e₁ - e₂) :
    divCore Format.binary64 m₁ e₁ m₂ e₂ =
      (m₁ * 2 ^ 53 / m₂, e₁ - e₂ - 53, accuracyOfFraction (m₁ * 2 ^ 53 % m₂) m₂) := by
  have ht : min (e₁ - e₂)
      (Format.binary64.targetExponent (totalExponent m₁ e₁ - totalExponent m₂ e₂)) = e₁ - e₂ - 53 := by
    show min (e₁ - e₂)
      (max ((m₁.log2 : Int) + 1 + e₁ - ((m₂.log2 : Int) + 1 + e₂) - 53) (-1074)) = _
    rw [h₁.log2, h₂.log2]
    omega
  have hs : (e₁ - e₂ - (e₁ - e₂ - 53)).toNat = 53 := by omega
  simp only [divCore, ht, hs, Nat.shiftLeft_eq]

theorem div_finite {s₁ s₂ : Sign} (hp₁ : 0 < m₁) (hp₂ : 0 < m₂) :
    UnpackedFloat.div Format.binary64 (.finite s₁ m₁ e₁ hp₁) (.finite s₂ m₂ e₂ hp₂) =
      let (m, e, a) := divCore Format.binary64 m₁ e₁ m₂ e₂
      roundWithAccuracy Format.binary64 (s₁ / s₂) m e a :=
  rfl

theorem quotient_le (h : n < 2 ^ 53) (h₂ : IsFull m₂) :
    significand n * 2 ^ 53 / m₂ ≤ n * 2 ^ (53 - n.log2) := by
  have hl := log2_le h
  have hs : significand n * 2 ^ 53 = 2 ^ 52 * (n * 2 ^ (53 - n.log2)) := by
    have hk : 52 - n.log2 + 53 = 52 + (53 - n.log2) := by omega
    rw [significand, Nat.mul_assoc, ← Nat.pow_add, hk, Nat.pow_add, Nat.mul_left_comm]
  apply Nat.div_le_of_le_mul
  rw [hs]
  exact Nat.mul_le_mul_right _ h₂.left

theorem div_two_pow_le {j : Nat} (h : m ≤ n * 2 ^ j + 1) (hj : 0 < j) : m / 2 ^ j ≤ n := by
  have hp : 2 ^ 1 ≤ 2 ^ j := Nat.pow_le_pow_right (by decide) hj
  apply Nat.le_of_lt_succ
  rw [Nat.div_lt_iff_lt_mul (Nat.two_pow_pos j), Nat.succ_mul]
  omega

-- Rounding can make the quotient larger than the number, but not by one.
theorem div_scale (h₀ : n ≠ 0) (h : n < 2 ^ 52) (h₁ : IsFull (significand n)) (h₂ : IsFull m₂)
    (hl : -52 ≤ e₂) (hu : e₂ ≤ -49) :
    ∃ (m j : Nat) (hf : IsFull m), j ≤ 1074 ∧ m / 2 ^ j ≤ n ∧
      UnpackedFloat.div Format.binary64 (.finite .positive (significand n) (n.log2 - 52) h₁.pos)
        (.finite .positive m₂ e₂ h₂.pos) = .finite .positive m (-j) hf.pos := by
  have hk : n.log2 ≤ 51 := Nat.le_of_lt_succ ((Nat.log2_lt h₀).mpr h)
  obtain ⟨t, ht₁, ht⟩ := log2_quotient h₁ h₂
  obtain ⟨m, e, hf, hr, hb⟩ := roundWithAccuracy_bounds (s := .positive / .positive)
    (e := (n.log2 : Int) - 52 - e₂ - 53) ht (by omega) (accuracyOfFraction (significand n * 2 ^ 53 % m₂) m₂)
  have hd : UnpackedFloat.div Format.binary64 (.finite .positive (significand n) (n.log2 - 52) h₁.pos)
      (.finite .positive m₂ e₂ h₂.pos) = .finite .positive m e hf.pos := by
    rw [div_finite, divCore_eq h₁ h₂ (by omega)]
    exact hr
  obtain ⟨i, hi⟩ : ∃ i : Nat, (n.log2 : Int) - 52 - e₂ - 53 + t = -(i + 1 : Nat) :=
    ⟨(104 - t + e₂ - n.log2).toNat, by omega⟩
  have hq : significand n * 2 ^ 53 / m₂ / 2 ^ t ≤ n * 2 ^ (i + 1) := by
    apply Nat.div_le_of_le_mul
    refine Nat.le_trans (quotient_le (Nat.lt_trans h (by decide)) h₂) ?_
    rw [Nat.mul_left_comm, ← Nat.pow_add]
    exact Nat.mul_le_mul_left _ (Nat.pow_le_pow_right (by decide) (by omega))
  cases hb
  case inl hb =>
    refine ⟨m, i + 1, hf, by omega, div_two_pow_le (by omega) (by omega), ?_⟩
    rw [hd, hb.left, hi]
  case inr hb =>
    have he : e = -(i : Nat) := by omega
    refine ⟨m, i, hf, by omega, ?_, he ▸ hd⟩
    apply Nat.div_le_of_le_mul
    rw [Nat.pow_succ 2 i, ← Nat.mul_assoc, Nat.mul_comm n] at hq
    have := hb.right
    omega

theorem toNat_toUInt64_le {x : Float} {i : Int} (h : x.toModel.unpack.toInt 0 (UInt64.size - 1) = i) :
    x.toUInt64.toNat ≤ i.toNat := by
  show (UInt64.ofNatClamp (x.toModel.unpack.toInt 0 (UInt64.size - 1)).toNat).toNat ≤ _
  rw [h, UInt64.ofNatClamp]
  split
  case isTrue => exact Nat.le_refl _
  case isFalse hn => exact Nat.le_trans (by decide) (Nat.not_lt.mp hn)

theorem truncate64_bounds {x : Float} {n : Nat} (hs : x.toModel.unpack.lt (0.0 : Float).toModel.unpack = false)
    (h : x.toModel.unpack.toInt 0 (UInt64.size - 1) ≤ n) : 0 ≤ truncate64 x ∧ truncate64 x ≤ n := by
  have := toNat_toUInt64_le (x := x) rfl
  have hn : ¬x < 0.0 := by
    rw [lt_iff, hs]
    exact Bool.false_ne_true
  unfold truncate64
  rw [if_neg hn]
  omega

end Binary

-- The part of a screen side that a clamped scale leaves.
theorem truncate64_div_clampScale {n : Nat} (h : n < 2 ^ 52) (scale : Float) :
    0 ≤ truncate64 (Float.ofNat n / Canvas.clampScale scale) ∧
      truncate64 (Float.ofNat n / Canvas.clampScale scale) ≤ n := by
  have hz : (0.0 : Float).toModel.unpack = .zero .positive := rfl
  suffices h : ∃ f, (Float.ofNat n / Canvas.clampScale scale).toModel.unpack = f ∧
      f.lt (.zero .positive) = false ∧ f.toInt 0 (UInt64.size - 1) ≤ n by
    obtain ⟨f, hf, hs, hi⟩ := h
    exact truncate64_bounds (by rw [hf, hz, hs]) (by rwa [hf])
  have hd : (Float.ofNat n / Canvas.clampScale scale).toModel.unpack =
      (Float.Model.pack (UnpackedFloat.div Format.binary64 (Float.ofNat n).toModel.unpack
        (Canvas.clampScale scale).toModel.unpack)).unpack := rfl
  rw [hd]
  have hsc := isScale_clampScale scale
  generalize (Canvas.clampScale scale).toModel.unpack = f at hsc
  by_cases h₀ : n = 0
  case pos =>
    rw [h₀, unpack_ofNat_zero]
    cases hsc
    case undefined => exact ⟨.notANumber, unpack_pack_notANumber, rfl, Int.le_refl 0⟩
    case number => exact ⟨.zero .positive, unpack_pack_zero, rfl, Int.le_refl 0⟩
  case neg =>
    have h' : n < 2 ^ 53 := Nat.lt_trans h (by decide)
    rw [unpack_ofNat h₀ h']
    cases hsc
    case undefined => exact ⟨.notANumber, unpack_pack_notANumber, rfl, Int.natCast_nonneg n⟩
    case number m₂ e₂ h₂ hl hu =>
      have ⟨m, j, hf, hj, hle, hd⟩ := div_scale h₀ h (isFull_significand h₀ h') h₂ hl hu
      refine ⟨.finite .positive m (-j) hf.pos, ?_, rfl, ?_⟩
      case refine_1 => rw [hd, unpack_pack hf (by omega) (by omega)]
      case refine_2 =>
        show roundToInt .positive m (-j) ≤ n
        rw [roundToInt_of_neg rfl]
        exact Int.ofNat_le.mpr hle

end Atelier
