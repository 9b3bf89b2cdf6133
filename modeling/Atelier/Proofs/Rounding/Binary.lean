import Mathlib.Algebra.Ring.Int.Defs
import Mathlib.Algebra.Ring.Nat

/-!
Floating-point numbers with all of their bits: how they are packed into words and unpacked again, and
how a longer significand is rounded to one of 53 bits.
-/

namespace Atelier.Binary

open Float.Model UnpackedFloat

-- Significands with all bits, the leading one included.
def IsFull (m : Nat) : Prop :=
  2 ^ 52 ≤ m ∧ m < 2 ^ 53

variable {s : Sign} {m t : Nat} {e : Int}

theorem IsFull.pos (h : IsFull m) : 0 < m :=
  Nat.lt_of_lt_of_le (by decide) h.left

theorem log2_eq {k : Nat} (hl : 2 ^ k ≤ m) (hm : m < 2 ^ (k + 1)) : m.log2 = k :=
  (Nat.log2_eq_iff (Nat.ne_of_gt (Nat.lt_of_lt_of_le (Nat.two_pow_pos k) hl))).mpr ⟨hl, hm⟩

theorem log2_lt_of_lt {k : Nat} (hm : m < 2 ^ k) (hk : 0 < k) : m.log2 < k := by
  by_cases h₀ : m = 0
  case pos => rwa [h₀, Nat.log2_zero]
  case neg => exact (Nat.log2_lt h₀).mpr hm

theorem IsFull.log2 (h : IsFull m) : m.log2 = 52 :=
  log2_eq h.left h.right

/-! Packing and unpacking -/

theorem ofBitVec_toBitVec (s : Sign) : Sign.ofBitVec s.toBitVec = s := by
  cases s <;> rfl

theorem unpackSign_packComponents {f : Format} (s : Sign) (e m) :
    unpackSign (packComponents f s e m) = s.toBitVec := by
  ext i hi
  cases Nat.lt_one_iff.mp hi
  have h : ¬f.mantissaBitsWithoutImplicit + f.exponentBits < f.mantissaBitsWithoutImplicit := by omega
  delta unpackSign packComponents
  simp [BitVec.getLsbD_append, h, BitVec.getElem_append]

-- The leading bit is left out in a word.
theorem IsFull.toNat_append (h : IsFull m) : (1#1 ++ BitVec.ofNat 52 m).toNat = m := by
  have ⟨hl, hm⟩ := h
  have hr : m % 2 ^ 52 < 2 ^ 52 := Nat.mod_lt _ (by decide)
  rw [BitVec.toNat_append, BitVec.toNat_ofNat, BitVec.toNat_ofNat, ← Nat.shiftLeft_add_eq_or_of_lt hr]
  omega

theorem isFull_append (v : BitVec 52) : IsFull (1#1 ++ v).toNat := by
  have hv := v.isLt
  rw [BitVec.toNat_append, ← Nat.shiftLeft_add_eq_or_of_lt hv]
  constructor
  case left => exact Nat.le_add_right _ _
  case right => exact Nat.add_lt_add_left hv _

theorem pack_finite {b : Nat} (h : IsFull m) (hb : b < 2047) :
    UnpackedFloat.pack Format.binary64 (.finite s m (b - 1075) h.pos) =
      packComponents Format.binary64 s (.ofNat 11 b) (.ofNat 52 m) := by
  have hb' : ((b : Int) - 1075 + Format.binary64.exponentBias + (52 : Nat)).toNat = b := by
    show ((b : Int) - 1075 + (1023 : Nat) + (52 : Nat)).toNat = b
    omega
  have h₁ : ¬2 ^ 11 ≤ b + 1 := by omega
  have h₂ : m.log2 + 1 = Format.binary64.mantissaBits := by
    rw [h.log2]
    rfl
  unfold UnpackedFloat.pack
  dsimp only
  rw [hb', if_neg h₁, if_pos h₂]

theorem unpack_packComponents {b : Nat} (h : IsFull m) (hb₀ : 0 < b) (hb : b < 2047) :
    UnpackedFloat.unpack Format.binary64
      (packComponents Format.binary64 s (.ofNat 11 b) (.ofNat 52 m)) =
        .finite s m (b - 1075) h.pos := by
  have hn : (BitVec.ofNat 11 b).toNat = b := Nat.mod_eq_of_lt (by omega)
  have h₁ : BitVec.ofNat 11 b ≠ -1#11 := fun he => by
    have he : (BitVec.ofNat 11 b).toNat = 2047 := congrArg BitVec.toNat he
    omega
  have h₂ : BitVec.ofNat 11 b ≠ 0#11 := fun he => by
    have he : (BitVec.ofNat 11 b).toNat = 0 := congrArg BitVec.toNat he
    omega
  have hx := @unpackExponent_packComponents .binary64 s (.ofNat 11 b) (.ofNat 52 m)
  rw [← hx] at h₁ h₂
  unfold UnpackedFloat.unpack
  dsimp only
  rw [if_neg h₁, if_neg h₂, finite.injEq]
  refine ⟨?hs, ?hm, ?he⟩
  case hs => rw [unpackSign_packComponents, ofBitVec_toBitVec]
  case hm => rw [unpackMantissa_packComponents, h.toNat_append]
  case he =>
    rw [hx, hn]
    rfl

theorem unpack_pack (h : IsFull m) (he : -1074 ≤ e) (he' : e ≤ 971) :
    (Float.Model.pack (.finite s m e h.pos)).unpack = .finite s m e h.pos := by
  have ⟨b, hb, hb₀, hb₁⟩ : ∃ b : Nat, e = b - 1075 ∧ 0 < b ∧ b < 2047 :=
    ⟨(e + 1075).toNat, by omega, by omega, by omega⟩
  subst hb
  show UnpackedFloat.unpack Format.binary64 (UnpackedFloat.pack Format.binary64 _) = _
  rw [pack_finite h hb₁, unpack_packComponents h hb₀ hb₁]

-- Only numbers with the least exponent can miss some bits.
theorem isFull_or_of_unpack {x : Float.Model} {hp : 0 < m} (h : x.unpack = .finite s m e hp) :
    IsFull m ∨ m < 2 ^ 52 ∧ e = -1074 := by
  unfold Float.Model.unpack UnpackedFloat.unpack at h
  dsimp only at h
  obtain ⟨_, h⟩ | ⟨_, h⟩ := ite_eq_iff.mp h
  case inl => obtain ⟨_, h⟩ | ⟨_, h⟩ := ite_eq_iff.mp h <;> contradiction
  case inr =>
    obtain ⟨hz, h⟩ | ⟨_, h⟩ := ite_eq_iff.mp h
    case inl =>
      obtain ⟨_, h⟩ | ⟨_, h⟩ := dite_eq_iff.mp h
      case inl => contradiction
      case inr =>
        obtain ⟨_, hm, he⟩ := finite.inj h
        rw [hz] at he
        exact .inr ⟨hm ▸ BitVec.isLt _, he.symm⟩
    case inr =>
      obtain ⟨_, h, _⟩ := finite.inj h
      exact .inl (h ▸ isFull_append _)

theorem isFull_of_unpack {x : Float.Model} {hp : 0 < m} (h : x.unpack = .finite s m e hp)
    (he : -1074 < e) : IsFull m :=
  (isFull_or_of_unpack h).resolve_right fun h => Int.ne_of_gt he h.right

theorem lt_of_unpack {x : Float.Model} {hp : 0 < m} (h : x.unpack = .finite s m e hp) : m < 2 ^ 53 := by
  cases isFull_or_of_unpack h
  case inl h => exact h.right
  case inr h => exact Nat.lt_trans h.left (by decide)

/-! Rounding -/

theorem mantissa_shiftRight (em : ExtendedMantissa) (t : Nat) :
    (em >>> t).mantissa = em.mantissa / 2 ^ t := by
  show (t.repeat _ em).mantissa = _
  induction t
  case zero => simp [Nat.repeat]
  case succ t ih =>
    show (t.repeat ExtendedMantissa.shiftRightOne em).mantissa / 2 = _
    rw [ih, Nat.div_div_eq_div_mul, Nat.pow_succ]

theorem shiftRight_exact (m t : Nat) :
    (⟨m * 2 ^ t, false, false⟩ : ExtendedMantissa) >>> t = ⟨m, false, false⟩ := by
  show t.repeat _ _ = _
  induction t generalizing m
  case zero => simp [Nat.repeat]
  case succ t ih =>
    rw [Nat.repeat, Nat.pow_succ, Nat.mul_comm (2 ^ t), ← Nat.mul_assoc, ih]
    simp [ExtendedMantissa.shiftRightOne]

theorem le_roundedMantissa (em : ExtendedMantissa) : em.mantissa ≤ em.roundedMantissa := by
  unfold ExtendedMantissa.roundedMantissa Accuracy.roundToNearestEven
  split <;> omega

theorem roundedMantissa_le (em : ExtendedMantissa) : em.roundedMantissa ≤ em.mantissa + 1 := by
  unfold ExtendedMantissa.roundedMantissa Accuracy.roundToNearestEven
  split <;> omega

theorem mantissa_ofMantissaAndAccuracy (m : Nat) (a : Accuracy) :
    (ExtendedMantissa.ofMantissaAndAccuracy m a).mantissa = m := by
  unfold ExtendedMantissa.ofMantissaAndAccuracy
  split <;> rfl

theorem targetExponent_eq_max (m : Nat) (e : Int) :
    Format.binary64.targetExponent (totalExponent m e) = max ((m.log2 : Int) + 1 + e - 53) (-1074) :=
  rfl

theorem targetExponent_eq (ht : m.log2 = 52 + t) (he : -1074 ≤ e + t) :
    Format.binary64.targetExponent (totalExponent m e) = e + t := by
  rw [targetExponent_eq_max, ht]
  omega

theorem shiftToTargetExponent_eq (ht : m.log2 = 52 + t) (he : -1074 ≤ e + t) (a : Accuracy) :
    shiftToTargetExponent Format.binary64 m e a =
      (ExtendedMantissa.ofMantissaAndAccuracy m a >>> t, e + t) := by
  have hs : (e + t - e).toNat = t := by omega
  unfold shiftToTargetExponent shiftToExponent
  simp only [targetExponent_eq ht he, hs]

theorem IsFull.shiftToTargetExponent_eq (h : IsFull m) (he : -1074 ≤ e) :
    shiftToTargetExponent Format.binary64 m e .exact = (⟨m, false, false⟩, e) := by
  have ht : m.log2 = 52 + 0 := h.log2
  rw [Binary.shiftToTargetExponent_eq ht (by omega)]
  show (_, e + 0) = _
  rw [Int.add_zero]
  rfl

theorem shiftToTargetExponent_carry (he : -1074 ≤ e) :
    shiftToTargetExponent Format.binary64 (2 ^ 53) e .exact = (⟨2 ^ 52, false, false⟩, e + 1) := by
  have ht : (2 ^ 53).log2 = 52 + 1 := Nat.log2_two_pow
  rw [Binary.shiftToTargetExponent_eq ht (by omega)]
  rfl

theorem normalize_of_pos {n : Nat} (h : 0 < n) (e : Int) (z : Sign) :
    UnpackedFloat.normalize Format.binary64 n e z = UnpackedFloat.round Format.binary64 .positive n e := by
  have hc : compare (n : Int) 0 = .gt := Int.compare_eq_gt.mpr (Int.natCast_pos.mpr h)
  unfold UnpackedFloat.normalize
  rw [hc]
  rfl

theorem roundWithAccuracy_eq {r : ExtendedMantissa} {e' : Int} {a : Accuracy}
    (h : shiftToTargetExponent Format.binary64 m e a = (r, e')) :
    roundWithAccuracy Format.binary64 s m e a =
      let (last, e'') := shiftToTargetExponent Format.binary64 r.roundedMantissa e' .exact
      if h : last.mantissa = 0 then .zero s
      else .finite s last.mantissa e'' (Nat.pos_of_ne_zero h) := by
  unfold roundWithAccuracy
  rw [h]

theorem roundWithAccuracy_of_isFull {r : ExtendedMantissa} {e' : Int} {a : Accuracy}
    (h : shiftToTargetExponent Format.binary64 m e a = (r, e')) (hr : IsFull r.roundedMantissa)
    (he : -1074 ≤ e') :
    roundWithAccuracy Format.binary64 s m e a = .finite s r.roundedMantissa e' hr.pos := by
  rw [roundWithAccuracy_eq h, hr.shiftToTargetExponent_eq he]
  exact dif_neg (Nat.ne_of_gt hr.pos)

-- Bits that are all zero are dropped without loss.
theorem roundWithAccuracy_exact {e' : Int} (h : IsFull m) (ht : e + t = e') (he : -1074 ≤ e') :
    roundWithAccuracy Format.binary64 s (m * 2 ^ t) e .exact = .finite s m e' h.pos := by
  subst ht
  have ht : (m * 2 ^ t).log2 = 52 + t := by
    apply log2_eq
    case hl =>
      rw [Nat.pow_add]
      exact Nat.mul_le_mul_right _ h.left
    case hm =>
      rw [Nat.add_right_comm, Nat.pow_add]
      exact Nat.mul_lt_mul_of_pos_right h.right (Nat.two_pow_pos t)
  have hs := shiftToTargetExponent_eq ht he .exact
  rw [ExtendedMantissa.ofMantissaAndAccuracy, shiftRight_exact] at hs
  exact roundWithAccuracy_of_isFull hs h he

-- Dropping the last bits of a significand can make it larger by one at most. If that needs a further
-- bit, then the last one, a zero, is dropped too.
theorem roundWithAccuracy_bounds (ht : m.log2 = 52 + t) (he : -1074 ≤ e + t) (a : Accuracy) :
    ∃ m' e', ∃ h : IsFull m', roundWithAccuracy Format.binary64 s m e a = .finite s m' e' h.pos ∧
      ((e' = e + t ∧ m' ≤ m / 2 ^ t + 1) ∨ (e' = e + t + 1 ∧ m' * 2 ≤ m / 2 ^ t + 1)) := by
  have hs := shiftToTargetExponent_eq ht he a
  generalize hr : ExtendedMantissa.ofMantissaAndAccuracy m a >>> t = r at hs
  have hm : r.mantissa = m / 2 ^ t := by
    rw [← hr, mantissa_shiftRight, mantissa_ofMantissaAndAccuracy]
  have hge := hm ▸ le_roundedMantissa r
  have hle := hm ▸ roundedMantissa_le r
  have hf : IsFull (m / 2 ^ t) := by
    have hm : m ≠ 0 := fun h => by
      rw [h, Nat.log2_zero] at ht
      omega
    have ⟨hl, hu⟩ := (Nat.log2_eq_iff hm).mp ht
    rw [Nat.add_right_comm] at hu
    constructor
    case left => exact (Nat.le_div_iff_mul_le (Nat.two_pow_pos t)).mpr (Nat.pow_add .. ▸ hl)
    case right => exact (Nat.div_lt_iff_lt_mul (Nat.two_pow_pos t)).mpr (Nat.pow_add .. ▸ hu)
  by_cases hc : r.roundedMantissa < 2 ^ 53
  case pos =>
    have hr : IsFull r.roundedMantissa := ⟨Nat.le_trans hf.left hge, hc⟩
    exact ⟨_, _, hr, roundWithAccuracy_of_isFull hs hr he, .inl ⟨rfl, hle⟩⟩
  case neg =>
    have hr : r.roundedMantissa = 2 ^ 53 := by
      have := hf.right
      omega
    refine ⟨2 ^ 52, e + t + 1, ⟨Nat.le_refl _, by decide⟩, ?_, .inr ⟨rfl, by omega⟩⟩
    rw [roundWithAccuracy_eq hs, hr, shiftToTargetExponent_carry he]
    rfl

end Atelier.Binary
