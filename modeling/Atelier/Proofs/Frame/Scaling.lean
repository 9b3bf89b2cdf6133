import Atelier.Frame
import Atelier.Proofs.Rounding.Magnitude

/-!
What the scale of a frame makes of positions and of the marker. The cursor of a canvas is shown at a place
that is far inside the words of 64 bits, and a scale that counts as a tenth leaves the marker as it is.
-/

namespace Atelier.Frame

open Float.Model UnpackedFloat Binary

variable {scale : Float}

theorem le_iff {x y : Float} : x ≤ y ↔ x.toModel.unpack.le y.toModel.unpack = true :=
  decide_eq_true_iff

theorem unpack_tenth : (0.1 : Float).toModel.unpack = .finite .positive 7205759403792794 (-56) (by decide) :=
  rfl

theorem unpack_thousand :
    (1000.0 : Float).toModel.unpack = .finite .positive 8796093022208000 (-43) (by decide) :=
  rfl

theorem unpack_seven : (7.0 : Float).toModel.unpack = .finite .positive (7 * 2 ^ 50) (-50) (by decide) :=
  rfl

-- Numbers are compared by their exponents first.
theorem exponent_le_of_le {m m' : Nat} {e e' : Int} {hp hp'}
    (h : (UnpackedFloat.finite .positive m e hp).le (.finite .positive m' e' hp') = true) : e ≤ e' := by
  apply Int.not_lt.mp
  intro he
  have h : ((compare e e').then (compare m m')).isLE = true := h
  rw [Int.compare_eq_gt.mpr he] at h
  contradiction

theorem exponent_le_of_not_lt {m m' : Nat} {e e' : Int} {hp hp'}
    (h : ¬(UnpackedFloat.finite .positive m e hp).lt (.finite .positive m' e' hp') = true) : e' ≤ e := by
  apply Int.not_lt.mp
  intro he
  have h : some ((compare e e').then (compare m m')) ≠ some .lt := fun hc => h (beq_iff_eq.mpr hc)
  rw [Int.compare_eq_lt.mpr he] at h
  contradiction

theorem isUpTo_clampScale (hf : scale.isFinite) (hs : scale ≤ 1000.0) :
    IsUpTo .positive (-43) (clampScale scale).toModel.unpack := by
  unfold clampScale
  split
  case isFalse => exact .finite _ (by decide) (by decide)
  case isTrue h =>
    rw [gt_iff_lt, lt_iff, unpack_tenth] at h
    rw [le_iff, unpack_thousand] at hs
    have hf : scale.toModel.unpack.isFinite = true := hf
    generalize hx : scale.toModel.unpack = f at *
    cases f
    case notANumber => contradiction
    case infinity => contradiction
    case zero => contradiction
    case finite s m e hp =>
      cases s
      case negative => contradiction
      case positive => exact .finite hp (lt_of_unpack hx) (exponent_le_of_le hs)

-- A place on a canvas, enlarged a thousand times at most.
theorem pixelOf_bounds {i : Int} (h₀ : 0 ≤ i) (h : i < 2 ^ 32) (hf : scale.isFinite) (hs : scale ≤ 1000.0) :
    0 ≤ pixelOf i (clampScale scale) ∧ pixelOf i (clampScale scale) ≤ 2 ^ 45 := by
  obtain ⟨n, rfl⟩ := Int.eq_ofNat_of_zero_le h₀
  have hn : n < 2 ^ 32 := Int.ofNat_lt.mp h
  have hl := log2_lt_of_lt hn (by decide)
  have hi : IsUpTo .positive (-21) (Float.ofNat n).toModel.unpack :=
    (isUpTo_ofNat (Nat.lt_trans hn (by decide))).mono (by omega)
  have hh : IsUpTo .positive (-21) (0.5 : Float).toModel.unpack := .finite _ (by decide) (by decide)
  have hm := hi.add hh (l := -19) (by decide) (by decide) (by decide)
  have hp := hm.mul (isUpTo_clampScale hf hs) (l := -8) (by decide) (by decide) (by decide)
  exact IsUpTo.truncate64_bounds (x := (Float.ofNat n + 0.5) * clampScale scale) (i := 8) hp

theorem cursorRadius_eq_five (h : truncate64 (7.0 * scale) ≤ 5) : cursorRadius scale = 5 := by
  unfold cursorRadius truncate32
  omega

theorem isUpTo_or_isNegative (hf : scale.isFinite) (h : ¬scale > 0.1) :
    IsUpTo .positive (-56) scale.toModel.unpack ∨ IsNegative scale.toModel.unpack := by
  rw [gt_iff_lt, lt_iff, unpack_tenth] at h
  have hf : scale.toModel.unpack.isFinite = true := hf
  generalize hx : scale.toModel.unpack = f at *
  cases f
  case notANumber => contradiction
  case infinity => contradiction
  case zero s =>
    cases s
    case negative => exact .inr .zero
    case positive => exact .inl .zero
  case finite s m e hp =>
    cases s
    case negative => exact .inr (.finite hp)
    case positive => exact .inl (.finite hp (lt_of_unpack hx) (exponent_le_of_not_lt h))

theorem cursorRadius_of_small (h : IsUpTo .positive (-56) scale.toModel.unpack) : cursorRadius scale = 5 := by
  have h7 : IsUpTo .positive (-50) (7.0 : Float).toModel.unpack := .finite _ (by decide) (by decide)
  have hp := h7.mul h (l := -52) (by decide) (by decide) (by decide)
  have ⟨_, ht⟩ := IsUpTo.truncate64_bounds (x := 7.0 * scale) (i := 52) hp
  exact cursorRadius_eq_five (Int.le_trans ht (by decide))

theorem cursorRadius_of_negative (h : IsNegative scale.toModel.unpack) : cursorRadius scale = 5 := by
  have hp : IsNegative (7.0 * scale).toModel.unpack := isNegative_unpack_pack (unpack_seven ▸ h.mul)
  exact cursorRadius_eq_five (Int.le_trans hp.truncate64_nonpos (by decide))

-- The marker is never smaller than five pixels, so scales below a tenth do not show in it.
theorem cursorRadius_clampScale (hf : scale.isFinite) : cursorRadius (clampScale scale) = cursorRadius scale := by
  unfold clampScale
  split
  case isTrue => rfl
  case isFalse h =>
    have ht : cursorRadius 0.1 = 5 := cursorRadius_of_small (.finite _ (by decide) (by decide))
    cases isUpTo_or_isNegative hf h
    case inl h => rw [ht, cursorRadius_of_small h]
    case inr h => rw [ht, cursorRadius_of_negative h]

end Atelier.Frame
