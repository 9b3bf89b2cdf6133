import Atelier.Proofs.Canvas.Resizing
import Atelier.Proofs.Raster.Cells

/-!
Pictures in the middle of another size. All cells move by one offset; those that are still inside are kept,
and everything else is black. Moving back undoes the offset, but does not bring back what was cut off.
-/

namespace Atelier

-- Halves are rounded towards zero.
theorem half_bounds (i : Int) :
    (0 ≤ i → 0 ≤ i.tdiv 2 ∧ 2 * i.tdiv 2 ≤ i) ∧ (i ≤ 0 → i.tdiv 2 ≤ 0 ∧ i ≤ 2 * i.tdiv 2) := by
  rw [Int.tdiv_eq_ediv, Int.sign_eq_one_of_pos (by decide)]
  split <;> omega

-- Along one side, all cells stay within words.
theorem fits_shifted {a b : Nat} (ha : a < 2 ^ 31) (hb : b < 2 ^ 31) {x : Int} (hx : 0 ≤ x) (hxa : x < a) :
    Checked.Fits32 (x + ((b : Int) - a).tdiv 2) := by
  have ⟨hg, hs⟩ := half_bounds ((b : Int) - a)
  unfold Checked.Fits32
  omega

namespace Raster

variable {r r' : Raster} {x y : Int} {width height : Nat}

theorem countBytes_of_lt (h : width * height * 3 < 2 ^ 63) : countBytes width height = .ok () := by
  have hi : ((width * height * 3 : Nat) : Int) = width * height * 3 := by simp
  have hf : Checked.Fits64 (width * height * 3) := by
    rw [← hi]
    unfold Checked.Fits64
    omega
  rw [countBytes, Checked.int64, if_pos hf]
  rfl

theorem offsetTo_eq (hr : r.size.IsFeasible) (hs : Size.IsFeasible ⟨width, height⟩) :
    r.offsetTo width height = ⟨((width : Int) - r.width).tdiv 2, ((height : Int) - r.height).tdiv 2⟩ := by
  have hw : r.width < 2 ^ 31 := hr.width_lt
  have hh : r.height < 2 ^ 31 := hr.height_lt
  rw [offsetTo, sideWord_of_lt hw, sideWord_of_lt hh, sideWord_of_lt hs.width_lt, sideWord_of_lt hs.height_lt]

theorem offsetTo_self (r : Raster) : r.offsetTo r.width r.height = ⟨0, 0⟩ := by
  simp [offsetTo]

-- The two differences are opposite, and so are their halves.
theorem offsetTo_back (r : Raster) (width height : Nat) :
    (r.centredIn width height).offsetTo r.width r.height =
      ⟨-(r.offsetTo width height).dx, -(r.offsetTo width height).dy⟩ := by
  have hn (a b : Int) : (b - a).tdiv 2 = -(a - b).tdiv 2 := by rw [← Int.neg_tdiv, Int.neg_sub]
  simp only [offsetTo, Offset.mk.injEq]
  exact ⟨hn .., hn ..⟩

theorem run32_shifted {a b : Nat} (ha : a < 2 ^ 31) (hb : b < 2 ^ 31) :
    Checked.run32 (((b : Int) - a).tdiv 2) a = .ok () := by
  cases a
  case zero => rfl
  case succ n =>
    have hf := fits_shifted ha hb (x := 0) (by omega) (by omega)
    have hl := fits_shifted ha hb (x := n) (by omega) (by omega)
    refine Checked.run32_of_fits ?_ ?_
    case refine_1 => rwa [Int.zero_add] at hf
    case refine_2 =>
      have he : ((n + 1 : Nat) : Int) - 1 = n := by omega
      rwa [Int.add_sub_assoc, he, Int.add_comm]

theorem migrate_of_feasible (hr : r.size.IsFeasible) (hs : Size.IsFeasible ⟨width, height⟩) :
    r.migrate width height = .ok (r.centredIn width height, r.offsetTo width height) := by
  have hrw : r.width < 2 ^ 31 := hr.width_lt
  have hrh : r.height < 2 ^ 31 := hr.height_lt
  have hfit {a b : Nat} (ha : a < 2 ^ 31) (hb : b < 2 ^ 31) : Checked.Fits32 ((b : Int) - a) := by
    unfold Checked.Fits32
    omega
  have ho := offsetTo_eq hr hs
  simp only [migrate, ho, sideWord_of_lt hrw, sideWord_of_lt hrh, sideWord_of_lt hs.width_lt,
    sideWord_of_lt hs.height_lt, Checked.int32_of_fits (hfit hrw hs.width_lt),
    Checked.int32_of_fits (hfit hrh hs.height_lt), Checked.discard_ok, Checked.ok_bind, Int.toNat_natCast,
    run32_shifted hrw hs.width_lt, run32_shifted hrh hs.height_lt, countBytes_of_lt hs.bytes_lt]
  rfl

/-! Cells -/

theorem wellFormed_centredIn (r : Raster) (width height : Nat) : (r.centredIn width height).WellFormed := by
  unfold centredIn
  generalize r.offsetTo width height = o
  exact wellFormed_generate width height _

theorem size_centredIn (r : Raster) (width height : Nat) :
    (r.centredIn width height).size = ⟨width, height⟩ :=
  rfl

theorem get?_centredIn (r : Raster) (width height : Nat) (x y : Int) :
    (r.centredIn width height).get? x y =
      if (r.centredIn width height).Inside x y then
        some ((r.get? (x - (r.offsetTo width height).dx) (y - (r.offsetTo width height).dy)).getD Rgb.black)
      else none := by
  unfold centredIn
  generalize r.offsetTo width height = o
  rw [get?_generate]
  split
  case isFalse => rfl
  case isTrue h =>
    obtain ⟨⟨hx, _⟩, hy, _⟩ := h
    rw [Int.toNat_of_nonneg hx, Int.toNat_of_nonneg hy]

-- The cells of a picture are found again in another one, by an offset, as far as there is room. The rest of
-- the other picture is black.
structure MovesTo (r : Raster) (o : Offset) (r' : Raster) : Prop where
  kept : ∀ x y v, r.get? x y = some v → r'.Inside (x + o.dx) (y + o.dy) →
    r'.get? (x + o.dx) (y + o.dy) = some v
  blank : ∀ x y, r'.Inside x y → ¬r.Inside (x - o.dx) (y - o.dy) → r'.get? x y = some Rgb.black

theorem movesTo_centredIn (r : Raster) (width height : Nat) :
    r.MovesTo (r.offsetTo width height) (r.centredIn width height) where
  kept x y v hv hi := by
    rw [get?_centredIn, if_pos hi, Int.add_sub_cancel, Int.add_sub_cancel, hv]
    rfl
  blank x y hi hn := by
    rw [get?_centredIn, if_pos hi, get?_of_not_inside hn]
    rfl

def positions (r : Raster) : List (Int × Int) :=
  (span 0 (sideWord r.height - 1)).flatMap fun y => (span 0 (sideWord r.width - 1)).map fun x => (x, y)

theorem mem_positions_iff : (x, y) ∈ r.positions ↔ r.Inside x y := by
  simp only [positions, List.mem_flatMap, List.mem_map, mem_span_iff, Prod.mk.injEq, Inside]
  constructor
  case mp =>
    rintro ⟨_, _, _, _, rfl, rfl⟩
    omega
  case mpr =>
    intro h
    exact ⟨y, by omega, x, by omega, rfl, rfl⟩

-- Cell after cell of the picture, row by row, is written where it has moved to on a black picture.
def copied (r : Raster) (width height : Nat) : Raster :=
  let o := r.offsetTo width height
  (filled width height Rgb.black).write (fun x y => (r.get? (x - o.dx) (y - o.dy)).getD Rgb.black)
    (r.positions.map fun p => (p.1 + o.dx, p.2 + o.dy))

-- Writing cell after cell leads to the same picture.
theorem copied_eq (r : Raster) (hs : Size.IsFeasible ⟨width, height⟩) :
    r.copied width height = r.centredIn width height := by
  have hf := wellFormed_filled width height Rgb.black
  have hc : (r.centredIn width height).size.IsFeasible := by rwa [size_centredIn]
  have hw : (r.copied width height).WellFormed := by
    unfold copied
    exact wellFormed_write hf ..
  have hz : (r.copied width height).size = (r.centredIn width height).size := by
    rw [size_centredIn, copied, size_write]
    rfl
  refine eq_of_get?_eq (wellFormed_centredIn ..) hw hc hz fun x y hi => ?_
  have hi' : (filled width height Rgb.black).Inside x y := hi
  rw [copied, get?_write hf, get?_centredIn, if_pos hi, get?_filled, if_pos hi']
  split
  case isTrue => rfl
  case isFalse hn =>
    have hn : ¬r.Inside (x - (r.offsetTo width height).dx) (y - (r.offsetTo width height).dy) := fun h =>
      hn ⟨hi', List.mem_map.mpr ⟨_, mem_positions_iff.mpr h, by simp⟩⟩
    rw [get?_of_not_inside hn]
    rfl

-- A picture that is centred in its own size stays as it is.
theorem centredIn_self (h : r.WellFormed) (hf : r.size.IsFeasible) : r.centredIn r.width r.height = r := by
  apply eq_of_get?_eq h (wellFormed_centredIn ..) hf rfl
  intro x y hi
  have hi' : (r.centredIn r.width r.height).Inside x y := hi
  have ⟨v, hv⟩ := Option.isSome_iff_exists.mp ((isSome_get?_iff h).mpr hi)
  rw [get?_centredIn, if_pos hi', offsetTo_self, Int.sub_zero, Int.sub_zero, hv]
  rfl

-- With room on all sides, nothing is cut off.
theorem inside_centredIn_of_le (hr : r.size.IsFeasible) (hs : Size.IsFeasible ⟨width, height⟩)
    (hw : r.width ≤ width) (hh : r.height ≤ height) (h : r.Inside x y) :
    (r.centredIn width height).Inside (x + (r.offsetTo width height).dx)
      (y + (r.offsetTo width height).dy) := by
  have hc : (r.centredIn width height).size.IsFeasible := by rwa [size_centredIn]
  have hx : (r.centredIn width height).width = width := rfl
  have hy : (r.centredIn width height).height = height := rfl
  have ⟨hwg, _⟩ := half_bounds ((width : Int) - r.width)
  have ⟨hhg, _⟩ := half_bounds ((height : Int) - r.height)
  rw [inside_iff hr] at h
  rw [inside_iff hc, offsetTo_eq hr hs, hx, hy]
  simp only
  omega

theorem mem_painted_centredIn_iff :
    (x, y) ∈ (r.centredIn width height).painted ↔
      (r.centredIn width height).Inside x y ∧
        (x - (r.offsetTo width height).dx, y - (r.offsetTo width height).dy) ∈ r.painted := by
  simp only [painted, Set.mem_ofPred_eq, get?_centredIn]
  split
  case isFalse h => simp [h]
  case isTrue h =>
    cases r.get? (x - (r.offsetTo width height).dx) (y - (r.offsetTo width height).dy) <;> simp [h]

theorem paintedCount_centredIn (h : r.WellFormed) (hr : r.size.IsFeasible)
    (hs : Size.IsFeasible ⟨width, height⟩) (hw : r.width ≤ width) (hh : r.height ≤ height) :
    (r.centredIn width height).paintedCount = r.paintedCount := by
  have hc : (r.centredIn width height).size.IsFeasible := by rwa [size_centredIn]
  let move (p : Int × Int) := (p.1 + (r.offsetTo width height).dx, p.2 + (r.offsetTo width height).dy)
  have hm : move.Injective := by
    intro p q hpq
    obtain ⟨hx, hy⟩ := Prod.mk.inj hpq
    exact Prod.ext (add_right_cancel hx) (add_right_cancel hy)
  have hp : (r.centredIn width height).painted = move '' r.painted := by
    ext ⟨x, y⟩
    rw [mem_painted_centredIn_iff, Set.mem_image]
    constructor
    case mp =>
      rintro ⟨_, hp⟩
      exact ⟨_, hp, by simp [move]⟩
    case mpr =>
      rintro ⟨⟨a, b⟩, hp, he⟩
      obtain ⟨rfl, rfl⟩ := Prod.mk.inj he
      have hi : r.Inside a b := by
        obtain ⟨v, hv, _⟩ := hp
        exact (isSome_get?_iff h).mp (Option.isSome_of_eq_some hv)
      refine ⟨inside_centredIn_of_le hr hs hw hh hi, ?_⟩
      simpa using hp
  rw [← ncard_painted h hr, ← ncard_painted (r.wellFormed_centredIn width height) hc, hp,
    Set.ncard_image_of_injective _ hm]

-- What comes back from another size is what had a place there.
theorem get?_centredIn_back (r : Raster) (width height : Nat) (h : r.Inside x y) :
    ((r.centredIn width height).centredIn r.width r.height).get? x y =
      if (r.centredIn width height).Inside (x + (r.offsetTo width height).dx)
          (y + (r.offsetTo width height).dy) then
        some ((r.get? x y).getD Rgb.black)
      else some Rgb.black := by
  have h' : ((r.centredIn width height).centredIn r.width r.height).Inside x y := h
  rw [get?_centredIn, if_pos h', offsetTo_back]
  simp only [Int.sub_neg]
  rw [get?_centredIn, Int.add_sub_cancel, Int.add_sub_cancel]
  split <;> rfl

end Raster

end Atelier
