import Atelier.Proofs.Checked
import Atelier.Proofs.Footprint

/-!
Squares and disks up to their limits, and the spray. As long as the area of a square and the squared
distances in a disk are words of 32 bits, so are all numbers on the way, and the list holds just the offsets
of the figure. A spray asks about each offset of its disk once, whatever its source is.
-/

namespace Atelier

namespace Offset

open Checked

variable {o : Offset} {r n : Int}

theorem length_grid (lo hi : Int) : (grid lo hi).length = (hi - lo + 1).toNat * (hi - lo + 1).toNat := by
  simp [grid, List.length_flatMap, length_span, List.map_const']

theorem pairwise_disk (r : Int) : (disk r).Pairwise IsBefore :=
  (pairwise_grid ..).filter _

-- The cell of a column and a row, if the disk goes that far.
def inDisk? (r dy dx : Int) : Option Offset :=
  if dx * dx + dy * dy ≤ r * r then some ⟨dx, dy⟩ else none

theorem disk_eq_flatMap (r : Int) :
    disk r = (span (-r) r).flatMap fun dy => (span (-r) r).filterMap (inDisk? r dy) := by
  rw [disk, grid, List.filter_flatMap]
  congr 1
  funext dy
  rw [← List.filterMap_eq_filter, List.filterMap_map]
  congr 1
  funext dx
  by_cases h : dx * dx + dy * dy ≤ r * r <;> simp [Option.guard, norm2, inDisk?, h]

-- The squares of both parts are not above that of the radius, which leaves room for their sum.
theorem fits_of_mem_span {dx dy : Int} (hr : r * r ≤ 32767 * 32767) (hx : dx ∈ span (-r) r)
    (hy : dy ∈ span (-r) r) : Fits32 (dx * dx) ∧ Fits32 (dy * dy) ∧ Fits32 (dx * dx + dy * dy) := by
  have hx := mul_self_le_of_mem_span hx
  have hy := mul_self_le_of_mem_span hy
  have hx₀ := mul_self_nonneg dx
  have hy₀ := mul_self_nonneg dy
  unfold Fits32
  omega

theorem diskChecked_eq (h₀ : 0 ≤ r) (h : r ≤ 32767) : diskChecked r = .ok (disk r) := by
  have hr : r * r ≤ 32767 * 32767 := mul_self_le_mul_self h₀ h
  have hr₀ := mul_self_nonneg r
  have hcell : ∀ dy ∈ span (-r) r, ∀ dx ∈ span (-r) r, (do
      let x2 ← int32 (dx * dx)
      let y2 ← int32 (dy * dy)
      let d2 ← int32 (x2 + y2)
      return if d2 ≤ r * r then some (Offset.mk dx dy) else none) = .ok (inDisk? r dy dx) := by
    intro dy hy dx hx
    have ⟨hx, hy, hs⟩ := fits_of_mem_span hr hx hy
    rw [int32_of_fits hx, ok_bind, int32_of_fits hy, ok_bind, int32_of_fits hs]
    rfl
  have hrows := mapM_eq_pure fun dy hy => filterMapM_eq_pure (hcell dy hy)
  rw [diskChecked, int32_of_fits ⟨by omega, by omega⟩, ok_bind, hrows, pure_bind, disk_eq_flatMap]
  rfl

theorem square_eq (h : 0 ≤ n) : square n = grid (-(n / 2)) (n - n / 2 - 1) := by
  have hhi : -(n / 2) + n - 1 = n - n / 2 - 1 := by omega
  rw [square, Int.tdiv_eq_ediv_of_nonneg h, hhi]

theorem mem_square_iff (h : 0 ≤ n) :
    o ∈ square n ↔ (-(n / 2) ≤ o.dx ∧ o.dx ≤ n - n / 2 - 1) ∧ -(n / 2) ≤ o.dy ∧ o.dy ≤ n - n / 2 - 1 := by
  rw [square_eq h, mem_grid_iff]

theorem length_square (h : 0 ≤ n) : ((square n).length : Int) = n * n := by
  have hn : (n - n / 2 - 1 - -(n / 2) + 1).toNat = n.toNat := by omega
  rw [square_eq h, length_grid, hn, Int.natCast_mul, Int.toNat_of_nonneg h]

theorem squareChecked_eq (h₀ : 0 ≤ n) (h : n ≤ 46340) : squareChecked n = .ok (square n) := by
  have hn : n * n ≤ 46340 * 46340 := mul_self_le_mul_self h₀ h
  have hn₀ := mul_self_nonneg n
  rw [squareChecked, Int.tdiv_eq_ediv_of_nonneg h₀, int32_of_fits ⟨by omega, by omega⟩, ok_bind,
    int32_of_fits ⟨by omega, by omega⟩, ok_bind, int32_of_fits ⟨by omega, by omega⟩, discard_ok, ok_bind,
    int32_of_fits ⟨by omega, by omega⟩, discard_ok, ok_bind]
  rfl

end Offset

namespace Spray

open Offset

variable {σ : Type} {o : Offset}

theorem chanceAt_eq_inner_iff : chanceAt o = 0.45 ↔ o.dx * o.dx + o.dy * o.dy ≤ 10 * 10 := by
  have hr : radius / 2 = 10 := rfl
  unfold chanceAt
  rw [hr]
  split
  case isTrue h => exact iff_of_true rfl h
  case isFalse h => exact iff_of_false (by decide) h

theorem chanceAt_eq_outer_iff : chanceAt o = 0.30 ↔ ¬o.dx * o.dx + o.dy * o.dy ≤ 10 * 10 := by
  rw [← chanceAt_eq_inner_iff]
  unfold chanceAt
  split <;> decide

-- The elements of a list that have a yes at their place in another list.
def kept (os : List α) (answers : List Bool) : List α :=
  ((os.zip answers).filter (·.2)).map (·.1)

theorem answers_cons (ask : Float → StateM σ Bool) (p : Float) (ps : List Float) (s : σ) :
    (p :: ps).mapM ask s =
      let (yes, s) := ask p s
      let (answers, s) := ps.mapM ask s
      (yes :: answers, s) := by
  rw [List.mapM_cons]
  rfl

theorem length_answers (ask : Float → StateM σ Bool) (ps : List Float) (s : σ) :
    (ps.mapM ask s).1.length = ps.length := by
  induction ps generalizing s
  case nil => rfl
  case cons p ps ih =>
    rw [answers_cons]
    exact congrArg (· + 1) (ih _)

-- One question for each offset, in their order, and no others.
theorem sift_eq_answers (ask : Float → StateM σ Bool) (os : List Offset) (s : σ) :
    sift ask os s =
      let (answers, s) := (os.map chanceAt).mapM ask s
      (kept os answers, s) := by
  induction os generalizing s
  case nil => rfl
  case cons o os ih =>
    rw [sift, List.map_cons, answers_cons]
    simp only [ih]
    rcases ask (chanceAt o) s with ⟨_ | _, s⟩ <;> rfl

theorem exists_answers (ask : Float → StateM σ Bool) (os : List Offset) (s : σ) :
    ∃ answers s', (os.map chanceAt).mapM ask s = (answers, s') ∧ answers.length = os.length ∧
      sift ask os s = (kept os answers, s') ∧ (kept os answers).Sublist os := by
  have hs := sift_eq_answers ask os s
  have hl := length_answers ask (os.map chanceAt) s
  have hk := sift_sublist ask os s
  rcases hm : (os.map chanceAt).mapM ask s with ⟨answers, s'⟩
  rw [hm, List.length_map] at hl
  rw [hm] at hs
  rw [hs] at hk
  exact ⟨answers, s', rfl, hl, hs, hk⟩

-- Disks and squares list their offsets row by row and once, as far as their numbers are words, and so does
-- a spray with those of its disk that any source of answers says yes to.
theorem shapes_list_offsets_once :
    (∀ r : Int, 0 ≤ r → r ≤ 32767 →
      diskChecked r = .ok (disk r) ∧ (disk r).Pairwise IsBefore ∧ (disk r).Nodup ∧
        ∀ o, o ∈ disk r ↔ o.dx * o.dx + o.dy * o.dy ≤ r * r) ∧
    (∀ n : Int, 1 ≤ n → n ≤ 46340 →
      squareChecked n = .ok (square n) ∧ (square n).Pairwise IsBefore ∧ (square n).Nodup ∧
        ((square n).length : Int) = n * n ∧ ⟨0, 0⟩ ∈ square n ∧
        ∀ o, o ∈ square n ↔
          (-(n / 2) ≤ o.dx ∧ o.dx ≤ n - n / 2 - 1) ∧ -(n / 2) ≤ o.dy ∧ o.dy ≤ n - n / 2 - 1) ∧
    (∀ (σ : Type) (ask : Float → StateM σ Bool) (s : σ),
      ∃ answers s', ((disk 20).map chanceAt).mapM ask s = (answers, s') ∧
        answers.length = (disk 20).length ∧
        sift ask (disk 20) s = (kept (disk 20) answers, s') ∧ (kept (disk 20) answers).Sublist (disk 20)) ∧
    (∀ s : Spray, s.cells = sift Spray.ask (disk 20) s) ∧
    ∀ o, (chanceAt o = 0.45 ↔ o.dx * o.dx + o.dy * o.dy ≤ 10 * 10) ∧
      (chanceAt o = 0.30 ↔ ¬o.dx * o.dx + o.dy * o.dy ≤ 10 * 10) := by
  refine ⟨?disk, ?square, ?spray, fun _ => rfl, fun _ => ⟨chanceAt_eq_inner_iff, chanceAt_eq_outer_iff⟩⟩
  case disk =>
    intro r h₀ h
    have hp := pairwise_disk r
    exact ⟨diskChecked_eq h₀ h, hp, hp.imp IsBefore.ne, fun _ => mem_disk_iff h₀⟩
  case square =>
    intro n h₀ h
    have h₁ : 0 ≤ n := Int.le_of_lt h₀
    have hp : (square n).Pairwise IsBefore := pairwise_grid ..
    have hz : ⟨0, 0⟩ ∈ square n := (mem_square_iff h₁).mpr (by dsimp only; omega)
    exact ⟨squareChecked_eq h₁ h, hp, hp.imp IsBefore.ne, length_square h₁, hz, fun _ => mem_square_iff h₁⟩
  case spray => exact fun _ ask s => exists_answers ask (disk 20) s

-- The largest disk and the largest square.
theorem shapes_list_offsets_once_of_largest :
    (0 ≤ (32767 : Int) ∧ diskChecked 32767 = .ok (disk 32767) ∧ ⟨0, -32767⟩ ∈ disk 32767 ∧
      ⟨23170, 23171⟩ ∉ disk 32767) ∧
    1 ≤ (46340 : Int) ∧ squareChecked 46340 = .ok (square 46340) ∧ (square 46340).length = 2147395600 ∧
      ⟨-23170, 23169⟩ ∈ square 46340 ∧ ⟨23170, 0⟩ ∉ square 46340 := by
  have ⟨hd, hs, _⟩ := shapes_list_offsets_once
  have ⟨hd, _, _, hd'⟩ := hd 32767 (by decide) (by decide)
  have ⟨hs, _, _, hl, _, hs'⟩ := hs 46340 (by decide) (by decide)
  refine ⟨⟨by decide, hd, ?_, ?_⟩, by decide, hs, by omega, ?_, ?_⟩
  case refine_1 => exact (hd' _).mpr (by decide)
  case refine_2 => exact mt (hd' _).mp (by decide)
  case refine_3 => exact (hs' _).mpr (by decide)
  case refine_4 => exact mt (hs' _).mp (by decide)

end Spray

end Atelier
