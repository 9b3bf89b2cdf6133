import Atelier.Proofs.Canvas.Palette
import Atelier.Proofs.Raster.Cells
import Atelier.Proofs.Tally
import Atelier.View

/-!
What an overview counts. Each cell that is not black is counted once: for its colour, or as an unknown one. Drawing
leaves no unknown cells.
-/

namespace Atelier

namespace Overview

/-! Counting cell by cell -/

def uncounted (total : Nat) : Overview :=
  ⟨0, total, .empty, 0⟩

-- One more cell that is not black.
def count (o : Overview) (v : Rgb) : Overview :=
  match Color.classify v with
  | some k => { o with filled := o.filled + 1, counts := o.counts.add k 1 }
  | none   => { o with filled := o.filled + 1, unknown := o.unknown + 1 }

def number (vs : List Rgb) (k : Color) : Option Nat :=
  if vs.count k.rgb = 0 then none else some (vs.count k.rgb)

def ofCells (total : Nat) (vs : List Rgb) : Overview :=
  ⟨vs.length, total, .ofFunction (number vs), vs.countP fun v => (Color.classify v).isNone⟩

variable {o : Overview} {r : Raster} {v : Rgb} {vs : List Rgb} {k : Color} {n total : Nat}

theorem number_eq_some_iff : number vs k = some n ↔ n ≠ 0 ∧ n = vs.count k.rgb := by
  unfold number
  split <;> grind

theorem getD_number (vs : List Rgb) (k : Color) : (number vs k).getD 0 = vs.count k.rgb := by
  unfold number
  split <;> simp_all

theorem number_append_of_ne (h : v ≠ k.rgb) : number (vs ++ [v]) k = number vs k := by
  simp [number, List.count_append, h]

theorem number_append_rgb (vs : List Rgb) (k : Color) :
    number (vs ++ [k.rgb]) k = some ((number vs k).getD 0 + 1) := by
  rw [getD_number, number_eq_some_iff, List.count_append, List.count_singleton_self]
  exact ⟨Nat.succ_ne_zero _, rfl⟩

theorem count_ofCells (total : Nat) (vs : List Rgb) (v : Rgb) :
    (ofCells total vs).count v = ofCells total (vs ++ [v]) := by
  unfold count ofCells
  cases hv : Color.classify v
  case none =>
    have hn : number (vs ++ [v]) = number vs := by
      funext k
      exact number_append_of_ne fun h => by simp [h, Color.classify_rgb] at hv
    simp [hn, hv]
  case some k =>
    obtain rfl := Color.classify_eq_some_iff.mp hv
    have hn : (Tally.ofFunction (number vs)).add k 1 = .ofFunction (number (vs ++ [k.rgb])) := by
      apply congrArg Tally.ofFunction
      funext l
      rw [Tally.get?_ofFunction, Tally.get?_ofFunction]
      split
      case isTrue hl => rw [hl, number_append_rgb]
      case isFalse hl => rw [number_append_of_ne fun h => hl (Color.rgb_injective h).symm]
    simp [hn, hv]

theorem foldl_count (total : Nat) (vs : List Rgb) : vs.foldl count (uncounted total) = ofCells total vs := by
  induction vs using List.reverseRecOn
  case nil => rfl
  case append_singleton vs v ih => rw [List.foldl_concat, ih, count_ofCells]

theorem ofRaster_eq (r : Raster) : ofRaster r = ofCells r.cells.size (r.cells.toList.filter (!·.isBlack)) := by
  rw [← Array.toList_filter, ofCells, Array.length_toList, Array.countP_toList]
  unfold number
  simp only [List.count, Array.countP_toList]
  rfl

-- The cells that are not black are counted one after the other.
theorem ofRaster_eq_foldl (r : Raster) :
    ofRaster r = (r.cells.toList.filter (!·.isBlack)).foldl count (uncounted r.cells.size) := by
  rw [foldl_count, ofRaster_eq]

/-! Sums -/

-- Each counted cell is in one of the numbers.
structure Balances (o : Overview) : Prop where
  isOrdered : o.counts.IsOrdered
  filled : o.filled = o.unknown + o.counts.total

theorem balances_uncounted (total : Nat) : (uncounted total).Balances :=
  ⟨Tally.isOrdered_empty, rfl⟩

theorem Balances.count (h : o.Balances) (v : Rgb) : (o.count v).Balances := by
  unfold Overview.count
  cases Color.classify v
  case none => exact ⟨h.isOrdered, by simp [h.filled, Nat.add_right_comm]⟩
  case some k => exact ⟨Tally.isOrdered_add .., by simp [h.filled, h.isOrdered.total_add, Nat.add_assoc]⟩

theorem Balances.foldl_count (h : o.Balances) (vs : List Rgb) : (vs.foldl Overview.count o).Balances := by
  induction vs generalizing o
  case nil => exact h
  case cons v vs ih => exact ih (h.count v)

theorem balances_ofRaster (r : Raster) : (ofRaster r).Balances := by
  rw [ofRaster_eq_foldl]
  exact (balances_uncounted _).foldl_count _

/-! Numbers -/

theorem filled_ofRaster (r : Raster) : (ofRaster r).filled = r.paintedCount := by
  rw [ofRaster_eq, r.paintedCount_eq, List.countP_eq_length_filter]
  rfl

theorem count_filter_rgb (vs : List Rgb) (k : Color) :
    (vs.filter (!·.isBlack)).count k.rgb = if k = .black then 0 else vs.count k.rgb := by
  split
  case isTrue hk =>
    subst hk
    rw [List.count_eq_zero, List.mem_filter]
    exact fun h => absurd h.right (by decide)
  case isFalse hk =>
    have hb : k.rgb.isBlack = false := by
      cases k
      case black => contradiction
      all_goals decide
    exact List.count_filter (by simp [hb])

theorem keys_ofRaster_sublist (r : Raster) : ((ofRaster r).counts.entries.map Prod.fst).Sublist Color.all :=
  Tally.keys_ofFunction_sublist _

theorem mem_entries_iff : (k, n) ∈ (ofRaster r).counts.entries ↔ k ≠ .black ∧ n ≠ 0 ∧ n = r.cells.count k.rgb := by
  rw [ofRaster_eq, ofCells, Tally.mem_ofFunction_iff, number_eq_some_iff, count_filter_rgb, Array.count_toList]
  split <;> grind

theorem unknown_ofRaster (r : Raster) :
    (ofRaster r).unknown = r.cells.countP fun v => v ≠ Rgb.black ∧ ∀ k ∈ Color.all, v ≠ k.rgb := by
  rw [ofRaster_eq, ofCells, List.countP_filter, ← Array.countP_toList]
  apply List.countP_congr
  intro v _
  have hb : v.isBlack = false ↔ v ≠ Rgb.black := by rw [← Bool.not_eq_true, Rgb.isBlack_iff]
  simp [Option.isNone_iff_eq_none, Color.classify_eq_none_iff, Color.mem_all, hb, and_comm]

theorem unknown_eq_zero_iff : (ofRaster r).unknown = 0 ↔ ∀ v ∈ r.cells, v.InPalette := by
  rw [unknown_ofRaster, Array.countP_eq_zero]
  refine forall₂_congr fun v _ => ?_
  rw [decide_eq_true_eq, Rgb.InPalette]
  constructor
  case mp =>
    intro h
    by_contra hn
    exact h ⟨fun hb => hn ⟨.black, hb⟩, fun k _ hk => hn ⟨k, hk⟩⟩
  case mpr =>
    rintro ⟨k, rfl⟩ ⟨_, hk⟩
    exact hk k k.mem_all rfl

-- An overview is counted cell by cell, and its numbers are those of a partition of the cells: the black ones, those of
-- each other colour, and the rest. There is no rest as long as no picture is restored.
theorem overview_partitions_canvas :
    (∀ r : Raster, let o := ofRaster r
      o = (r.cells.toList.filter (!·.isBlack)).foldl count (uncounted r.cells.size) ∧
      o.total = r.cells.size ∧ o.filled = r.paintedCount ∧ o.filled = o.unknown + o.counts.total ∧
      (o.counts.entries.map Prod.fst).Sublist Color.all ∧
      (∀ k n, (k, n) ∈ o.counts.entries ↔ k ≠ .black ∧ n ≠ 0 ∧ n = r.cells.count k.rgb) ∧
      o.unknown = r.cells.countP fun v => v ≠ Rgb.black ∧ ∀ k ∈ Color.all, v ≠ k.rgb) ∧
    ∀ (c c' : Canvas) (es : List Canvas.Edit), c.raster.IsBlank → c.edited es = .ok c' →
      (∀ r k colors, .restore (some r) k colors ∉ es) → (ofRaster c'.raster).unknown = 0 := by
  refine ⟨fun r => ?_, fun c c' es hb he hr => ?_⟩
  case refine_1 =>
    exact ⟨ofRaster_eq_foldl r, rfl, filled_ofRaster r, (balances_ofRaster r).filled, keys_ofRaster_sublist r,
      fun _ _ => mem_entries_iff, unknown_ofRaster r⟩
  case refine_2 => exact unknown_eq_zero_iff.mpr (Canvas.inPalette_of_edited hb hr he)

-- One cell is black, and one is of no colour of the palette.
def speckled : Raster :=
  ⟨2, 2, #[Color.red.rgb, Rgb.black, Color.red.rgb, ⟨1, 2, 3⟩]⟩

-- A red canvas with a blue stroke on it, of which a part is cut off.
def coloring : List Canvas.Edit :=
  [.setColor .red, .fill, .setColor .blue, .setTool .pen, .stroke, .resize ⟨3, 6⟩]

theorem overview_partitions_canvas_of_coloring :
    ((ofRaster speckled).filled = 3 ∧ (.red, 2) ∈ (ofRaster speckled).counts.entries ∧
      (ofRaster speckled).unknown = 1) ∧
    ∃ c c', (Canvas.Origin.size ⟨4, 4⟩).build (.scripted (fun _ _ => true) 0) = .ok c ∧ c.raster.IsBlank ∧
      c.edited coloring = .ok c' ∧ (∀ r k colors, .restore (some r) k colors ∉ coloring) ∧
      (ofRaster c'.raster).unknown = 0 := by
  obtain ⟨hn, hu⟩ := overview_partitions_canvas
  constructor
  case left =>
    obtain ⟨_, _, hf, _, _, he, hs⟩ := hn speckled
    exact ⟨hf.trans (by decide), (he .red 2).mpr (by decide), hs.trans (by decide)⟩
  case right =>
    have h : ((Canvas.Origin.size ⟨4, 4⟩).build (.scripted (fun _ _ => true) 0)).toOption.any fun c =>
        c.raster.IsBlank ∧ (c.edited coloring).toOption.any fun _ => true := by
      decide +kernel
    have hr : ∀ r k colors, Canvas.Edit.restore (some r) k colors ∉ coloring := by simp [coloring]
    obtain ⟨c, hb, hc⟩ := Checked.exists_eq_ok_of_any h
    have ⟨hblank, he⟩ := of_decide_eq_true hc
    obtain ⟨c', he, _⟩ := Checked.exists_eq_ok_of_any he
    exact ⟨c, c', hb, hblank, he, hr, hu c c' coloring hblank he hr⟩

end Overview

end Atelier
