import Atelier.Spray
import Mathlib.Algebra.Order.Ring.Abs
import Mathlib.Tactic.Linarith

/-!
What footprints list: each offset once, since they read a grid row by row or column by column. The spray
lists those offsets of its disk that its source says yes to, asked about one after another.
-/

namespace Atelier

theorem pairwise_span (lo hi : Int) : (span lo hi).Pairwise (· < ·) := by
  rw [span, List.pairwise_map]
  exact List.pairwise_lt_range.imp fun h => by omega

theorem length_span (lo hi : Int) : (span lo hi).length = (hi - lo + 1).toNat := by
  rw [span, List.length_map, List.length_range]

theorem getElem?_span {lo hi i : Int} (hl : lo ≤ i) (hh : i ≤ hi) : (span lo hi)[(i - lo).toNat]? = some i := by
  have hi : (i - lo).toNat < (hi - lo + 1).toNat := by omega
  rw [span, List.getElem?_map, List.getElem?_range hi, Option.map_some]
  exact congrArg some (by omega)

theorem mul_self_le_of_mem_span {r i : Int} (h : i ∈ span (-r) r) : i * i ≤ r * r := by
  obtain ⟨_, _⟩ := mem_span_iff.mp h
  nlinarith

namespace Offset

variable {o p : Offset} {os : List Offset}

-- The order in which rows are read, from the top.
def IsBefore (o p : Offset) : Prop :=
  o.dy < p.dy ∨ o.dy = p.dy ∧ o.dx < p.dx

-- The order in which columns are read, from the left.
def IsLeftOf (o p : Offset) : Prop :=
  o.dx < p.dx ∨ o.dx = p.dx ∧ o.dy < p.dy

theorem IsBefore.ne (h : o.IsBefore p) : o ≠ p := by
  rintro rfl
  unfold IsBefore at h
  omega

theorem IsLeftOf.ne (h : o.IsLeftOf p) : o ≠ p := by
  rintro rfl
  unfold IsLeftOf at h
  omega

theorem pairwise_grid (lo hi : Int) : (grid lo hi).Pairwise IsBefore := by
  rw [grid, List.pairwise_flatMap]
  refine ⟨?row, (pairwise_span lo hi).imp ?rows⟩
  case row =>
    intro dy _
    rw [List.pairwise_map]
    exact (pairwise_span lo hi).imp fun h => .inr ⟨rfl, h⟩
  case rows =>
    intro y y' hy o ho p hp
    obtain ⟨_, _, rfl⟩ := List.mem_map.mp ho
    obtain ⟨_, _, rfl⟩ := List.mem_map.mp hp
    exact .inl hy

theorem nodup_grid (lo hi : Int) : (grid lo hi).Nodup :=
  (pairwise_grid lo hi).imp IsBefore.ne

theorem nodup_flower : flower.Nodup := by
  have hc : flower.Pairwise IsLeftOf := by
    rw [flower, List.pairwise_flatMap]
    refine ⟨?column, (pairwise_span (-16) 16).imp ?columns⟩
    case column =>
      intro dx _
      rw [List.pairwise_filterMap]
      refine (pairwise_span (-16) 16).imp fun h o ho p hp => ?_
      cases (Option.ite_none_right_eq_some.mp ho).right
      cases (Option.ite_none_right_eq_some.mp hp).right
      exact .inr ⟨rfl, h⟩
    case columns =>
      intro x x' hx o ho p hp
      obtain ⟨_, _, ho⟩ := List.mem_filterMap.mp ho
      obtain ⟨_, _, hp⟩ := List.mem_filterMap.mp hp
      cases (Option.ite_none_right_eq_some.mp ho).right
      cases (Option.ite_none_right_eq_some.mp hp).right
      exact .inl hx
  exact hc.imp IsLeftOf.ne

theorem nodup_footprint {t : Tool} (h : t.footprint = .fixed os) : os.Nodup := by
  have hn {cells : List Offset} (h : Footprint.fixed cells = .fixed os) (hn : cells.Nodup) : os.Nodup :=
    Footprint.fixed.inj h ▸ hn
  cases t
  case spray => contradiction
  case flower => exact hn h nodup_flower
  case pen => exact hn h (nodup_grid ..)
  case brush => exact hn h (nodup_grid ..)
  case largeBrush => exact hn h (nodup_grid ..)
  case largerBrush => exact hn h (nodup_grid ..)
  case star => exact hn h ((nodup_grid ..).filter _)
  case cross => exact hn h ((nodup_grid ..).filter _)
  case circle => exact hn h ((nodup_grid ..).filter _)
  case diamond => exact hn h ((nodup_grid ..).filter _)

theorem mem_disk_iff {radius : Int} (hr : 0 ≤ radius) : o ∈ disk radius ↔ o.norm2 ≤ radius * radius := by
  simp only [disk, List.mem_filter, mem_grid_iff, decide_eq_true_eq, and_iff_right_iff_imp]
  intro h
  have hx : o.dx ^ 2 ≤ radius ^ 2 := by
    unfold norm2 at h
    nlinarith [mul_self_nonneg o.dy]
  have hy : o.dy ^ 2 ≤ radius ^ 2 := by
    unfold norm2 at h
    nlinarith [mul_self_nonneg o.dx]
  exact ⟨abs_le_of_sq_le_sq' hx hr, abs_le_of_sq_le_sq' hy hr⟩

end Offset

namespace Spray

variable {s : Spray} {o : Offset} {os : List Offset}

-- The source after it has been asked about some offsets.
def after (s : Spray) (os : List Offset) : Spray :=
  os.foldl (fun s o => (s.ask (chanceAt o)).2) s

-- Asked about a list of offsets in its order, the source says yes to one of them.
def Accepts (s : Spray) (os : List Offset) (o : Offset) : Prop :=
  ∃ before behind, os = before ++ o :: behind ∧ ((s.after before).ask (chanceAt o)).1

theorem not_accepts_nil : ¬s.Accepts [] o := by
  rintro ⟨before, behind, h, _⟩
  exact absurd h (by simp)

theorem accepts_cons_iff {p : Offset} :
    s.Accepts (p :: os) o ↔
      (o = p ∧ (s.ask (chanceAt p)).1) ∨ (s.ask (chanceAt p)).2.Accepts os o := by
  constructor
  case mp =>
    rintro ⟨before, behind, h, ha⟩
    cases before
    case nil =>
      cases h
      exact .inl ⟨rfl, ha⟩
    case cons q before =>
      cases h
      exact .inr ⟨before, behind, rfl, ha⟩
  case mpr =>
    rintro (⟨rfl, ha⟩ | ⟨before, behind, rfl, ha⟩)
    case inl => exact ⟨[], os, rfl, ha⟩
    case inr => exact ⟨p :: before, behind, rfl, ha⟩

theorem mem_pick_iff : o ∈ (pick os s).1 ↔ s.Accepts os o := by
  induction os generalizing s
  case nil => exact iff_of_false List.not_mem_nil not_accepts_nil
  case cons p os ih =>
    rw [accepts_cons_iff, ← ih, pick, sift]
    cases ha : (s.ask (chanceAt p)).1 <;> simp [ha]

theorem pick_source (os : List Offset) (s : Spray) : (pick os s).2 = s.after os := by
  induction os generalizing s
  case nil => rfl
  case cons p os ih => exact ih _

-- The disk is read row by row.
theorem pairwise_reach : reach.Pairwise Offset.IsBefore :=
  (Offset.pairwise_grid ..).filter _

theorem mem_reach_iff : o ∈ reach ↔ o.norm2 ≤ 400 :=
  Offset.mem_disk_iff (by decide)

theorem nodup_cells (s : Spray) : s.cells.1.Nodup :=
  (pairwise_reach.imp Offset.IsBefore.ne).sublist s.cells_sublist

end Spray

end Atelier
