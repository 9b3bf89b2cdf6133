import Atelier.Proofs.Canvas.Fitted
import Atelier.Proofs.Cycle.Tallying
import Atelier.Proofs.Scan.Rendering
import Mathlib.Algebra.Order.BigOperators.Group.List

/-!
Cycles on canvases that fill their screen. No code is stopped on one of them, and no code paints more than
its tokens can: each of them comes to one stroke at most, and no stroke is larger than the largest tool.
-/

namespace Atelier

namespace Canvas

variable {c : Canvas} {screen : Size}

theorem Fitted.exists_zoom (h : c.Fitted screen) (hs : screen.IsShort) (z : Zoom) :
    ∃ c' b, c.zoom z = .ok (c', b) := by
  have hshort : ¬c.IsAtEnd z → ∀ size, dims c.screen (c.nextScale z) = .ok size → size.IsShort :=
    fun _ _ hd => isShort_of_dims (h.screen_eq ▸ hs) (clampScale_nextScale c z ▸ hd)
  have ⟨c', b, hz, _⟩ := h.sound.zoom hshort
  exact ⟨c', b, hz⟩

-- All tools paint within a square of 41 cells a side.
theorem card_struck_le (c : Canvas) : c.struck.card ≤ 1681 := by
  have hg : (Offset.grid (-20) 20).length = 1681 := by decide +kernel
  have hs : c.footprint.1 ⊆ Offset.grid (-20) 20 := fun o ho =>
    Offset.mem_grid_iff.mpr (isNear_of_mem_footprint ho)
  rw [card_struck, ← hg]
  exact List.countP_le_length.trans (c.nodup_footprint.subperm hs).length_le

end Canvas

namespace Studio

variable {s s' : Studio} {m : Marks} {a : Option Raster} {screen : Size} {c : Cycle} {ts : List Token}

/-! Codes are not stopped -/

theorem exists_direct (h : s.canvas.Fitted screen) (hs : screen.IsShort) (d : Directive) :
    ∃ s', s.direct d = .ok s' := by
  have hz (z : Zoom) : ∃ s', s.withZoom z = .ok s' := by
    have ⟨c, b, hz⟩ := h.exists_zoom hs z
    exact ⟨_, by rw [withZoom, hz]; rfl⟩
  cases d
  case zoomOut => exact hz _
  case zoomIn => exact hz _
  all_goals exact ⟨_, rfl⟩

theorem exists_directAll (h : s.canvas.Fitted screen) (hs : screen.IsShort) (ds : List Directive) :
    ∃ d, s.directAll a ds = .ok d := by
  induction ds generalizing s a
  case nil => exact ⟨_, rfl⟩
  case cons d ds ih =>
    unfold directAll
    split
    case h_1 => exact ⟨_, rfl⟩
    case h_2 =>
      obtain ⟨s₁, hd⟩ := exists_direct h hs d
      rw [hd]
      exact ih (h.drawn hs (drawn_direct hd))

theorem exists_act (h : s.canvas.Fitted screen) (t : Token) : ∃ s' m', s.act m t = .ok (s', m') := by
  cases t
  case move d =>
    obtain ⟨c, o, hm, _⟩ := h.sound.move d
    simp only [act, hm, Checked.ok_bind]
    split <;> exact ⟨_, _, rfl⟩
  all_goals exact ⟨_, _, rfl⟩

theorem exists_actFrom (h : s.canvas.Fitted screen) (hs : screen.IsShort) (ts : List Token) :
    ∃ s' m', s.actFrom m ts = .ok (s', m') := by
  induction ts generalizing s m
  case nil => exact ⟨_, _, rfl⟩
  case cons t ts ih =>
    obtain ⟨s₁, m₁, ha⟩ := exists_act (m := m) h t
    rw [actFrom_cons, ha, Checked.ok_bind]
    exact ih (h.drawn hs (drawn_act ha))

theorem exists_run (h : s.canvas.Fitted screen) (hs : screen.IsShort) (ts : List Token) :
    ∃ s' c, s.run ts = .ok (s', c) := by
  by_cases hn : ts = []
  case pos => exact ⟨s, _, by rw [hn]; rfl⟩
  case neg =>
    by_cases hp : .thinkPause ∈ ts
    case pos => exact ⟨s, _, run_of_thinkPause hp⟩
    case neg =>
      obtain ⟨d, hd⟩ := exists_directAll (a := none) h hs (Token.directives ts)
      rw [run_eq_passes hn hp, hd, Checked.ok_bind]
      unfold finish
      split
      case h_1 => exact ⟨_, _, rfl⟩
      case h_2 =>
        obtain ⟨s', m, ha⟩ := exists_actFrom (m := .none) (h.drawn hs (drawn_directAll hd)) hs ts
        exact ⟨s', _, by rw [ha]; rfl⟩

/-! Codes paint only so much -/

theorem length_strokes_le (s : Studio) (ts : List Token) : (s.strokes ts).length ≤ ts.length := by
  induction ts generalizing s
  case nil => exact Nat.le_refl 0
  case cons t ts ih =>
    have ht : (s.stroke? t).toList.length ≤ 1 := by cases s.stroke? t <;> simp
    rw [strokes, List.length_append, List.length_cons, Nat.add_comm]
    refine Nat.add_le_add ?_ ht
    split
    case h_1 s₁ _ _ => exact ih s₁
    case h_2 => exact Nat.zero_le _

theorem painted_le_of_actFrom (h : s.actFrom .none ts = .ok (s', m)) : m.painted ≤ 1681 * ts.length := by
  have hp : m.painted = ((s.strokes ts).map fun k => k.struck.card).sum :=
    (accounts_actFrom h).painted.trans (Nat.zero_add _)
  have hc : ((s.strokes ts).map fun k => k.struck.card).sum ≤ (s.strokes ts).length * 1681 := by
    have hb : ∀ n ∈ (s.strokes ts).map fun k => k.struck.card, n ≤ 1681 := by
      intro n hn
      obtain ⟨k, _, rfl⟩ := List.mem_map.mp hn
      exact k.card_struck_le
    simpa using List.sum_le_card_nsmul _ 1681 hb
  rw [hp]
  refine hc.trans ?_
  rw [Nat.mul_comm]
  exact Nat.mul_le_mul_left 1681 (s.length_strokes_le ts)

theorem painted_le_of_run (h : s.run ts = .ok (s', c)) : c.marks.painted ≤ 1681 * ts.length := by
  cases unmarked_or_acted h
  case inl hm =>
    rw [hm.right]
    exact Nat.zero_le _
  case inr ha =>
    obtain ⟨d, _, ha⟩ := ha
    exact painted_le_of_actFrom ha

end Studio

namespace Token

-- A code that is read has at most as many tokens as characters.
theorem length_le_length_render (ts : List Token) : ts.length ≤ (render ts).length := by
  induction ts
  case nil => exact Nat.le_refl 0
  case cons t ts ih =>
    have ht := List.length_pos_iff.mpr t.literal_ne_nil
    rw [render_cons, List.length_append, List.length_cons]
    omega

theorem length_scan_le (raw : String) : (scan raw).length ≤ 160 := by
  cases scan_eq_or raw
  case inl h =>
    rw [h]
    decide
  case inr h => exact (length_le_length_render _).trans h.right

end Token

end Atelier
