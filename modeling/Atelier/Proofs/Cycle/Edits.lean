import Atelier.Proofs.Canvas.Edits
import Atelier.Studio

/-!
What a cycle can do to the canvas: it draws on it and zooms. It never gives it a size or a scale of its
own, and never puts another picture in its place.
-/

namespace Atelier

namespace Canvas

def Edit.IsDrawing : Edit → Prop
  | resize _ | rescale .. | restore .. => False
  | _ => True

theorem Edit.IsDrawing.isGiven {e : Edit} (h : e.IsDrawing) : e.IsGiven := by
  cases e
  case rescale => exact h.elim
  case restore => exact h.elim
  all_goals trivial

-- One canvas comes from another by drawing and zooming.
def Drawn (c c' : Canvas) : Prop :=
  ∃ es, (∀ e ∈ es, e.IsDrawing) ∧ c.edited es = .ok c'

variable {c c' c'' : Canvas}

theorem Drawn.refl (c : Canvas) : Drawn c c :=
  ⟨[], by simp, rfl⟩

theorem Drawn.trans (h₁ : Drawn c c') (h₂ : Drawn c' c'') : Drawn c c'' := by
  obtain ⟨es, hd, he⟩ := h₁
  obtain ⟨es', hd', he'⟩ := h₂
  refine ⟨es ++ es', fun e hm => (List.mem_append.mp hm).elim (hd e) (hd' e), ?_⟩
  rw [edited, List.foldlM_append, ← edited, he]
  exact he'

theorem Drawn.single {e : Edit} (hd : e.IsDrawing) (h : e.apply c = .ok c') : Drawn c c' := by
  refine ⟨[e], by simpa using hd, ?_⟩
  rw [edited, List.foldlM_cons, h]
  rfl

end Canvas

namespace Studio

open Canvas

variable {s s' : Studio} {a : Option Raster} {m m' : Marks}

theorem drawn_withZoom {z : Zoom} (h : s.withZoom z = .ok s') : s.canvas.Drawn s'.canvas := by
  obtain ⟨⟨c, b⟩, hz, h⟩ := Checked.bind_eq_ok_iff.mp h
  cases h
  refine .single (e := .zoom z) trivial ?_
  rw [Edit.apply, hz]
  rfl

theorem drawn_direct {d : Directive} (h : s.direct d = .ok s') : s.canvas.Drawn s'.canvas := by
  cases d
  case zoomOut => exact drawn_withZoom h
  case zoomIn => exact drawn_withZoom h
  all_goals cases h
  case center => exact .single (e := .center) trivial rfl
  case clearAll => exact (Drawn.single (e := .clear) trivial rfl).trans (.single (e := .center) trivial rfl)
  case fillCanvas => exact .single (e := .fill) trivial rfl
  case useTool t => exact .single (e := .setTool t) trivial rfl
  all_goals exact .refl _

theorem drawn_directAll {ds : List Directive} {out : Directed} (h : s.directAll a ds = .ok out) :
    s.canvas.Drawn out.studio.canvas := by
  induction ds generalizing s a
  case nil =>
    cases h
    exact .refl _
  case cons d ds ih =>
    unfold directAll at h
    split at h
    case h_1 =>
      cases h
      exact .refl _
    case h_2 =>
      obtain ⟨s₁, hd, h⟩ := Checked.bind_eq_ok_iff.mp h
      exact (drawn_direct hd).trans (ih h)

theorem drawn_act {t : Token} (h : s.act m t = .ok (s', m')) : s.canvas.Drawn s'.canvas := by
  cases t
  case move d =>
    obtain ⟨⟨c, o⟩, hm, h⟩ := Checked.bind_eq_ok_iff.mp h
    have hc : s.canvas.Drawn c := by
      refine .single (e := .move d) trivial ?_
      rw [Edit.apply, hm]
      rfl
    simp only at h
    split at h
    all_goals
      cases h
      exact hc
  all_goals cases h
  case penUp => exact .single (e := .setPen false) trivial rfl
  case penDown => exact .single (e := .setPen true) trivial rfl
  case color k => exact .single (e := .setColor k) trivial rfl
  all_goals exact .refl _

theorem drawn_foldlM_act {ts : List Token}
    (h : ts.foldlM (fun (s, m) t => s.act m t) (s, m) = (.ok (s', m') : Checked _)) :
    s.canvas.Drawn s'.canvas := by
  induction ts generalizing s m
  case nil =>
    cases h
    exact .refl _
  case cons t ts ih =>
    rw [List.foldlM_cons] at h
    obtain ⟨⟨s₁, m₁⟩, ha, h⟩ := Checked.bind_eq_ok_iff.mp h
    exact (drawn_act ha).trans (ih h)

theorem drawn_run {ts : List Token} {c : Cycle} (h : s.run ts = .ok (s', c)) :
    s.canvas.Drawn s'.canvas := by
  unfold run at h
  split at h
  case isTrue =>
    cases h
    exact .refl _
  case isFalse =>
    split at h
    case isTrue =>
      cases h
      exact .refl _
    case isFalse =>
      obtain ⟨out, ho, h⟩ := Checked.bind_eq_ok_iff.mp h
      split at h
      case h_1 =>
        cases h
        exact drawn_directAll ho
      case h_2 =>
        obtain ⟨⟨s₁, m⟩, ha, h⟩ := Checked.bind_eq_ok_iff.mp h
        cases h
        exact (drawn_directAll ho).trans (drawn_foldlM_act ha)

end Studio

end Atelier
