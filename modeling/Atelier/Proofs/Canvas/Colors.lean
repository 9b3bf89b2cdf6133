import Atelier.Proofs.Canvas.Edits
import Atelier.Proofs.History
import Mathlib.Data.List.Chain

/-!
The latest colours of a canvas: those that were taken while another colour was active. So a colour never comes
twice in a row, and the last one is the active one.
-/

namespace Atelier

namespace Canvas

-- The colour that an edit takes, if another one is active.
def newColor? (c : Canvas) : Edit → Option Color
  | .setColor k => if k = c.cursor.color then none else some k
  | _           => none

-- The new colours of a run, as they are found on the way.
def newColors (c : Canvas) : List Edit → List Color
  | [] => []
  | e :: es =>
    (c.newColor? e).toList ++
      match e.apply c with
      | .ok c    => c.newColors es
      | .error _ => []

structure SameColors (c c' : Canvas) : Prop where
  active : c'.cursor.color = c.cursor.color
  colors : c'.colors = c.colors

-- What a part of a run with the given new colours does to the colours of a canvas.
structure Recolors (c c' : Canvas) (ks : List Color) : Prop where
  active : c'.cursor.color = ks.getLastD c.cursor.color
  colors : c'.colors = c.colors.extend ks
  chain : (c.cursor.color :: ks).IsChain (· ≠ ·)

variable {c c' c₁ : Canvas} {e : Edit} {es : List Edit} {ks ls : List Color} {n : Nat}

/-! Edits that leave the colours alone -/

theorem sameColors_stroke (h : c.stroke = .ok (c', n)) : c.SameColors c' := by
  obtain ⟨_, _, h⟩ := Checked.bind_eq_ok_iff.mp h
  cases h
  exact ⟨rfl, rfl⟩

theorem sameColors_move {d : Direction} {o : MoveOutcome} (h : c.move d = .ok (c', o)) : c.SameColors c' := by
  obtain _ | _ | ⟨_, _, hs⟩ := lands_of_move h
  case stays => exact ⟨rfl, rfl⟩
  case glides => exact ⟨rfl, rfl⟩
  case paints =>
    have hs := sameColors_stroke hs
    exact ⟨hs.active, hs.colors⟩

theorem color_shiftCursor {k k' : Cursor} {o : Offset} {width height : Nat}
    (h : shiftCursor k o width height = .ok k') : k'.color = k.color := by
  obtain ⟨_, _, h⟩ := Checked.bind_eq_ok_iff.mp h
  obtain ⟨_, _, h⟩ := Checked.bind_eq_ok_iff.mp h
  cases h
  rfl

theorem sameColors_resize {size : Size} (h : c.resize size = .ok c') : c.SameColors c' := by
  obtain ⟨rfl, _⟩ | ⟨_, hk, rfl⟩ := resize_eq_ok h
  case inl => exact ⟨rfl, rfl⟩
  case inr => exact ⟨color_shiftCursor hk, rfl⟩

theorem sameColors_zoom {z : Zoom} {b : Bool} (h : c.zoom z = .ok (c', b)) : c.SameColors c' := by
  obtain rfl | ⟨_, _, hr⟩ := zoom_eq_ok h
  case inl => exact ⟨rfl, rfl⟩
  case inr =>
    have hs := sameColors_resize hr
    exact ⟨hs.active, hs.colors⟩

theorem sameColors_rescale {screen : Size} {scale : Float} (h : c.rescale screen scale = .ok c') :
    c.SameColors c' := by
  obtain ⟨_, _, hr⟩ := Checked.bind_eq_ok_iff.mp h
  have hs := sameColors_resize hr
  exact ⟨hs.active, hs.colors⟩

/-! Runs -/

theorem SameColors.recolors (h : c.SameColors c') : c.Recolors c' [] :=
  ⟨h.active, h.colors, .singleton _⟩

theorem Recolors.append (h₁ : c.Recolors c₁ ks) (h₂ : c₁.Recolors c' ls) : c.Recolors c' (ks ++ ls) where
  active := by
    rw [h₂.active, h₁.active]
    cases ls using List.reverseRecOn <;> simp
  colors := by rw [h₂.colors, h₁.colors, History.extend_append]
  chain := by
    refine List.IsChain.append h₁.chain h₂.chain.tail fun k hk l hl => ?_
    obtain rfl : c₁.cursor.color = k := by
      rw [List.getLast?_cons, ← List.getLastD_eq_getLast?, ← h₁.active] at hk
      exact Option.some.inj hk
    exact h₂.chain.rel_head? hl

theorem recolors_setColor (c : Canvas) (k : Color) :
    c.Recolors (c.setColor k) (c.newColor? (.setColor k)).toList := by
  by_cases h : c.cursor.color = k
  case pos =>
    simp only [setColor, newColor?, h, if_true]
    exact SameColors.recolors ⟨rfl, rfl⟩
  case neg =>
    simp only [setColor, newColor?, h, Ne.symm h, if_false]
    exact ⟨rfl, rfl, .cons_cons h (.singleton k)⟩

theorem recolors_apply (hr : ∀ stored k colors, e ≠ .restore stored k colors) (h : e.apply c = .ok c') :
    c.Recolors c' (c.newColor? e).toList := by
  cases e
  case move d =>
    obtain ⟨o, hm⟩ := Checked.fst_eq_ok_iff.mp h
    exact (sameColors_move hm).recolors
  case stroke =>
    obtain ⟨n, hs⟩ := Checked.fst_eq_ok_iff.mp h
    exact (sameColors_stroke hs).recolors
  case zoom z =>
    obtain ⟨b, hz⟩ := Checked.fst_eq_ok_iff.mp h
    exact (sameColors_zoom hz).recolors
  case resize size => exact (sameColors_resize h).recolors
  case rescale screen scale => exact (sameColors_rescale h).recolors
  case restore stored k colors => exact absurd rfl (hr stored k colors)
  case setColor k =>
    cases h
    exact c.recolors_setColor k
  all_goals
    cases h
    exact SameColors.recolors ⟨rfl, rfl⟩

theorem recolors_edited (hr : ∀ stored k colors, .restore stored k colors ∉ es) (h : c.edited es = .ok c') :
    c.Recolors c' (c.newColors es) := by
  induction es generalizing c
  case nil =>
    cases h
    exact SameColors.recolors ⟨rfl, rfl⟩
  case cons e es ih =>
    obtain ⟨c₁, he, h⟩ := edited_cons_eq_ok_iff.mp h
    simp only [List.mem_cons, not_or] at hr
    have h₁ := recolors_apply (fun stored k colors => Ne.symm (hr stored k colors).left) he
    rw [newColors, he]
    exact h₁.append (ih (fun stored k colors => (hr stored k colors).right) h)

theorem isNew_build {o : Origin} {spray : Spray} (h : o.build spray = .ok c) : c.IsNew := by
  cases o
  case size => exact isNew_ofSize h
  case screen => exact isNew_ofScreen h

-- As long as nothing is restored, the history is that of the colours that were new when they were taken.
theorem colors_of_edits {o : Origin} {spray : Spray} (hb : o.build spray = .ok c) (h : c.edited es = .ok c')
    (hr : ∀ stored k colors, .restore stored k colors ∉ es) :
    c'.colors.items <:+ c.newColors es ∧ c'.colors.length = min 20 (c.newColors es).length ∧
    c'.colors.items.IsChain (· ≠ ·) ∧ ∀ k ∈ c'.colors.items.getLast?, k = c'.cursor.color := by
  have hc := recolors_edited hr h
  have hw : c'.colors = ⟨lastOf 20 (c.newColors es), 20⟩ := by
    rw [hc.colors, (isNew_build hb).colors]
    exact History.ofList_eq 20 _
  rw [hw]
  refine ⟨lastOf_suffix .., length_lastOf .., hc.chain.tail.suffix (lastOf_suffix ..), fun k hk => ?_⟩
  obtain ⟨front, hf⟩ := lastOf_suffix 20 (c.newColors es)
  rw [hc.active, ← hf, List.getLastD_eq_getLast?, List.getLast?_append, Option.mem_def.mp hk]
  rfl

-- More changes than the history holds, with the active colour taken again on the way and other edits between.
def vivid : List Edit :=
  [.setColor .white, .move .left] ++
    (List.replicate 11 [.setColor .red, .stroke, .setColor .red, .setTool .pen, .setColor .blue]).flatten ++
    [.resize ⟨2, 5⟩, .fill, .setColor .blue]

theorem colors_of_edits_of_vivid :
    ∃ c c', (Origin.size ⟨4, 4⟩).build (.scripted (fun _ _ => true) 0) = .ok c ∧ c.edited vivid = .ok c' ∧
      (∀ stored k colors, .restore stored k colors ∉ vivid) ∧ (c.newColors vivid).length = 22 ∧
      c'.colors.items <:+ c.newColors vivid ∧ c'.colors.length = 20 ∧ c'.colors.items.IsChain (· ≠ ·) := by
  have h : ((Origin.size ⟨4, 4⟩).build (.scripted (fun _ _ => true) 0)).toOption.any fun c =>
      (c.edited vivid).toOption.any (fun _ => true) ∧ (c.newColors vivid).length = 22 := by
    decide +kernel
  have hr : ∀ stored k colors, Edit.restore stored k colors ∉ vivid := by simp [vivid]
  obtain ⟨c, hb, hc⟩ := Checked.exists_eq_ok_of_any h
  have ⟨he, hn⟩ := of_decide_eq_true hc
  obtain ⟨c', he, _⟩ := Checked.exists_eq_ok_of_any he
  obtain ⟨hs, hl, hd, _⟩ := colors_of_edits hb he hr
  rw [hn] at hl
  exact ⟨c, c', hb, he, hr, hn, hs, hl, hd⟩

end Canvas

end Atelier
