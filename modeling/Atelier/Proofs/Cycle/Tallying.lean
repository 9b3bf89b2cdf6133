import Atelier.Proofs.Canvas.Stroke
import Atelier.Proofs.Cycle.Edits
import Atelier.Proofs.Cycle.Joining
import Mathlib.Data.Set.Card

/-!
What a cycle counts. Its marks follow from its strokes, one for each move that changes the position with the
pen down: the cells that they write are counted, under the colour that they are written in, and no other
cell changes after the directives.
-/

namespace Atelier

namespace Canvas

-- The canvas as a move with the pen down finds it for its stroke, with the cursor where it has come to. It
-- is not found by a move that the edges stop at once.
def arrival? (c : Canvas) (d : Direction) : Option Canvas :=
  let x := nearest c.width (c.cursor.x + d.dx * stride)
  let y := nearest c.height (c.cursor.y + d.dy * stride)
  if (x ≠ c.cursor.x ∨ y ≠ c.cursor.y) ∧ c.cursor.penDown then
    some { c with cursor := { c.cursor with x := x, y := y } }
  else
    none

variable {c c' k : Canvas} {d : Direction} {o : MoveOutcome}

theorem raster_of_arrival? (h : c.arrival? d = some k) : k.raster = c.raster := by
  obtain ⟨_, h⟩ := Option.ite_none_right_eq_some.mp h
  cases h
  rfl

theorem penDown_of_arrival? (h : c.arrival? d = some k) : k.cursor.penDown := by
  obtain ⟨⟨_, hd⟩, h⟩ := Option.ite_none_right_eq_some.mp h
  cases h
  exact hd

theorem arrival?_eq (c : Canvas) (d : Direction) :
    c.arrival? d =
      if c.landing d ≠ c.cursor ∧ c.cursor.penDown then some { c with cursor := c.landing d } else none := by
  simp only [arrival?, ne_eq, landing_eq_iff, not_and_or]
  rfl

-- A move comes to a stroke, or the picture stays as it is.
theorem move_eq_ok (h : c.move d = .ok (c', o)) :
    (∃ k, c.arrival? d = some k ∧ k.stroke = .ok (c', o.painted) ∧ o.moved) ∨
    (c.arrival? d = none ∧ c'.raster = c.raster ∧ (o.moved && c'.cursor.penDown) = false) := by
  rw [arrival?_eq]
  obtain hl | ⟨hl, hp⟩ | ⟨hl, hp, hs⟩ := lands_of_move h
  case stays => exact .inr ⟨if_neg fun h => h.left hl, rfl, rfl⟩
  case glides => exact .inr ⟨if_neg fun h => Bool.false_ne_true (hp.symm.trans h.right), rfl, hp⟩
  case paints => exact .inl ⟨_, if_pos ⟨hl, hp⟩, hs, rfl⟩

/-! The picture. It keeps a cell for each position, whatever is drawn. -/

theorem wellFormed_resize {size : Size} (hr : c.raster.WellFormed) (h : c.resize size = .ok c') :
    c'.raster.WellFormed := by
  cases resize_eq_ok h
  case inl h => exact h.left ▸ hr
  case inr h =>
    obtain ⟨_, _, rfl⟩ := h
    exact Raster.wellFormed_centredIn ..

theorem wellFormed_zoom {z : Zoom} {b : Bool} (hr : c.raster.WellFormed) (h : c.zoom z = .ok (c', b)) :
    c'.raster.WellFormed := by
  cases zoom_eq_ok h
  case inl h =>
    rw [h]
    exact hr
  case inr h =>
    have ⟨_, _, h⟩ := h
    exact wellFormed_resize (c := { c with scale := c.nextScale z }) hr h

theorem wellFormed_move (hr : c.raster.WellFormed) (h : c.move d = .ok (c', o)) : c'.raster.WellFormed := by
  cases move_eq_ok h
  case inl h =>
    obtain ⟨k, hk, hs, _⟩ := h
    rw [← raster_of_arrival? hk] at hr
    exact wellFormed_stroke hr hs
  case inr h =>
    rw [h.right.left]
    exact hr

theorem Edit.IsDrawing.wellFormed {e : Edit} (hd : e.IsDrawing) (hr : c.raster.WellFormed)
    (h : e.apply c = .ok c') : c'.raster.WellFormed := by
  cases e
  case move =>
    obtain ⟨⟨_, _⟩, hm, h⟩ := Checked.bind_eq_ok_iff.mp h
    cases h
    exact wellFormed_move hr hm
  case stroke =>
    obtain ⟨⟨_, _⟩, hs, h⟩ := Checked.bind_eq_ok_iff.mp h
    cases h
    exact wellFormed_stroke hr hs
  case zoom =>
    obtain ⟨⟨_, _⟩, hz, h⟩ := Checked.bind_eq_ok_iff.mp h
    cases h
    exact wellFormed_zoom hr hz
  case setColor =>
    cases h
    simp only [Canvas.setColor]
    split <;> exact hr
  case resize => exact hd.elim
  case rescale => exact hd.elim
  case restore => exact hd.elim
  all_goals cases h
  case clear => exact Raster.wellFormed_filled ..
  case fill => exact Raster.wellFormed_filled ..
  all_goals exact hr

theorem Drawn.wellFormed (hd : c.Drawn c') (hr : c.raster.WellFormed) : c'.raster.WellFormed := by
  obtain ⟨es, hd, he⟩ := hd
  induction es generalizing c
  case nil =>
    cases he
    exact hr
  case cons e es ih =>
    rw [edited, List.foldlM_cons] at he
    obtain ⟨_, ha, he⟩ := Checked.bind_eq_ok_iff.mp he
    simp only [List.mem_cons, forall_eq_or_imp] at hd
    exact ih (hd.left.wellFormed hr ha) hd.right he

end Canvas

-- The tally of some strokes, counted on from another one.
def Tally.count (t : Tally) (ks : List Canvas) : Tally :=
  ks.foldl (fun t k => t.add k.cursor.color k.struck.card) t

namespace Tally

variable {t : Tally} {ks : List Canvas}

theorem total_count (h : t.IsOrdered) :
    (t.count ks).total = t.total + (ks.map fun k => k.struck.card).sum := by
  induction ks generalizing t
  case nil => rfl
  case cons k ks ih =>
    have hk := ih (isOrdered_add t k.cursor.color k.struck.card)
    rw [h.total_add] at hk
    rw [List.map_cons, List.sum_cons, ← Nat.add_assoc]
    exact hk

theorem count_append_singleton (t : Tally) (ks : List Canvas) (k : Canvas) :
    t.count (ks ++ [k]) = (t.count ks).add k.cursor.color k.struck.card := by
  simp only [count, List.foldl_append, List.foldl_cons, List.foldl_nil]

-- A colour is listed if there is a stroke of it, …
theorem isSome_get?_count (ks : List Canvas) (color : Color) :
    ((empty.count ks).get? color).isSome ↔ ∃ k ∈ ks, k.cursor.color = color := by
  induction ks using List.reverseRecOn
  case nil => simp [count]
  case append_singleton ks k ih =>
    rw [count_append_singleton, get?_add]
    by_cases hc : color = k.cursor.color
    case pos => simp [hc]
    case neg => simp [hc, ih, Ne.symm hc]

-- … with the cells of all strokes of it.
theorem getD_get?_count (ks : List Canvas) (color : Color) :
    ((empty.count ks).get? color).getD 0 =
      ((ks.filter fun k => k.cursor.color = color).map fun k => k.struck.card).sum := by
  induction ks using List.reverseRecOn
  case nil => rfl
  case append_singleton ks k ih =>
    rw [count_append_singleton, get?_add, List.filter_append, List.map_append, List.sum_append, ← ih]
    by_cases hc : color = k.cursor.color
    case pos => simp [hc]
    case neg => simp [hc, Ne.symm hc]

end Tally

namespace Studio

variable {s s' s₁ : Studio} {m m' m₁ : Marks} {t : Token} {ts : List Token} {c : Cycle}
variable {ks ls : List Canvas}

-- The stroke that a token comes to, as the canvas just before.
def stroke? (s : Studio) : Token → Option Canvas
  | .move d => s.canvas.arrival? d
  | _ => none

-- The strokes of a second pass.
def strokes (s : Studio) : List Token → List Canvas
  | [] => []
  | t :: ts =>
    (s.stroke? t).toList ++
      match s.act .none t with
      | .ok (s, _) => s.strokes ts
      | .error _ => []

-- What a part of the second pass with the given strokes does to the picture and to the marks.
structure Accounts (ks : List Canvas) (s s' : Studio) (m m' : Marks) : Prop where
  painted : m'.painted = m.painted + (ks.map fun k => k.struck.card).sum
  tally : m'.tally = m.tally.count ks
  drew : m'.drew = (m.drew || !ks.isEmpty)
  cells : ∀ x y, s'.canvas.raster.get? x y = s.canvas.raster.get? x y ∨
    ∃ k ∈ ks, s'.canvas.raster.get? x y = some k.cursor.color.rgb ∧ (x, y) ∈ k.struck
  untouched : ks = [] → s'.canvas.raster = s.canvas.raster
  counted : ∀ k ∈ ks, ∃ c, k.stroke = .ok (c, k.struck.card)
  whole : s.canvas.raster.WellFormed → s'.canvas.raster.WellFormed ∧ ∀ k ∈ ks, k.raster.WellFormed

theorem Accounts.nil (hr : s'.canvas.raster = s.canvas.raster) (hp : m'.painted = m.painted)
    (ht : m'.tally = m.tally) (hd : m'.drew = m.drew) : Accounts [] s s' m m' where
  painted := hp
  tally := ht
  drew := hd.trans (Bool.or_false _).symm
  cells _ _ := .inl (by rw [hr])
  untouched _ := hr
  counted _ hk := absurd hk List.not_mem_nil
  whole h := ⟨by rwa [hr], fun _ hk => absurd hk List.not_mem_nil⟩

theorem Accounts.append (h₁ : Accounts ks s s₁ m m₁) (h₂ : Accounts ls s₁ s' m₁ m') :
    Accounts (ks ++ ls) s s' m m' where
  painted := by rw [h₂.painted, h₁.painted, List.map_append, List.sum_append, Nat.add_assoc]
  tally := by rw [h₂.tally, h₁.tally, Tally.count, Tally.count, Tally.count, List.foldl_append]
  drew := by
    rw [h₂.drew, h₁.drew, Bool.or_assoc]
    cases ks <;> rfl
  cells x y := by
    cases h₂.cells x y
    case inr h =>
      obtain ⟨k, hk, h⟩ := h
      exact .inr ⟨k, List.mem_append_right ks hk, h⟩
    case inl h =>
      rw [h]
      cases h₁.cells x y
      case inl h => exact .inl h
      case inr h =>
        obtain ⟨k, hk, h⟩ := h
        exact .inr ⟨k, List.mem_append_left ls hk, h⟩
  untouched h := by
    obtain ⟨hk, hl⟩ := List.append_eq_nil_iff.mp h
    rw [h₂.untouched hl, h₁.untouched hk]
  counted k hk := (List.mem_append.mp hk).elim (h₁.counted k) (h₂.counted k)
  whole h := by
    obtain ⟨h, hk⟩ := h₁.whole h
    obtain ⟨h, hl⟩ := h₂.whole h
    exact ⟨h, fun k hm => (List.mem_append.mp hm).elim (hk k) (hl k)⟩

theorem Accounts.stroke {k c : Canvas} {n : Nat} (hr : k.raster = s.canvas.raster)
    (hs : k.stroke = .ok (c, n)) :
    Accounts [k] s { s with canvas := c } m
      { m with drew := true, painted := m.painted + n, tally := m.tally.add k.cursor.color n } := by
  obtain rfl : n = k.struck.card := (Canvas.stroke_eq_ok hs).right
  refine ⟨rfl, rfl, (Bool.or_true _).symm, fun x y => ?cells, nofun, ?counted, fun h => ?whole⟩
  case cells =>
    rw [← hr]
    exact (Canvas.get?_stroke_or hs x y).imp_right fun h => ⟨k, List.mem_singleton_self k, h⟩
  case counted =>
    intro k' hk
    rw [List.mem_singleton.mp hk]
    exact ⟨c, hs⟩
  case whole =>
    rw [← hr] at h
    refine ⟨Canvas.wellFormed_stroke h hs, fun k' hk => ?_⟩
    rw [List.mem_singleton.mp hk]
    exact h

theorem accounts_act (h : s.act m t = .ok (s', m')) : Accounts (s.stroke? t).toList s s' m m' := by
  cases t
  case move d =>
    obtain ⟨⟨c, o⟩, hm, h⟩ := Checked.bind_eq_ok_iff.mp h
    cases Canvas.move_eq_ok hm
    case inl hs =>
      obtain ⟨k, hk, hs, hmoved⟩ := hs
      have hc : c.cursor = k.cursor := by rw [(Canvas.stroke_eq_ok hs).left]
      simp only [hmoved, hc, Canvas.penDown_of_arrival? hk, Bool.and_self, if_true] at h
      cases h
      rw [stroke?, hk]
      exact .stroke (Canvas.raster_of_arrival? hk) hs
    case inr hs =>
      obtain ⟨hk, hr, hd⟩ := hs
      simp only [hd] at h
      cases h
      rw [stroke?, hk]
      exact .nil hr rfl rfl rfl
  case color k =>
    cases h
    refine .nil ?_ rfl rfl rfl
    simp only [Canvas.setColor]
    split <;> rfl
  all_goals
    cases h
    exact .nil rfl rfl rfl rfl

-- The marks that are there already do not matter for what a token does to the studio.
theorem exists_act_none (h : s.act m t = .ok (s', m')) : ∃ n, s.act .none t = .ok (s', n) := by
  cases t
  case move d =>
    obtain ⟨⟨c, o⟩, hm, h⟩ := Checked.bind_eq_ok_iff.mp h
    simp only [act, hm, Checked.ok_bind]
    simp only at h
    split at h
    case isTrue hp =>
      cases h
      exact ⟨_, if_pos hp⟩
    case isFalse hp =>
      cases h
      exact ⟨_, if_neg hp⟩
  all_goals
    cases h
    exact ⟨_, rfl⟩

theorem strokes_cons (h : s.act m t = .ok (s₁, m₁)) :
    s.strokes (t :: ts) = (s.stroke? t).toList ++ s₁.strokes ts := by
  obtain ⟨_, h⟩ := exists_act_none h
  rw [strokes, h]

theorem accounts_actFrom (h : s.actFrom m ts = .ok (s', m')) : Accounts (s.strokes ts) s s' m m' := by
  induction ts generalizing s m
  case nil =>
    cases h
    exact .nil rfl rfl rfl rfl
  case cons t ts ih =>
    rw [actFrom_cons] at h
    obtain ⟨⟨s₁, m₁⟩, ha, h⟩ := Checked.bind_eq_ok_iff.mp h
    rw [strokes_cons ha]
    exact (accounts_act ha).append (ih h)

/-! Cycles -/

-- A cycle that does not come to its second pass leaves no marks.
theorem unmarked_or_acted (h : s.run ts = .ok (s', c)) :
    (c.outcome ≠ .completed ∧ c.marks = .none) ∨
    ∃ d, s.directAll none (Token.directives ts) = .ok d ∧
      d.studio.actFrom .none ts = .ok (s', c.marks) := by
  by_cases hn : ts = []
  case pos =>
    subst hn
    cases h
    exact .inl ⟨nofun, rfl⟩
  case neg =>
    by_cases hp : .thinkPause ∈ ts
    case pos =>
      rw [run_of_thinkPause hp] at h
      cases h
      exact .inl ⟨nofun, rfl⟩
    case neg =>
      rw [run_eq_passes hn hp] at h
      obtain ⟨d, hd, h⟩ := Checked.bind_eq_ok_iff.mp h
      unfold finish at h
      split at h
      case h_1 =>
        cases h
        exact .inl ⟨nofun, rfl⟩
      case h_2 =>
        cases ha : d.studio.actFrom .none ts
        case error =>
          rw [ha] at h
          contradiction
        case ok r =>
          rw [ha] at h
          cases h
          exact .inr ⟨d, hd, ha⟩

-- Fewer cells change than strokes have written, since strokes may cover each other.
theorem Accounts.encard_changed_le (h : Accounts ks s s' m m') :
    {p : Int × Int | s'.canvas.raster.get? p.1 p.2 ≠ s.canvas.raster.get? p.1 p.2}.encard ≤
      (ks.map fun k => k.struck.card).sum := by
  have hc : ∀ ks : List Canvas, {p : Int × Int | ∃ k ∈ ks, p ∈ k.struck}.encard ≤
      (ks.map fun k => k.struck.card).sum := by
    intro ks
    induction ks
    case nil => simp
    case cons k ks ih =>
      have he : {p : Int × Int | ∃ l ∈ k :: ks, p ∈ l.struck} =
          ↑k.struck ∪ {p : Int × Int | ∃ l ∈ ks, p ∈ l.struck} := by
        ext p
        simp
      rw [he, List.map_cons, List.sum_cons, Nat.cast_add]
      refine (Set.encard_union_le _ _).trans (add_le_add ?_ ih)
      exact (Set.encard_coe_eq_coe_finsetCard k.struck).le
  refine (Set.encard_le_encard fun p hp => ?_).trans (hc ks)
  obtain ⟨k, hk, _, hs⟩ := (h.cells p.1 p.2).resolve_left hp
  exact ⟨k, hk, hs⟩

-- A completed cycle counts the cells that its strokes have written, each under the colour of its stroke.
-- A stroke writes just the cells that it is counted with. After the directives no other cells change.
theorem marks_account_for_strokes (h : s.run ts = .ok (s', c)) (hc : c.outcome = .completed) :
    ∃ d, s.directAll none (Token.directives ts) = .ok d ∧
      (∀ k ∈ d.studio.strokes ts, ∃ c', k.stroke = .ok (c', k.struck.card) ∧
        (s.canvas.raster.WellFormed → ∀ x y, c'.raster.get? x y =
          if (x, y) ∈ k.struck then some k.cursor.color.rgb else k.raster.get? x y)) ∧
      c.marks.painted = ((d.studio.strokes ts).map fun k => k.struck.card).sum ∧
      c.marks.painted = c.marks.tally.total ∧
      (∀ color, (c.marks.tally.get? color).isSome ↔
        ∃ k ∈ d.studio.strokes ts, k.cursor.color = color) ∧
      (∀ color, (c.marks.tally.get? color).getD 0 =
        (((d.studio.strokes ts).filter fun k => k.cursor.color = color).map fun k => k.struck.card).sum) ∧
      {p : Int × Int | s'.canvas.raster.get? p.1 p.2 ≠ d.studio.canvas.raster.get? p.1 p.2}.encard ≤
        c.marks.painted ∧
      (∀ x y, s'.canvas.raster.get? x y ≠ d.studio.canvas.raster.get? x y →
        ∃ color, (c.marks.tally.get? color).isSome ∧ s'.canvas.raster.get? x y = some color.rgb) ∧
      (c.marks.drew ↔ c.marks.tally.entries ≠ []) ∧
      (c.marks.drew = false → s'.canvas.raster = d.studio.canvas.raster) := by
  obtain ⟨d, hd, h⟩ := (unmarked_or_acted h).resolve_left fun hn => hn.left hc
  have ha := accounts_actFrom h
  have ht : c.marks.tally = Tally.empty.count (d.studio.strokes ts) := ha.tally
  have hp : c.marks.painted = ((d.studio.strokes ts).map fun k => k.struck.card).sum :=
    ha.painted.trans (Nat.zero_add _)
  have hw : c.marks.drew = !(d.studio.strokes ts).isEmpty := ha.drew
  refine ⟨d, hd, ?written, hp, ?total, ?listed, ?cells, hp ▸ ha.encard_changed_le, ?colours, ?drew, ?untouched⟩
  case written =>
    intro k hk
    obtain ⟨c', hs⟩ := ha.counted k hk
    exact ⟨c', hs, fun hr =>
      Canvas.get?_stroke ((ha.whole ((drawn_directAll hd).wellFormed hr)).right k hk) hs⟩
  case total =>
    rw [ht, Tally.total_count Tally.isOrdered_empty, hp]
    exact (Nat.zero_add _).symm
  case listed => exact fun color => ht ▸ Tally.isSome_get?_count _ color
  case cells => exact fun color => ht ▸ Tally.getD_get?_count _ color
  case colours =>
    intro x y hxy
    obtain ⟨k, hk, hg, _⟩ := (ha.cells x y).resolve_left hxy
    exact ⟨_, ht ▸ (Tally.isSome_get?_count _ _).mpr ⟨k, hk, rfl⟩, hg⟩
  case drew =>
    rw [hw, ht]
    cases hs : d.studio.strokes ts
    case nil => simp [Tally.count, Tally.empty]
    case cons k ks =>
      have hk := (Tally.isSome_get?_count (k :: ks) k.cursor.color).mpr ⟨k, List.mem_cons_self, rfl⟩
      obtain ⟨n, hn⟩ := Option.isSome_iff_exists.mp hk
      exact iff_of_true rfl (Tally.entries_ne_nil_of_get? hn)
  case untouched =>
    intro hf
    apply ha.untouched
    rw [hf] at hw
    simpa using hw.symm

-- Two strokes in different colours that cover each other in part, with a stop at the edge between them. The
-- last move has the pen up.
def crossing : List Token :=
  [.move .right, .color .red, .move .right, .directive .fillCanvas, .move .down, .penUp, .move .left]

theorem marks_account_for_strokes_of_crossing :
    ∃ s' c d, (fresh smallCanvas).run crossing = .ok (s', c) ∧ c.outcome = .completed ∧
      (fresh smallCanvas).directAll none [.fillCanvas] = .ok d ∧ (d.studio.strokes crossing).length = 2 ∧
      (∀ k ∈ d.studio.strokes crossing, ∃ c', k.stroke = .ok (c', k.struck.card) ∧ ∀ x y,
        c'.raster.get? x y = if (x, y) ∈ k.struck then some k.cursor.color.rgb else k.raster.get? x y) ∧
      c.marks.painted = 105 ∧ c.marks.tally.total = 105 ∧ (c.marks.tally.get? .red).getD 0 = 49 ∧
      {p : Int × Int | s'.canvas.raster.get? p.1 p.2 ≠ d.studio.canvas.raster.get? p.1 p.2}.encard ≤
        (105 : Nat) := by
  have h : ((fresh smallCanvas).run crossing).toOption.any fun r =>
      r.2.outcome = .completed ∧ r.2.marks.painted = 105 ∧ r.2.marks.tally.get? .red = some 49 := by
    decide +kernel
  have hd : ((fresh smallCanvas).directAll none [.fillCanvas]).toOption.any fun d =>
      (d.studio.strokes crossing).length = 2 := by
    decide +kernel
  obtain ⟨⟨s', c⟩, h, hr⟩ := Checked.exists_eq_ok_of_any h
  obtain ⟨d, hd, hs⟩ := Checked.exists_eq_ok_of_any hd
  have ⟨hc, hp, hk⟩ := of_decide_eq_true hr
  have hr : (fresh smallCanvas).canvas.raster.WellFormed := Raster.wellFormed_filled 8 8 Rgb.black
  obtain ⟨d', hd', hw, _, ht, _, _, he, _⟩ := marks_account_for_strokes h hc
  cases hd.symm.trans hd'
  rw [hp] at ht he
  refine ⟨s', c, d, h, hc, hd, of_decide_eq_true hs, fun k hm => ?_, hp, ht.symm, by rw [hk]; rfl, he⟩
  have ⟨c', hc', hg⟩ := hw k hm
  exact ⟨c', hc', hg hr⟩

end Studio

end Atelier
