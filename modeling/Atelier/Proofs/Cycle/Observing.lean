import Atelier.Proofs.Cycle.Joining

/-!
Cycles that end early. A code without tokens and a pause for thinking do nothing at all. An observation ends
the cycle after the directives in front of it: its text is the view of the studio as these have left it, and
what stands behind it, or is no directive, has no effect.
-/

namespace Atelier

namespace Canvas

-- The pen is the same, and so are its colour and the colours before.
structure SamePen (c c' : Canvas) : Prop where
  penDown : c'.cursor.penDown = c.cursor.penDown
  color : c'.cursor.color = c.cursor.color
  colors : c'.colors = c.colors

variable {c c' c'' : Canvas}

theorem SamePen.refl (c : Canvas) : SamePen c c :=
  ⟨rfl, rfl, rfl⟩

theorem SamePen.trans (h₁ : SamePen c c') (h₂ : SamePen c' c'') : SamePen c c'' where
  penDown := h₂.penDown.trans h₁.penDown
  color := h₂.color.trans h₁.color
  colors := h₂.colors.trans h₁.colors

theorem exists_of_shiftCursor {k k' : Cursor} {o : Offset} {width height : Nat}
    (h : shiftCursor k o width height = .ok k') : ∃ x y, k' = { k with x := x, y := y } := by
  simp only [shiftCursor, Checked.bind_eq_ok_iff, Checked.pure_eq_ok_iff] at h
  obtain ⟨_, _, _, _, rfl⟩ := h
  exact ⟨_, _, rfl⟩

theorem samePen_resize {size : Size} (h : c.resize size = .ok c') : SamePen c c' := by
  cases resize_eq_ok h
  case inl h => exact h.left ▸ .refl c
  case inr h =>
    obtain ⟨k, hk, rfl⟩ := h
    obtain ⟨_, _, rfl⟩ := exists_of_shiftCursor hk
    exact ⟨rfl, rfl, rfl⟩

theorem samePen_zoom {z : Zoom} {b : Bool} (h : c.zoom z = .ok (c', b)) : SamePen c c' := by
  cases zoom_eq_ok h
  case inl h => exact h ▸ .refl c
  case inr h =>
    obtain ⟨_, _, h⟩ := h
    have hr := samePen_resize h
    exact ⟨hr.penDown, hr.color, hr.colors⟩

end Canvas

namespace Studio

open Canvas

variable {s s' : Studio} {a : Option Raster} {d o : Directive} {ds es before behind : List Directive}
variable {out : Directed} {ts : List Token} {c : Cycle}

/-! Directives -/

theorem samePen_direct (h : s.direct d = .ok s') : SamePen s.canvas s'.canvas := by
  have hz {z : Zoom} (h : s.withZoom z = .ok s') : SamePen s.canvas s'.canvas := by
    obtain ⟨⟨c, b⟩, hc, h⟩ := Checked.bind_eq_ok_iff.mp h
    cases h
    exact samePen_zoom hc
  cases d
  case zoomOut => exact hz h
  case zoomIn => exact hz h
  all_goals
    cases h
    exact ⟨rfl, rfl, rfl⟩

theorem samePen_directAll (h : s.directAll a ds = .ok out) : SamePen s.canvas out.studio.canvas := by
  induction ds generalizing s a
  case nil =>
    cases h
    exact .refl _
  case cons d ds ih =>
    unfold directAll at h
    split at h
    case h_1 =>
      cases h
      exact .refl _
    case h_2 =>
      obtain ⟨s₁, hd, h⟩ := Checked.bind_eq_ok_iff.mp h
      exact (samePen_direct hd).trans (ih h)

-- Directives without an observation are followed by whatever comes behind them.
theorem directAll_append (h : ∀ d ∈ ds, d.isObservation = false) :
    s.directAll a (ds ++ es) = s.directAll a ds >>= fun out => out.studio.directAll out.archived es := by
  induction ds generalizing s a
  case nil => rfl
  case cons d ds ih =>
    simp only [List.mem_cons, forall_eq_or_imp] at h
    cases s.observation?_eq_none_or d
    case inl ho =>
      simp only [List.cons_append, directAll, ho.left, bind_assoc]
      exact bind_congr fun s₁ => ih h.right
    case inr ho =>
      obtain ⟨_, _, ho⟩ := ho
      rw [h.left] at ho
      contradiction

-- What there is to see at an observation: the zoomed out window with the overview, the sampled canvas, or
-- the examples.
def sight (s : Studio) : Directive → String
  | .lookAround =>
    (View.window s.canvas s.view true).text ++ "\n\n" ++ (Overview.ofRaster s.canvas.raster).text
  | .fullCanvas => (View.compressed s.canvas).text
  | .examples   => Example.guide
  | _           => ""

theorem directAll_observation (h : o.isObservation) (a : Option Raster) (es : List Directive) :
    s.directAll a (o :: es) = .ok ⟨s, a, some (o, s.sight o)⟩ := by
  cases o
  case lookAround => rfl
  case fullCanvas => rfl
  case examples => rfl
  all_goals contradiction

/-! Codes of directives alone -/

theorem directives_map (ds : List Directive) : Token.directives (ds.map .directive) = ds := by
  induction ds
  case nil => rfl
  case cons d ds ih => exact congrArg (d :: ·) ih

theorem deeds_map (ds : List Directive) : Token.deeds (ds.map .directive) = [] := by
  simp [Token.deeds, Token.isDirective, Token.directive?]

-- A code of directives is carried out by the first pass alone.
theorem run_map_directive (h : ∀ d ∈ ds, d.isObservation = false) :
    s.run (ds.map .directive) = (s.directAll none ds).map fun out =>
      (out.studio, completed (ds.map .directive) .none out.archived) := by
  rw [run_of_acting (by simp) (by rwa [directives_map]), directives_map]
  cases s.directAll none ds
  case error => rfl
  case ok out =>
    rw [Checked.ok_bind, ← actFrom_deeds, deeds_map]
    rfl

/-! Early ends -/

-- The record of a cycle that an observation has ended.
def observed (s : Studio) (o : Directive) (ts : List Token) (archived : Option Raster) : Cycle :=
  ⟨.observation o (s.sight o), ts, .none, archived⟩

theorem run_of_observation (hp : .thinkPause ∉ ts) (hd : Token.directives ts = before ++ o :: behind)
    (hb : ∀ d ∈ before, d.isObservation = false) (ho : o.isObservation) :
    s.run ts = (s.run (before.map .directive)).map fun r => (r.1, r.1.observed o ts r.2.archived) := by
  have hn : ts ≠ [] := by
    rintro rfl
    simp [Token.directives] at hd
  rw [run_eq_passes hn hp, hd, directAll_append hb, run_map_directive hb]
  cases s.directAll none before
  case error => rfl
  case ok out =>
    rw [Checked.ok_bind, directAll_observation ho]
    rfl

theorem observed_of_run (hp : .thinkPause ∉ ts) (hd : Token.directives ts = before ++ o :: behind)
    (hb : ∀ d ∈ before, d.isObservation = false) (ho : o.isObservation) (h : s.run ts = .ok (s', c)) :
    c.outcome = .observation o (s'.sight o) ∧ c.marks = .none ∧ SamePen s.canvas s'.canvas ∧
      s'.pitch = s.pitch := by
  rw [run_of_observation hp hd hb ho, run_map_directive hb] at h
  cases hr : s.directAll none before
  case error =>
    rw [hr] at h
    contradiction
  case ok out =>
    rw [hr] at h
    cases h
    exact ⟨rfl, rfl, samePen_directAll hr, pitch_directAll hr⟩

theorem eq_of_isObservation (h : o.isObservation) : o = .lookAround ∨ o = .fullCanvas ∨ o = .examples := by
  cases o
  case lookAround => exact .inl rfl
  case fullCanvas => exact .inr (.inl rfl)
  case examples => exact .inr (.inr rfl)
  all_goals contradiction

-- The directives up to the first observation.
theorem exists_first_observation (h : ∃ d ∈ ds, d.isObservation) :
    ∃ before o behind, ds = before ++ o :: behind ∧ (∀ d ∈ before, d.isObservation = false) ∧
      o.isObservation := by
  obtain ⟨d, hm, hd⟩ := h
  obtain ⟨o, before, behind, hb, ho, he, _⟩ := List.exists_of_eraseP hm hd
  exact ⟨before, o, behind, he, fun d hm => Bool.eq_false_iff.mpr (hb d hm), ho⟩

-- Nothing is touched without tokens and in a pause for thinking. With an observation the cycle does what
-- the directives in front of the first one do, and its text is the view of the studio that they leave; its
-- other directives and its other tokens do not matter.
theorem run_ends_early (s : Studio) (ts : List Token) :
    (ts = [] → s.run ts = .ok (s, .idle .empty ts)) ∧
    (.thinkPause ∈ ts → s.run ts = .ok (s, .idle .thinkPause ts)) ∧
    (.thinkPause ∉ ts → (∃ d ∈ Token.directives ts, d.isObservation) →
      ∃ before o behind,
        Token.directives ts = before ++ o :: behind ∧ (∀ d ∈ before, d.isObservation = false) ∧
        o.isObservation ∧
        s.run ts =
          (s.run (before.map .directive)).map (fun r => (r.1, r.1.observed o ts r.2.archived)) ∧
        ∀ s' c, s.run ts = .ok (s', c) →
          (o = .lookAround ∧ c.outcome = .observation o ((View.window s'.canvas s'.view true).text ++ "\n\n" ++
              (Overview.ofRaster s'.canvas.raster).text) ∨
            o = .fullCanvas ∧ c.outcome = .observation o (View.compressed s'.canvas).text ∨
            o = .examples ∧ c.outcome = .observation o Example.guide) ∧
          c.marks = .none ∧ SamePen s.canvas s'.canvas ∧ s'.pitch = s.pitch) := by
  refine ⟨?nothing, run_of_thinkPause, ?observed⟩
  case nothing =>
    rintro rfl
    rfl
  case observed =>
    intro hp hs
    obtain ⟨before, o, behind, hd, hb, ho⟩ := exists_first_observation hs
    refine ⟨before, o, behind, hd, hb, ho, run_of_observation hp hd hb ho, fun s' c h => ?_⟩
    have ⟨hc, hs⟩ := observed_of_run hp hd hb ho h
    refine ⟨?_, hs⟩
    obtain rfl | rfl | rfl := eq_of_isObservation ho
    case inl => exact .inl ⟨rfl, hc⟩
    case inr.inl => exact .inr (.inl ⟨rfl, hc⟩)
    case inr.inr => exact .inr (.inr ⟨rfl, hc⟩)

-- A look at the white canvas, with deeds around it and a clearing behind it.
def glance : List Token :=
  [.color .red, .move .right, .directive .fillCanvas, .pitch .low, .directive .lookAround,
    .directive .clearAll, .penUp, .sound '!']

theorem run_ends_early_of_glance :
    (.thinkPause ∉ glance ∧ ∃ d ∈ Token.directives glance, d.isObservation) ∧
    ∃ s' c, (fresh smallCanvas).run glance = .ok (s', c) ∧
      s'.canvas.raster = .filled 8 8 Color.white.rgb ∧ c.archived = none ∧
      c.outcome = .observation .lookAround ((View.window s'.canvas s'.view true).text ++ "\n\n" ++
        (Overview.ofRaster s'.canvas.raster).text) ∧
      c.marks = .none ∧ SamePen smallCanvas s'.canvas ∧ s'.pitch = none := by
  have hp : .thinkPause ∉ glance := by decide
  have hs : ∃ d ∈ Token.directives glance, d.isObservation := by decide
  have h : ((fresh smallCanvas).run glance).toOption.any fun r =>
      r.1.canvas.raster = .filled 8 8 Color.white.rgb ∧ r.2.archived = none := by
    decide +kernel
  obtain ⟨⟨s', c⟩, h, hr⟩ := Checked.exists_eq_ok_of_any h
  have ⟨hr, ha⟩ := of_decide_eq_true hr
  obtain ⟨_, o, _, hd, _, _, _, ho⟩ := (run_ends_early (fresh smallCanvas) glance).right.right hp hs
  have hmem : o ∈ Token.directives glance := hd ▸ List.mem_append_right _ List.mem_cons_self
  obtain ⟨⟨rfl, hc⟩ | ⟨rfl, _⟩ | ⟨rfl, _⟩, hm, hpen, hpitch⟩ := ho s' c h
  · exact ⟨⟨hp, hs⟩, s', c, h, hr, ha, hc, hm, hpen, hpitch⟩
  all_goals exact absurd hmem (by decide)

end Studio

end Atelier
