import Atelier.Proofs.Canvas.Resizing
import Atelier.Studio

/-!
The pictures that the clearings of a cycle remove. A cycle hands over one picture, that of its last
clearing, so the others are lost unless they are blank or the same.
-/

namespace Atelier.Studio

-- `Clears s ds r rest`: carrying out the directives `ds` comes to a clearing with the picture `r` on
-- the canvas and the directives `rest` behind it. No observation ends the cycle before.
inductive Clears : Studio → List Directive → Raster → List Directive → Prop
  | here {s ds} : Clears s (.clearAll :: ds) s.canvas.raster ds
  | later {s s' d ds r rest} :
    d.isObservation = false → s.direct d = .ok s' → Clears s' ds r rest → Clears s (d :: ds) r rest

-- The directives that are carried out, if no fault stops the cycle.
def reached (ds : List Directive) : List Directive :=
  ds.takeWhile fun d => !d.isObservation

-- In a pause for thinking there is no clearing, whatever its directives are.
def Removes (s : Studio) (ts : List Token) (r : Raster) : Prop :=
  .thinkPause ∉ ts ∧ ∃ rest, Clears s (ts.filterMap Token.directive?) r rest

def RemovesLast (s : Studio) (ts : List Token) (r : Raster) : Prop :=
  .thinkPause ∉ ts ∧
    ∃ rest, Clears s (ts.filterMap Token.directive?) r rest ∧ .clearAll ∉ reached rest

variable {s s' : Studio} {a : Option Raster} {d : Directive} {ds rest : List Directive} {r : Raster}
variable {out : Directed} {ts : List Token} {c : Cycle}

theorem observation?_eq_none_or (s : Studio) (d : Directive) :
    s.observation? d = none ∧ d.isObservation = false ∨
    ∃ text, s.observation? d = some text ∧ d.isObservation = true := by
  cases d <;> simp [observation?, Directive.isObservation]

theorem reached_cons_of_observation (h : d.isObservation = true) : reached (d :: ds) = [] := by
  simp [reached, h]

theorem reached_cons (h : d.isObservation = false) : reached (d :: ds) = d :: reached ds := by
  simp [reached, h]

-- An observation is not carried out and ends the directives; any other directive is followed by the
-- rest of them.
theorem directAll_cons_eq_ok (h : s.directAll a (d :: ds) = .ok out) :
    (d.isObservation = true ∧ out.archived = a) ∨
    (d.isObservation = false ∧ ∃ s', s.direct d = .ok s' ∧
      s'.directAll (if d = .clearAll then some s.canvas.raster else a) ds = .ok out) := by
  unfold directAll at h
  cases s.observation?_eq_none_or d
  case inl ho =>
    simp only [ho.left, Checked.bind_eq_ok_iff] at h
    exact .inr ⟨ho.right, h⟩
  case inr ho =>
    obtain ⟨text, ht, ho⟩ := ho
    simp only [ht] at h
    have h := Checked.pure_eq_ok_iff.mp h
    exact .inl ⟨ho, h ▸ rfl⟩

theorem archived_of_no_clearing (h : s.directAll a ds = .ok out) (hn : .clearAll ∉ reached ds) :
    out.archived = a := by
  induction ds generalizing s a
  case nil => exact (Checked.pure_eq_ok_iff.mp h) ▸ rfl
  case cons d ds hi =>
    cases directAll_cons_eq_ok h
    case inl h => exact h.right
    case inr h =>
      have ⟨ho, _, _, h⟩ := h
      simp only [reached_cons ho, List.mem_cons, not_or] at hn
      rw [if_neg (Ne.symm hn.left)] at h
      exact hi h hn.right

theorem archived_of_clears (h : s.directAll a ds = .ok out) (hc : Clears s ds r rest)
    (hn : .clearAll ∉ reached rest) : out.archived = some r := by
  induction hc generalizing a
  case here s ds =>
    cases directAll_cons_eq_ok h
    case inl h => simp [Directive.isObservation] at h
    case inr h =>
      obtain ⟨_, _, _, h⟩ := h
      exact archived_of_no_clearing h hn
  case later s s' d ds r rest ho hd _ hi =>
    cases directAll_cons_eq_ok h
    case inl h => simp [ho] at h
    case inr h =>
      obtain ⟨_, s'', hd', h⟩ := h
      cases hd.symm.trans hd'
      exact hi h hn

theorem clearAll_mem_reached (hc : Clears s ds r rest) : .clearAll ∈ reached ds := by
  induction hc
  case here => simp [reached, Directive.isObservation]
  case later ho _ _ hi => simp [reached_cons ho, hi]

-- The directives are searched from the front. A clearing is the last one if none is reached behind it.
theorem exists_last_clearing (h : s.directAll a ds = .ok out) (hm : .clearAll ∈ reached ds) :
    ∃ r rest, Clears s ds r rest ∧ .clearAll ∉ reached rest := by
  induction ds generalizing s a
  case nil => simp [reached] at hm
  case cons d ds hi =>
    cases directAll_cons_eq_ok h
    case inl h => simp [reached_cons_of_observation h.left] at hm
    case inr h =>
      obtain ⟨ho, s', hd, h⟩ := h
      by_cases hl : .clearAll ∈ reached ds
      case pos =>
        obtain ⟨r, rest, hc, hn⟩ := hi h hl
        exact ⟨r, rest, .later ho hd hc, hn⟩
      case neg =>
        simp only [reached_cons ho, List.mem_cons, hl, or_false] at hm
        subst hm
        exact ⟨s.canvas.raster, ds, .here, hl⟩

-- What a cycle hands over is what its directives have put aside; the other tokens do not matter.
theorem run_archived (h : s.run ts = .ok (s', c)) (hp : .thinkPause ∉ ts) :
    ∃ out, s.directAll none (ts.filterMap Token.directive?) = .ok out ∧ c.archived = out.archived := by
  unfold run at h
  cases ts
  case nil =>
    cases h
    exact ⟨_, rfl, rfl⟩
  case cons t ts =>
    simp only [List.isEmpty_cons, Bool.false_eq_true, if_false, List.contains_iff_mem, hp] at h
    obtain ⟨out, ho, h⟩ := Checked.bind_eq_ok_iff.mp h
    refine ⟨out, ho, ?_⟩
    split at h
    · cases h
      rfl
    · obtain ⟨_, _, h⟩ := Checked.bind_eq_ok_iff.mp h
      cases h
      rfl

theorem archived_of_removesLast (h : s.run ts = .ok (s', c)) (hl : s.RemovesLast ts r) :
    c.archived = some r := by
  have ⟨hp, rest, hc, hn⟩ := hl
  have ⟨out, ho, ha⟩ := run_archived h hp
  rw [ha, archived_of_clears ho hc hn]

theorem exists_removesLast (h : s.run ts = .ok (s', c)) (hr : s.Removes ts r) :
    ∃ last, s.RemovesLast ts last := by
  have ⟨hp, rest, hc⟩ := hr
  have ⟨out, ho, _⟩ := run_archived h hp
  have ⟨last, rest', hl⟩ := exists_last_clearing ho (clearAll_mem_reached hc)
  exact ⟨last, hp, rest', hl⟩

-- Nothing that was drawn is lost exactly when every picture that a clearing removes is blank or the
-- same as the one that the last clearing removes.
theorem pictures_archived_iff (h : s.run ts = .ok (s', c)) :
    (∀ r, s.Removes ts r → ¬r.IsBlank → c.archived = some r) ↔
    ∀ r last, s.Removes ts r → ¬r.IsBlank → s.RemovesLast ts last → r = last := by
  constructor
  case mp =>
    intro hk r last hr hb hl
    have := archived_of_removesLast h hl
    exact Option.some.inj ((hk r hr hb).symm.trans this)
  case mpr =>
    intro hs r hr hb
    have ⟨last, hl⟩ := exists_removesLast h hr
    rw [hs r last hr hb hl]
    exact archived_of_removesLast h hl

-- A studio in which nothing has happened yet, with a given canvas.
def fresh (c : Canvas) : Studio :=
  ⟨c, .initial, default, none, .ofSeed 0, none⟩

-- The blank canvas of eight by eight cells.
def smallCanvas : Canvas where
  raster := .filled 8 8 Rgb.black
  cursor := ⟨4, 4, true, .white, .brush⟩
  scale := 1.0
  screen := ⟨48, 48⟩
  colors := .empty Canvas.colorLimit
  spray := .scripted (fun _ _ => true) 0

theorem pictures_archived_iff_of_single_clearing :
    ∃ s' c, (fresh smallCanvas).run [.directive .fillCanvas, .directive .clearAll] = .ok (s', c) ∧
      ((∀ r, (fresh smallCanvas).Removes [.directive .fillCanvas, .directive .clearAll] r →
        ¬r.IsBlank → c.archived = some r) ↔
      ∀ r last, (fresh smallCanvas).Removes [.directive .fillCanvas, .directive .clearAll] r →
        ¬r.IsBlank → (fresh smallCanvas).RemovesLast [.directive .fillCanvas, .directive .clearAll] last →
        r = last) :=
  ⟨_, _, rfl, pictures_archived_iff rfl⟩

-- A second clearing puts the blank canvas in the place of the white one.
theorem second_clearing_loses_picture :
    ∃ s' c r,
      (fresh smallCanvas).run
        [.directive .fillCanvas, .directive .clearAll, .directive .clearAll] = .ok (s', c) ∧
      (fresh smallCanvas).Removes
        [.directive .fillCanvas, .directive .clearAll, .directive .clearAll] r ∧
      ¬r.IsBlank ∧ c.archived ≠ some r := by
  refine ⟨_, _, .filled 8 8 Color.white.rgb, rfl, ⟨by decide, _, .later rfl rfl .here⟩, ?_, ?_⟩
  · decide +kernel
  · decide +kernel

theorem isBlank_direct (h : s.direct d = .ok s') (hd : d ≠ .fillCanvas)
    (hb : s.canvas.raster.IsBlank) : s'.canvas.raster.IsBlank := by
  have hz {z : Zoom} (h : s.withZoom z = .ok s') : s'.canvas.raster.IsBlank := by
    have ⟨⟨c, _⟩, hc, h⟩ := Checked.bind_eq_ok_iff.mp h
    cases h
    exact Canvas.isBlank_zoom hc hb
  cases d
  case fillCanvas => exact absurd rfl hd
  case zoomOut => exact hz h
  case zoomIn => exact hz h
  case clearAll =>
    cases h
    exact Raster.isBlank_fill_black _
  all_goals
    cases h
    exact hb

theorem isBlank_of_clears (hc : Clears s ds r rest) (hf : .fillCanvas ∉ ds)
    (hb : s.canvas.raster.IsBlank) : r.IsBlank := by
  induction hc
  case here => exact hb
  case later hd _ hi =>
    simp only [List.mem_cons, not_or] at hf
    exact hi hf.right (isBlank_direct hd (Ne.symm hf.left) hb)

-- After a clearing only a filling can bring something onto the canvas again. So without one, another
-- clearing in the same cycle hands over a blank picture, whatever the first one has removed.
theorem archived_blank_of_clearAll_again (h : s.directAll a (.clearAll :: ds) = .ok out)
    (hm : .clearAll ∈ reached ds) (hf : .fillCanvas ∉ ds) : ∃ r, out.archived = some r ∧ r.IsBlank := by
  cases directAll_cons_eq_ok h
  case inl h => simp [Directive.isObservation] at h
  case inr h =>
    obtain ⟨_, s', hd, h⟩ := h
    obtain ⟨r, rest, hc, hn⟩ := exists_last_clearing h hm
    cases hd
    exact ⟨r, archived_of_clears h hc hn, isBlank_of_clears hc hf (Raster.isBlank_fill_black _)⟩

end Atelier.Studio
