import Atelier.Proofs.Cycle.Running
import Atelier.Proofs.Session.Loading
import Atelier.Proofs.Session.Refusals
import Atelier.Proofs.Session.Run

/-!
What can stop a session. Nothing does but its counts: a step, a skipped turn or a drawing in a row that has
no place in its word any more, and the pixels of the latest codes at a check-in. All of them are counted on
from whatever was stored.
-/

namespace Atelier

namespace Session

variable {s t s' : Session} {now : Instant} {c : Cycle} {studio : Studio} {raw : String} {screen : Size}
variable {before : Cursor}

/-! Drawings -/

-- Whether a cursor has drawn on its way.
def hasDrawn (before after : Cursor) : Bool :=
  after.penDown && (after.x != before.x || after.y != before.y)

-- A cycle that leaves the given studio comes to a count that has no place in its word.
def Overfills (s : Session) (studio : Studio) (c : Cycle) : Prop :=
  (c.isSkip ∧ 2 ^ 64 ≤ s.skips + 1) ∨
  (hasDrawn s.canvas.cursor studio.canvas.cursor ∧ 2 ^ 32 ≤ s.continuousDraws + 1) ∨
  2 ^ 64 ≤ s.steps + 1

theorem countSkip_of_overfull (h : c.isSkip) (hs : 2 ^ 64 ≤ s.skips + 1) :
    s.countSkip c = .error .overflow := by
  rw [countSkip, if_pos h, Checked.nat64_of_overfull hs]
  rfl

theorem countSkip_of_fits (h : ¬(c.isSkip ∧ 2 ^ 64 ≤ s.skips + 1)) :
    s.countSkip c = .ok { s with skips := s.skips + c.isSkip.toNat } := by
  unfold countSkip
  split
  case isFalse hc => rw [Bool.eq_false_iff.mpr hc, Bool.toNat_false, Nat.add_zero]; rfl
  case isTrue hc =>
    have hs := Nat.not_le.mp (not_and.mp h hc)
    rw [hc, Bool.toNat_true, Checked.nat64_of_fits hs]
    rfl

-- A turn that is ended comes to one more drawing in a row at most.
theorem endTurn_cases (s : Session) (before : Cursor) :
    (((hasDrawn before s.canvas.cursor ∧ 2 ^ 32 ≤ s.continuousDraws + 1) ∨ 2 ^ 64 ≤ s.steps + 1) ∧
      s.endTurn before = .error .overflow) ∨
    (¬((hasDrawn before s.canvas.cursor ∧ 2 ^ 32 ≤ s.continuousDraws + 1) ∨ 2 ^ 64 ≤ s.steps + 1) ∧
      ∃ t, s.endTurn before = .ok t ∧ t.continuousDraws ≤ s.continuousDraws + 1) := by
  have he : s.endTurn before =
      Checked.nat32 (if hasDrawn before s.canvas.cursor then s.continuousDraws + 1 else 0) >>= fun draws =>
        Checked.nat64 (s.steps + 1) >>= fun steps => .ok { s with
          continuousDraws := draws
          lastTurnColor := some s.canvas.cursor.color
          steps := steps } := rfl
  by_cases hd : hasDrawn before s.canvas.cursor ∧ 2 ^ 32 ≤ s.continuousDraws + 1
  case pos =>
    refine .inl ⟨.inl hd, ?_⟩
    rw [he, if_pos hd.left, Checked.nat32_of_overfull hd.right]
    rfl
  case neg =>
    have hn : (if hasDrawn before s.canvas.cursor then s.continuousDraws + 1 else 0) < 2 ^ 32 := by
      split
      case isTrue hp => exact Nat.not_le.mp (not_and.mp hd hp)
      case isFalse => decide
    rw [he, Checked.nat32_of_fits hn, Checked.ok_bind]
    by_cases hs : 2 ^ 64 ≤ s.steps + 1
    case pos =>
      refine .inl ⟨.inr hs, ?_⟩
      rw [Checked.nat64_of_overfull hs]
      rfl
    case neg =>
      refine .inr ⟨not_or.mpr ⟨hd, hs⟩, ?_⟩
      rw [Checked.nat64_of_fits (Nat.not_le.mp hs), Checked.ok_bind]
      refine ⟨_, rfl, ?_⟩
      simp only
      split <;> omega

theorem exists_remember_regard_eq (s : Session) (c : Cycle) (now : Instant) :
    ∃ mood memory, (s.regard c).remember c now = { s with mood := mood, memory := memory } := by
  obtain ⟨mood, hg⟩ := s.exists_regard_eq c
  obtain ⟨mood', hm⟩ := (s.regard c).exists_remember_eq c now
  exact ⟨mood', _, by rw [hm, hg]⟩

theorem continuousDraws_reconsider (s : Session) : s.reconsider.continuousDraws = s.continuousDraws := by
  have ⟨_, h⟩ := s.exists_reconsider_eq
  rw [h]

theorem continuousDraws_saveIfDue (s : Session) (now : Instant) :
    (s.saveIfDue now).continuousDraws = s.continuousDraws := by
  have ⟨_, h⟩ := s.exists_saveIfDue_eq now
  rw [h]

-- The parts of a drawing in between touch neither the canvas nor the counts.
theorem draw_cases (hr : s.studio.run (Token.scan raw) = .ok (studio, c)) (now : Instant) :
    (s.Overfills studio c ∧ s.draw raw now = .error .overflow) ∨
    (¬s.Overfills studio c ∧ ∃ s', s.draw raw now = .ok (s', c) ∧
      s'.continuousDraws ≤ s.continuousDraws + 1) := by
  simp only [draw, hr, Checked.ok_bind]
  rw [archive_eq_folder]
  generalize ({ s with studio := studio }.archive c now).folder = folder
  by_cases hk : c.isSkip ∧ 2 ^ 64 ≤ s.skips + 1
  case pos =>
    have hs := countSkip_of_overfull (s := { s with studio := studio, folder := folder }) hk.left hk.right
    exact .inl ⟨.inl hk, by rw [hs]; rfl⟩
  case neg =>
    rw [countSkip_of_fits (s := { s with studio := studio, folder := folder }) hk, Checked.ok_bind]
    simp only
    obtain ⟨mood, memory, hm⟩ := exists_remember_regard_eq
      { s with studio := studio, folder := folder, skips := s.skips + c.isSkip.toNat } c now
    rw [hm]
    obtain ⟨he, ht⟩ | ⟨he, t, ht, hd⟩ := endTurn_cases { s with
      studio := studio, folder := folder, skips := s.skips + c.isSkip.toNat
      mood := mood, memory := memory } s.canvas.cursor
    case inl =>
      refine .inl ⟨.inr he, ?_⟩
      rw [ht]
      rfl
    case inr =>
      refine .inr ⟨not_or.mpr ⟨hk, he⟩, t.reconsider.saveIfDue now, by rw [ht]; rfl, ?_⟩
      rw [continuousDraws_saveIfDue, continuousDraws_reconsider]
      exact hd

theorem continuousDraws_le_of_draw (h : s.draw raw now = .ok (s', c)) :
    s'.continuousDraws ≤ s.continuousDraws + 1 := by
  obtain ⟨studio, _, _, _, hr, _⟩ := draw_eq_ok h
  obtain ⟨_, hd⟩ | ⟨_, t, hd, hl⟩ := draw_cases hr now
  case inl => cases h.symm.trans hd
  case inr =>
    cases h.symm.trans hd
    exact hl

/-! Ticks -/

-- What a session is about to do, after the change of mode, comes to a count that has no place in its word.
inductive Overruns (s : Session) : Prop
  | checkIn : s.schedule.mode = .awaitingChoice → 2 ^ 64 ≤ s.memory.pixels pixelWindow → Overruns s
  | drawing {raw : String} {studio : Studio} {c : Cycle} : s.schedule.mode = .drawing →
      (s.ask (.drawing s.scene)).1 = some raw → s.studio.run (Token.scan raw) = .ok (studio, c) →
      s.Overfills studio c → Overruns s

theorem overruns_iff_of_awaitingChoice (hm : s.schedule.mode = .awaitingChoice) :
    s.Overruns ↔ 2 ^ 64 ≤ s.memory.pixels pixelWindow := by
  constructor
  case mpr => exact .checkIn hm
  case mp =>
    rintro (⟨_, hp⟩ | ⟨hm', _, _, _⟩)
    case checkIn => exact hp
    case drawing => cases hm.symm.trans hm'

theorem not_overruns_of_no_answer (hm : s.schedule.mode = .drawing)
    (ha : (s.ask (.drawing s.scene)).1 = none) : ¬s.Overruns := by
  rintro (⟨hm', _⟩ | ⟨_, ha', _, _⟩)
  case checkIn => cases hm.symm.trans hm'
  case drawing => cases ha.symm.trans ha'

theorem overruns_iff_of_answer (hm : s.schedule.mode = .drawing)
    (ha : (s.ask (.drawing s.scene)).1 = some raw) (hr : s.studio.run (Token.scan raw) = .ok (studio, c)) :
    s.Overruns ↔ s.Overfills studio c := by
  constructor
  case mpr => exact .drawing hm ha hr
  case mp =>
    rintro (⟨hm', _⟩ | ⟨_, ha', hr', ho⟩)
    case checkIn => cases hm.symm.trans hm'
    case drawing =>
      cases ha.symm.trans ha'
      cases hr.symm.trans hr'
      exact ho

theorem drawingTurn_cases (h : s.canvas.Fitted screen) (hs : screen.IsShort)
    (hm : s.schedule.mode = .drawing) (now : Instant) :
    (s.Overruns ∧ s.drawingTurn now = .error .overflow) ∨
    (¬s.Overruns ∧ ∃ p, s.drawingTurn now = .ok p) := by
  obtain ⟨answer, ha, -⟩ := exists_ask (s := s) (r := .drawing s.scene) (hm ▸ rfl)
  have hf := congrArg Prod.fst ha
  rw [drawingTurn, ha]
  cases answer
  case none => exact .inr ⟨not_overruns_of_no_answer hm hf, _, rfl⟩
  case some raw =>
    obtain ⟨studio, c, hr⟩ := Studio.exists_run (s := s.studio) h hs (Token.scan raw)
    have ho := overruns_iff_of_answer hm hf hr
    simp only
    obtain ⟨hl, hd⟩ | ⟨hl, s', hd, _⟩ := draw_cases (s := s.asked (.drawing s.scene)) hr now
    case inl => exact .inl ⟨ho.mpr hl, by rw [hd]; rfl⟩
    case inr => exact .inr ⟨mt ho.mp hl, (s', .drew c), by rw [hd]; rfl⟩

theorem choiceTurn_cases (hm : s.schedule.mode = .awaitingChoice) (now : Instant) :
    (s.Overruns ∧ s.choiceTurn now = .error .overflow) ∨
    (¬s.Overruns ∧ ∃ p, s.choiceTurn now = .ok p) := by
  rw [overruns_iff_of_awaitingChoice hm]
  by_cases hp : 2 ^ 64 ≤ s.memory.pixels pixelWindow
  case pos => exact .inl ⟨hp, choiceTurn_of_too_many hp⟩
  case neg =>
    refine .inr ⟨hp, ?_⟩
    rw [choiceTurn, Memory.recentPixels_eq, Checked.nat64_of_fits (Nat.not_le.mp hp), Checked.ok_bind]
    split
    case h_1 =>
      simp only
      split
      case isTrue => exact ⟨_, rfl⟩
      case isFalse => exact ⟨_, rfl⟩
    case h_2 => exact ⟨_, rfl⟩

theorem Overruns.mode_eq_or (h : s.Overruns) :
    s.schedule.mode = .awaitingChoice ∨ s.schedule.mode = .drawing := by
  cases h
  case checkIn hm _ => exact .inl hm
  case drawing hm _ _ _ => exact .inr hm

-- A tick is stopped if and only if it comes to such a count.
theorem tick_cases (h : s.InOrder screen) (hs : screen.IsShort) (now : Instant) :
    ((s.advance now).Overruns ∧ s.tick now = .error .overflow) ∨
    (¬(s.advance now).Overruns ∧ ∃ p, s.tick now = .ok p) := by
  have hi := h.of_keeps hs (s.keeps_advance now)
  unfold tick
  simp only
  generalize s.advance now = t at hi ⊢
  have hm := t.schedule.mode_activity now
  have hn (hc : t.schedule.mode ≠ .awaitingChoice) (hd : t.schedule.mode ≠ .drawing) : ¬t.Overruns :=
    fun ho => ho.mode_eq_or.elim hc hd
  generalize t.schedule.activity now = a at hm ⊢
  cases a
  case draw => exact drawingTurn_cases hi.canvas hs hm.symm now
  case askChoice => exact choiceTurn_cases hm.symm now
  all_goals exact .inr ⟨hn (hm ▸ nofun) (hm ▸ nofun), _, rfl⟩

end Session

end Atelier
