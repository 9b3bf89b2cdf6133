import Atelier.Proofs.Schedule.Polling
import Atelier.Proofs.Session.Archiving
import Atelier.Proofs.Session.Turns

/-!
Modes keep to themselves. Each of them asks the model for its own purpose only; drawing is the only one that
touches the picture and what goes with it, and it leaves the routine and the dreams alone.
-/

namespace Atelier

-- The tones that are played.
def Event.tones : Event → List Tone
  | drew c => c.marks.tones
  | _      => []

namespace Session

variable {s t u s' : Session} {now : Instant} {e : Event}

-- What drawing works on is the same.
structure SameWork (s t : Session) : Prop where
  canvas : t.canvas = s.canvas
  speed : t.studio.speed = s.studio.speed
  view : t.studio.view = s.studio.view
  template : t.studio.template = s.studio.template
  pitch : t.studio.pitch = s.studio.pitch
  steps : t.steps = s.steps
  skips : t.skips = s.skips
  codes : t.memory.codes = s.memory.codes

theorem SameWork.refl (s : Session) : SameWork s s :=
  ⟨rfl, rfl, rfl, rfl, rfl, rfl, rfl, rfl⟩

theorem SameWork.trans (h₁ : SameWork s t) (h₂ : SameWork t u) : SameWork s u where
  canvas := h₂.canvas.trans h₁.canvas
  speed := h₂.speed.trans h₁.speed
  view := h₂.view.trans h₁.view
  template := h₂.template.trans h₁.template
  pitch := h₂.pitch.trans h₁.pitch
  steps := h₂.steps.trans h₁.steps
  skips := h₂.skips.trans h₁.skips
  codes := h₂.codes.trans h₁.codes

-- The routine and the dreams are the same.
structure SameNight (s t : Session) : Prop where
  schedule : t.schedule = s.schedule
  tonight : t.memory.tonight = s.memory.tonight
  dreams : t.memory.dreams = s.memory.dreams

/-! Turns -/

theorem Acts.model_eq_or (h : s.Acts now e s') :
    s'.model = s.model ∨ ∃ r, r.purpose = s.schedule.mode.purpose ∧ s'.model = (s.model.ask r).2 := by
  cases h
  case waits => exact .inl rfl
  case draws r _ _ _ hq hd =>
    obtain ⟨_, _, _, _, _, rfl⟩ := draw_eq_ok hd
    exact .inr ⟨r, hq.purpose, rfl⟩
  case fails r hq => exact .inr ⟨r, hq.purpose, rfl⟩
  case chooses r _ _ hq => exact .inr ⟨r, hq.purpose, rfl⟩
  case chats r _ _ hq => exact .inr ⟨r, hq.purpose, rfl⟩
  case dozes r _ _ _ hq _ => exact .inr ⟨r, hq.purpose, rfl⟩
  case dreams r _ _ _ hq _ _ => exact .inr ⟨r, hq.purpose, rfl⟩

theorem Acts.sameWork_or_draws (h : s.Acts now e s') :
    SameWork s s' ∧ (∀ c, e ≠ .drew c) ∨
    ∃ r raw c, s.schedule.mode = .drawing ∧ (s.asked r).draw raw now = .ok (s', c) ∧ e = .drew c := by
  cases h
  case draws r raw c hm _ hd => exact .inr ⟨r, raw, c, hm, hd, rfl⟩
  case chooses text _ _ =>
    exact .inl ⟨{ SameWork.refl s with codes := s.codes_memoryAfter text now }, fun _ => nofun⟩
  all_goals exact .inl ⟨{ SameWork.refl s with }, fun _ => nofun⟩

theorem tones_of_ne_drew (h : ∀ c, e ≠ .drew c) : e.tones = [] := by
  cases e
  case drew c => exact absurd rfl (h c)
  all_goals rfl

theorem Acts.sameNight (h : s.Acts now e s') (hm : s.schedule.mode = .drawing) : SameNight s s' := by
  cases h
  case draws hd =>
    obtain ⟨_, _, _, _, _, rfl⟩ := draw_eq_ok hd
    exact ⟨rfl, tonight_remembered .., dreams_remembered ..⟩
  case fails => exact ⟨rfl, rfl, rfl⟩
  case waits hc => cases hm.symm.trans hc
  case chooses hc _ => cases hm.symm.trans hc
  case chats hc _ => cases hm.symm.trans hc
  case dozes hc _ _ => cases hm.symm.trans hc
  case dreams hc _ _ _ => cases hm.symm.trans hc

/-! Changes of mode -/

theorem sameWork_advance (s : Session) (now : Instant) : SameWork s (s.advance now) := by
  have ⟨_, _, _, h⟩ := s.exists_advance_eq now
  rw [h]
  exact { SameWork.refl s with codes := s.codes_memoryAt now }

theorem model_advance (s : Session) (now : Instant) : (s.advance now).model = s.model := by
  have ⟨_, _, _, h⟩ := s.exists_advance_eq now
  rw [h]

theorem memoryAt_of_drawing (hm : (s.schedule.poll now).1.mode = .drawing) :
    s.memoryAt now = s.memory := by
  apply if_neg
  intro hr
  cases hm.symm.trans (Schedule.mode_of_transition hr)

-- Whatever the model answers, it is asked at most once and for the purpose of the mode. Outside of
-- drawing, codes in its answers draw nothing; in drawing, they change neither routine nor dreams.
theorem tick_keeps_to_mode (h : s.tick now = .ok (s', e)) :
    let polled := (s.schedule.poll now).1
    (s'.model = s.model ∨ ∃ r, r.purpose = polled.mode.purpose ∧ s'.model = (s.model.ask r).2) ∧
    (polled.mode ≠ .drawing → SameWork s s' ∧ e.tones = []) ∧
    (polled.mode = .drawing → s'.schedule = polled ∧ s'.memory.tonight = s.memory.tonight ∧
      s'.memory.dreams = s.memory.dreams) := by
  have ha := acts_tick h
  rw [← schedule_advance, ← model_advance s now]
  refine ⟨ha.model_eq_or, fun hm => ?_, fun hm => ?_⟩
  case refine_1 =>
    obtain ⟨hw, he⟩ | ⟨_, _, _, hd, _⟩ := ha.sameWork_or_draws
    case inl => exact ⟨(s.sameWork_advance now).trans hw, tones_of_ne_drew he⟩
    case inr => contradiction
  case refine_2 =>
    have hn := ha.sameNight hm
    have hs := memoryAt_of_drawing (s.schedule_advance now ▸ hm)
    rw [hn.schedule, hn.tonight, hn.dreams, memory_advance, hs]
    exact ⟨rfl, rfl, rfl⟩

-- A break in which the model answers with a code.
def codeInBreak : Session :=
  { clearing with
    schedule := { clearing.schedule with mode := .chatting }
    model := .ofSource (.scripted [.ok "red533++!clear_all"]) }

theorem tick_keeps_to_mode_of_code :
    (∃ s' e, codeInBreak.tick ⟨60, 0⟩ = .ok (s', e) ∧
      (codeInBreak.schedule.poll ⟨60, 0⟩).1.mode = .chatting ∧
      (∃ r, r.purpose = .chat ∧ s'.model = (codeInBreak.model.ask r).2) ∧
      SameWork codeInBreak s' ∧ e.tones = []) ∧
    ∃ s' e, clearing.tick ⟨60, 0⟩ = .ok (s', e) ∧
      (clearing.schedule.poll ⟨60, 0⟩).1.mode = .drawing ∧
      s'.schedule = (clearing.schedule.poll ⟨60, 0⟩).1 ∧
      s'.memory.tonight = clearing.memory.tonight ∧ s'.memory.dreams = clearing.memory.dreams := by
  have hc : (codeInBreak.tick ⟨60, 0⟩).toOption.any fun p => p.1.model.asked.size = 1 := by
    decide +kernel
  have hd : (clearing.tick ⟨60, 0⟩).toOption.any fun _ => true := by decide +kernel
  obtain ⟨⟨s₁, e₁⟩, hc, ha⟩ := Checked.exists_eq_ok_of_any hc
  obtain ⟨⟨s₂, e₂⟩, hd, _⟩ := Checked.exists_eq_ok_of_any hd
  have ⟨hm, hw, _⟩ := tick_keeps_to_mode hc
  have hm := hm.resolve_left fun he => by
    rw [he] at ha
    contradiction
  exact ⟨⟨s₁, e₁, hc, rfl, hm, hw nofun⟩, s₂, e₂, hd, rfl, (tick_keeps_to_mode hd).right.right rfl⟩

end Session

end Atelier
