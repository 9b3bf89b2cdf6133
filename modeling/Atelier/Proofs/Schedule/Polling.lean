import Atelier.Proofs.Instant.Order
import Atelier.Schedule

/-!
What polls and answers can do. A poll does nothing, if nothing is due, or makes one of the changes that only
the time brings about; an answer counts at a check-in only. A rest is begun by an answer and ended by a poll,
and by nothing else.
-/

namespace Atelier

def Mode.IsResting (m : Mode) : Prop :=
  ∃ p, m = .resting p

-- The mode that a change leads to.
def Transition.mode : Transition → Mode
  | checkIn            => .awaitingChoice
  | chatEnded          => .drawing
  | phaseChanged phase => .resting phase
  | restEnded          => .awaitingChoice

namespace Schedule

-- Nothing is due at a time.
structure IsQuiet (s : Schedule) (now : Instant) : Prop where
  drawing : s.mode = .drawing → ¬now.since s.lastCheckIn ≥ s.routine.checkInInterval
  chatting : s.mode = .chatting → ¬now.since s.modeStart ≥ s.routine.breakDuration
  resting : ∀ p, s.mode = .resting p →
    ¬now.since s.modeStart ≥ s.routine.restDuration ∧ .ofElapsed (now.since s.modeStart) = p

inductive Polls (s : Schedule) (now : Instant) : Schedule × Option Transition → Prop
  | waits : s.IsQuiet now → Polls s now (s, none)
  | checksIn : s.mode = .drawing → now.since s.lastCheckIn ≥ s.routine.checkInInterval →
      Polls s now ({ s with invalidChoices := 0 }.enter .awaitingChoice now, some .checkIn)
  | endsChat : s.mode = .chatting → now.since s.modeStart ≥ s.routine.breakDuration →
      Polls s now ({ s with lastCheckIn := now }.enter .drawing now, some .chatEnded)
  | endsRest (p : SleepPhase) : s.mode = .resting p →
      now.since s.modeStart ≥ s.routine.restDuration →
      Polls s now ({ s with invalidChoices := 0 }.enter .awaitingChoice now, some .restEnded)
  | deepens (p q : SleepPhase) : s.mode = .resting p →
      ¬now.since s.modeStart ≥ s.routine.restDuration → .ofElapsed (now.since s.modeStart) = q →
      q ≠ p → Polls s now ({ s with mode := .resting q, phaseStart := now }, some (.phaseChanged q))

theorem polls_poll (s : Schedule) (now : Instant) : s.Polls now (s.poll now) := by
  unfold poll
  split
  case h_1 hm =>
    split
    case isTrue hd => exact .checksIn hm hd
    case isFalse hd => exact .waits ⟨fun _ => hd, by simp [hm], by simp [hm]⟩
  case h_2 hm =>
    split
    case isTrue hd => exact .endsChat hm hd
    case isFalse hd => exact .waits ⟨by simp [hm], fun _ => hd, by simp [hm]⟩
  case h_3 p hm =>
    split
    case isTrue hd => exact .endsRest p hm hd
    case isFalse hd =>
      simp only
      split
      case isTrue hp =>
        refine .waits ⟨by simp [hm], by simp [hm], fun q hq => ⟨hd, hp.trans ?_⟩⟩
        exact Mode.resting.inj (hm.symm.trans hq)
      case isFalse hp => exact .deepens p _ hm hd rfl hp
  case h_4 hm => exact .waits ⟨by simp [hm], by simp [hm], by simp [hm]⟩

inductive Answers (s : Schedule) (text : String) (now : Instant) : Schedule × ChoiceOutcome → Prop
  | ignores : s.mode ≠ .awaitingChoice → Answers s text now (s, .invalid 0)
  | accepts (c : Choice) : s.mode = .awaitingChoice → Choice.ofAnswer? text = some c →
      Answers s text now (s.choose c now, .accepted c)
  | defaults : s.mode = .awaitingChoice → Choice.ofAnswer? text = none →
      s.routine.maxRetries ≤ s.invalidChoices + 1 →
      Answers s text now (s.choose .draw now, .defaulted)
  | counts : s.mode = .awaitingChoice → Choice.ofAnswer? text = none →
      s.invalidChoices + 1 < s.routine.maxRetries →
      Answers s text now
        ({ s with invalidChoices := s.invalidChoices + 1 }, .invalid (s.invalidChoices + 1))

theorem answers_answer (s : Schedule) (text : String) (now : Instant) :
    s.Answers text now (s.answer text now) := by
  unfold answer
  split
  case isTrue hm => exact .ignores hm
  case isFalse hm =>
    have hm : s.mode = .awaitingChoice := Classical.not_not.mp hm
    split
    case h_1 c hc => exact .accepts c hm hc
    case h_2 hn =>
      simp only
      split
      case isTrue hr => exact .defaults hm hn hr
      case isFalse hr => exact .counts hm hn (Nat.not_le.mp hr)

variable {s : Schedule} {now : Instant}

theorem IsQuiet.poll_eq (h : s.IsQuiet now) : s.poll now = (s, none) := by
  have hp := s.polls_poll now
  generalize s.poll now = polled at hp
  cases hp
  case waits => rfl
  case checksIn hm hd => exact absurd hd (h.drawing hm)
  case endsChat hm hd => exact absurd hd (h.chatting hm)
  case endsRest p hm hd => exact absurd hd (h.resting p hm).left
  case deepens p _ hm _ hq hn => exact absurd (hq.symm.trans (h.resting p hm).right) hn

theorem isQuiet_of_awaitingChoice (h : s.mode = .awaitingChoice) : s.IsQuiet now :=
  ⟨fun hm => (nomatch h.symm.trans hm), fun hm => (nomatch h.symm.trans hm),
    fun _ hm => (nomatch h.symm.trans hm)⟩

-- A change that is due is made at once, and does not make another one due.
theorem isQuiet_poll (h : 0 < s.routine.checkInInterval) : (s.poll now).1.IsQuiet now := by
  have hp := s.polls_poll now
  generalize s.poll now = polled at hp
  cases hp
  case waits hq => exact hq
  case checksIn => exact isQuiet_of_awaitingChoice rfl
  case endsRest => exact isQuiet_of_awaitingChoice rfl
  case endsChat =>
    refine ⟨fun _ => ?_, nofun, nofun⟩
    show ¬now.since now ≥ s.routine.checkInInterval
    rw [now.since_self]
    exact Int.not_le.mpr h
  case deepens p q _ hd hq _ =>
    refine ⟨nofun, nofun, fun q' hm => ⟨hd, ?_⟩⟩
    exact hq.trans (Mode.resting.inj hm)

theorem mode_of_transition {t : Transition} (h : (s.poll now).2 = some t) : (s.poll now).1.mode = t.mode := by
  have hp := s.polls_poll now
  generalize s.poll now = polled at hp h
  cases hp
  all_goals cases h
  all_goals rfl

theorem routine_poll (s : Schedule) (now : Instant) : (s.poll now).1.routine = s.routine := by
  have hp := s.polls_poll now
  generalize s.poll now = polled at hp
  cases hp
  all_goals rfl

theorem routine_choose (s : Schedule) (c : Choice) (now : Instant) : (s.choose c now).routine = s.routine := by
  cases c
  all_goals rfl

theorem routine_answer (s : Schedule) (text : String) (now : Instant) :
    (s.answer text now).1.routine = s.routine := by
  have ha := s.answers_answer text now
  generalize s.answer text now = answered at ha
  cases ha
  case accepts c _ _ => exact s.routine_choose c now
  case defaults => exact s.routine_choose .draw now
  all_goals rfl

/-! Rests -/

-- A rest goes on until its end is told.
theorem isResting_poll_iff :
    (s.poll now).1.mode.IsResting ↔ s.mode.IsResting ∧ (s.poll now).2 ≠ some .restEnded := by
  unfold Mode.IsResting
  have hp := s.polls_poll now
  generalize s.poll now = polled at hp
  cases hp
  case waits => simp
  case checksIn hm _ => simp [hm]
  case endsChat hm _ => simp [hm, enter]
  case endsRest => simp
  case deepens hm _ _ _ => simp [hm]

theorem isResting_choose_iff {c : Choice} : (s.choose c now).mode.IsResting ↔ c = .dream := by
  cases c
  case dream => exact ⟨fun _ => rfl, fun _ => ⟨_, rfl⟩⟩
  all_goals exact ⟨nofun, nofun⟩

theorem isResting_answer_iff {text : String} (hm : s.mode = .awaitingChoice) :
    (s.answer text now).1.mode.IsResting ↔ (s.answer text now).2 = .accepted .dream := by
  have ha := s.answers_answer text now
  generalize s.answer text now = answered at ha
  cases ha
  case ignores hn => exact absurd hm hn
  case accepts => exact isResting_choose_iff.trans ⟨congrArg _, ChoiceOutcome.accepted.inj⟩
  case defaults => exact isResting_choose_iff.trans ⟨nofun, nofun⟩
  case counts =>
    simp only [hm]
    exact ⟨nofun, nofun⟩

end Schedule

end Atelier
