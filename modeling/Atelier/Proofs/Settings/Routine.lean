import Atelier.Proofs.Settings

/-!
The routine that settings describe. Their numbers of seconds are any words, but there is a longest span
of time, and a number beyond it stops the computation.
-/

namespace Atelier

-- Seconds as a span, or the longest span where there is none for them.
def Span.saturated (seconds : Nat) : Span :=
  min (ofSeconds seconds) (ofMillis maxMillis)

theorem Span.saturated_of_le {seconds : Nat} (h : (seconds : Int) ≤ maxSeconds) :
    saturated seconds = ofSeconds seconds := by
  refine Int.min_eq_left ?_
  unfold maxSeconds at h
  unfold ofSeconds ofMillis maxMillis
  omega

theorem Span.saturated_of_lt {seconds : Nat} (h : maxSeconds < (seconds : Int)) :
    saturated seconds = ofMillis maxMillis := by
  refine Int.min_eq_right ?_
  unfold maxSeconds at h
  unfold ofSeconds ofMillis maxMillis
  omega

namespace Settings

-- The largest word that is cut to is a thousand times too long for a span of seconds.
theorem span_eq (seconds : Nat) :
    span seconds =
      if (seconds : Int) ≤ Span.maxSeconds then .ok (Span.saturated seconds)
      else .error .spanTooLong := by
  simp only [span, Span.ofSecondsChecked]
  split
  case isTrue h =>
    have hl : (seconds : Int) ≤ Span.maxSeconds := by
      unfold Span.maxSeconds at h ⊢
      omega
    have hm : min (seconds : Int) 9223372036854775807 = seconds := by
      unfold Span.maxSeconds at hl
      omega
    rw [if_pos hl, Span.saturated_of_le hl, hm]
  case isFalse h =>
    refine (if_neg fun hl => h ?_).symm
    unfold Span.maxSeconds at hl ⊢
    omega

-- There is a span for each number of seconds.
structure HasSpans (s : Settings) : Prop where
  checkInInterval : (s.checkInInterval : Int) ≤ Span.maxSeconds
  breakDuration : (s.breakDuration : Int) ≤ Span.maxSeconds
  restDuration : (s.restDuration : Int) ≤ Span.maxSeconds
  chatFollowUp : (s.chatFollowUp : Int) ≤ Span.maxSeconds

def saturatedRoutine (s : Settings) : Routine where
  checkInInterval := .saturated s.checkInInterval
  breakDuration := .saturated s.breakDuration
  restDuration := .saturated s.restDuration
  chatFollowUp := .saturated s.chatFollowUp
  maxRetries := max s.maxChoiceRetries 1

theorem HasSpans.routine_eq {s : Settings} (h : s.HasSpans) : s.routine = .ok s.saturatedRoutine := by
  unfold routine
  simp only [span_eq, h.checkInInterval, h.breakDuration, h.restDuration, h.chatFollowUp, if_true]
  rfl

theorem routine_eq_of_not_hasSpans {s : Settings} (h : ¬s.HasSpans) :
    s.routine = .error .spanTooLong := by
  simp only [routine, span_eq]
  by_cases h₁ : (s.checkInInterval : Int) ≤ Span.maxSeconds
  case neg => rw [if_neg h₁]; rfl
  by_cases h₂ : (s.breakDuration : Int) ≤ Span.maxSeconds
  case neg => rw [if_pos h₁, if_neg h₂]; rfl
  by_cases h₃ : (s.restDuration : Int) ≤ Span.maxSeconds
  case neg => rw [if_pos h₁, if_pos h₂, if_neg h₃]; rfl
  by_cases h₄ : (s.chatFollowUp : Int) ≤ Span.maxSeconds
  case neg => rw [if_pos h₁, if_pos h₂, if_pos h₃, if_neg h₄]; rfl
  exact absurd ⟨h₁, h₂, h₃, h₄⟩ h

theorem routine_saturates_iff (s : Settings) :
    (s.routine = .ok s.saturatedRoutine ↔ s.HasSpans) ∧
    (s.routine = .error .spanTooLong ↔ ¬s.HasSpans) ∧
    1 ≤ s.saturatedRoutine.maxRetries := by
  have hm : 1 ≤ s.saturatedRoutine.maxRetries := Nat.le_max_right _ _
  by_cases h : s.HasSpans
  case pos => simp [h, h.routine_eq, hm]
  case neg => simp [h, routine_eq_of_not_hasSpans h, hm]

-- A second more than there is a span for.
def longPause : Settings :=
  { standard with checkInInterval := 9223372036854776 }

theorem isStorable_longPause : longPause.IsStorable where
  model := ⟨by decide⟩
  width := by decide
  height := by decide
  checkInInterval := by decide
  breakDuration := by decide
  restDuration := by decide
  chatFollowUp := by decide
  maxChoiceRetries := by decide
  fixedDelay := nofun
  saveEverySteps := by decide
  retention := trivial

theorem long_pause_has_no_routine :
    load? (some longPause.text) = some longPause ∧
    longPause.saturatedRoutine.checkInInterval = .ofMillis Span.maxMillis ∧
    longPause.routine = .error .spanTooLong := by
  have hs : ¬longPause.HasSpans := fun h => absurd h.checkInInterval (by decide)
  exact ⟨load?_text isStorable_longPause, Span.saturated_of_lt (by decide),
    routine_eq_of_not_hasSpans hs⟩

end Settings

end Atelier
