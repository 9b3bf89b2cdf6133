import Atelier.Proofs.Instant.Order
import Atelier.Proofs.Schedule.Polling
import Mathlib.Data.List.Chain

/-!
Runs of a schedule: whatever happens at times that do not go back, the mode only changes in the ways
that the routine is made of, and sleep only goes forward.
-/

namespace Atelier

namespace SleepPhase

def rank : SleepPhase → Nat
  | light  => 0
  | rem    => 1
  | waking => 2

theorem rank_ofElapsed_mono {a b : Span} (h : a ≤ b) : (ofElapsed a).rank ≤ (ofElapsed b).rank := by
  have hlt {c : Span} (hb : b < c) : a < c := Int.lt_of_le_of_lt h hb
  unfold ofElapsed
  by_cases hl : b < Span.ofSeconds 1200
  case pos => rw [if_pos hl, if_pos (hlt hl)]
  case neg =>
    rw [if_neg hl]
    by_cases hr : b < Span.ofSeconds 2400
    case pos =>
      rw [if_pos hr, if_pos (hlt hr)]
      split <;> decide
    case neg =>
      rw [if_neg hr]
      split
      case isTrue => decide
      case isFalse => split <;> decide

end SleepPhase

namespace Mode

def KeepsSleepForward (m n : Mode) : Prop :=
  ∀ p q, m = resting p → n = resting q → p.rank ≤ q.rank

theorem canTransition_self (m : Mode) : m.canTransition m = true := by
  cases m
  case resting p => cases p <;> rfl
  all_goals rfl

theorem canTransition_resting_of_rank_le {p q : SleepPhase} (h : p.rank ≤ q.rank) :
    canTransition (resting p) (resting q) = true := by
  revert h
  cases p <;> cases q <;> decide

end Mode

namespace Schedule

-- What can happen to a schedule: it is polled, it takes an answer, it hears of a message, or the program
-- stops and goes on from what was kept, maybe with another routine.
inductive Step
  | poll
  | answer (text : String)
  | messageSent
  | restart (routine : Routine)

def Step.take (s : Schedule) (now : Instant) : Step → Schedule
  | poll        => (s.poll now).1
  | answer text => (s.answer text now).1
  | messageSent => s.messageSent
  | restart r   => restore r s.snapshot

-- All states that a run goes through, the first one and the last one included.
def states (s : Schedule) : List (Instant × Step) → List Schedule
  | []               => [s]
  | (now, e) :: rest => s :: (e.take s now).states rest

variable {s : Schedule} {t now : Instant}

-- How a step can leave the mode: as it is, in another phase of the same rest, or in a mode that the
-- routine comes to from the old one and that begins now.
inductive Moves (s : Schedule) (now : Instant) (s' : Schedule) : Prop
  | stays : s'.mode = s.mode → s'.modeStart = s.modeStart → Moves s now s'
  | deepens (p) : s.mode = .resting p →
      s'.mode = .resting (.ofElapsed (now.since s.modeStart)) → s'.modeStart = s.modeStart →
      Moves s now s'
  | enters : s.mode.canTransition s'.mode = true → s.mode.KeepsSleepForward s'.mode →
      (∀ p, s'.mode = .resting p → p = .light) → s'.modeStart = now → Moves s now s'

theorem moves_choose (h : s.mode = .awaitingChoice) (c : Choice) (now : Instant) :
    Moves s now (s.choose c now) := by
  have hs (m : Mode) : s.mode.KeepsSleepForward m := by
    rw [h]
    intro _ _ hp
    cases hp
  cases c
  case chat => exact .enters (h ▸ rfl) (hs _) nofun rfl
  case draw => exact .enters (h ▸ rfl) (hs _) nofun rfl
  case dream =>
    refine .enters (h ▸ rfl) (hs _) ?_ rfl
    intro _ hp
    cases hp
    rfl

theorem moves_poll (s : Schedule) (now : Instant) : Moves s now (s.poll now).1 := by
  have hp := s.polls_poll now
  generalize s.poll now = polled at hp
  cases hp
  case waits => exact .stays rfl rfl
  case checksIn h _ => exact .enters (h ▸ rfl) (by simp [Mode.KeepsSleepForward]) (by simp) rfl
  case endsChat h _ => exact .enters (h ▸ rfl) (by simp [Mode.KeepsSleepForward, enter]) (by simp [enter]) rfl
  case endsRest p h _ =>
    refine .enters ?_ (by simp [Mode.KeepsSleepForward]) (by simp) rfl
    rw [h]
    cases p <;> rfl
  case deepens p _ h _ hq _ => exact .deepens p h (hq ▸ rfl) rfl

theorem moves_answer (s : Schedule) (text : String) (now : Instant) :
    Moves s now (s.answer text now).1 := by
  have ha := s.answers_answer text now
  generalize s.answer text now = answered at ha
  cases ha
  case ignores => exact .stays rfl rfl
  case accepts c h _ => exact moves_choose h c now
  case defaults h _ _ => exact moves_choose h .draw now
  case counts => exact .stays rfl rfl

theorem moves_take (s : Schedule) (now : Instant) (e : Step) : Moves s now (e.take s now) := by
  cases e
  case poll => exact s.moves_poll now
  case answer text => exact s.moves_answer text now
  case messageSent => exact .stays rfl rfl
  case restart r => exact .stays (mode_restore_snapshot r s) rfl

-- A rest is never in a deeper phase than the time of the latest step allows.
structure InPace (s : Schedule) (t : Instant) : Prop where
  onClock : s.modeStart.OnClock
  rank_le : ∀ p, s.mode = .resting p → p.rank ≤ (SleepPhase.ofElapsed (t.since s.modeStart)).rank

theorem inPace_start (r : Routine) (ht : t.OnClock) : (start r t).InPace t :=
  ⟨ht, fun _ hp => by cases hp⟩

theorem InPace.take (h : s.InPace t) (ht : t.OnClock) (hn : now.OnClock) (hle : t ≤ now) (e : Step) :
    (s.mode.canTransition (e.take s now).mode = true ∧ s.mode.KeepsSleepForward (e.take s now).mode) ∧
      (e.take s now).InPace now := by
  have hmono := SleepPhase.rank_ofElapsed_mono (Instant.since_mono h.onClock ht hn hle)
  cases s.moves_take now e
  case stays hm hs =>
    rw [hm]
    refine ⟨⟨s.mode.canTransition_self, ?_⟩, hs ▸ h.onClock, ?_⟩
    case refine_1 =>
      intro p q hp hq
      cases hp.symm.trans hq
      exact Nat.le_refl _
    case refine_2 =>
      rw [hm, hs]
      exact fun p hp => Nat.le_trans (h.rank_le p hp) hmono
  case deepens p hp hm hs =>
    have hr := Nat.le_trans (h.rank_le p hp) hmono
    rw [hm, hp]
    refine ⟨⟨Mode.canTransition_resting_of_rank_le hr, ?_⟩, hs ▸ h.onClock, ?_⟩
    case refine_1 =>
      intro _ _ hp hq
      cases hp
      cases hq
      exact hr
    case refine_2 =>
      rw [hm, hs]
      intro q hq
      cases hq
      exact Nat.le_refl _
  case enters hc hf hl hs =>
    refine ⟨⟨hc, hf⟩, by rwa [hs], ?_⟩
    intro p hp
    rw [hl p hp]
    exact Nat.zero_le _

theorem InPace.modes_states (h : s.InPace t) {steps : List (Instant × Step)}
    (hc : ∀ u ∈ t :: steps.map Prod.fst, u.OnClock) (ho : (t :: steps.map Prod.fst).Pairwise (· ≤ ·)) :
    ((s.states steps).map mode).IsChain fun m n =>
      m.canTransition n = true ∧ m.KeepsSleepForward n := by
  induction steps generalizing s t
  case nil => exact .singleton _
  case cons step rest ih =>
    have ⟨now, e⟩ := step
    simp only [List.map_cons, List.mem_cons, forall_eq_or_imp] at hc
    simp only [List.map_cons, List.pairwise_cons, List.mem_cons, forall_eq_or_imp] at ho
    obtain ⟨ht, hn, hc⟩ := hc
    obtain ⟨⟨hle, _⟩, hlater, ho⟩ := ho
    have ⟨hm, hp⟩ := h.take ht hn hle e
    have hrest := ih hp (List.forall_mem_cons.mpr ⟨hn, hc⟩) (List.pairwise_cons.mpr ⟨hlater, ho⟩)
    simp only [states, List.map_cons]
    cases rest
    all_goals exact .cons_cons hm hrest

-- In every run from a fresh schedule, each state follows from the one before by an allowed change of
-- mode, and sleep never goes back.
theorem modes_of_run (r : Routine) {steps : List (Instant × Step)}
    (hc : ∀ u ∈ t :: steps.map Prod.fst, u.OnClock) (ho : (t :: steps.map Prod.fst).Pairwise (· ≤ ·)) :
    (((start r t).states steps).map mode).IsChain fun m n =>
      m.canTransition n = true ∧ m.KeepsSleepForward n :=
  (inPace_start r (hc t List.mem_cons_self)).modes_states hc ho

-- A rest through all its phases, with a restart in the middle of it, and a chat after it.
def restAndChat : List (Instant × Step) :=
  [(⟨2700, 0⟩, .poll), (⟨2700, 500000000⟩, .answer " dream "), (⟨3901, 0⟩, .poll),
    (⟨3902, 0⟩, .restart .standard), (⟨5101, 0⟩, .poll), (⟨6301, 0⟩, .poll), (⟨6302, 0⟩, .answer "maybe"),
    (⟨6302, 0⟩, .answer "CHAT"), (⟨6303, 0⟩, .messageSent), (⟨7502, 0⟩, .poll)]

theorem modes_of_rest_and_chat :
    ((start .standard ⟨0, 0⟩).states restAndChat).map mode =
      [.drawing, .awaitingChoice, .resting .light, .resting .rem, .resting .rem, .resting .waking,
        .awaitingChoice, .awaitingChoice, .chatting, .chatting, .drawing] ∧
    (∀ u ∈ ⟨0, 0⟩ :: restAndChat.map Prod.fst, u.OnClock) ∧
    (⟨0, 0⟩ :: restAndChat.map Prod.fst).Pairwise (· ≤ ·) ∧
    (((start .standard ⟨0, 0⟩).states restAndChat).map mode).IsChain fun m n =>
      m.canTransition n = true ∧ m.KeepsSleepForward n :=
  ⟨by decide +kernel, by decide, by decide, modes_of_run .standard (by decide) (by decide)⟩

end Schedule

end Atelier
