import Atelier.Proofs.Schedule.Polling

/-!
Restarts of the program. Of a schedule all is kept but two counts: the messages of the current break, and
the invalid answers to the current check-in. So a restart goes unnoticed unless one of them has begun.
-/

namespace Atelier.Schedule

-- What a session asks of its schedule.
inductive Call
  | poll
  | activity
  | answer (text : String)
  | messageSent

inductive Reply
  | transition (t : Option Transition)
  | activity (a : Activity)
  | outcome (o : ChoiceOutcome)
  | noted
deriving DecidableEq

namespace Call

def reply (s : Schedule) (now : Instant) : Call → Reply
  | poll        => .transition (s.poll now).2
  | activity    => .activity (s.activity now)
  | answer text => .outcome (s.answer text now).2
  | messageSent => .noted

def take (s : Schedule) (now : Instant) : Call → Schedule
  | poll        => (s.poll now).1
  | activity    => s
  | answer text => (s.answer text now).1
  | messageSent => s.messageSent

end Call

def after (s : Schedule) (calls : List (Instant × Call)) : Schedule :=
  calls.foldl (fun s (now, c) => c.take s now) s

-- All that can be seen of a schedule: the replies to some calls, each with the mode that the call leaves.
def replies (s : Schedule) : List (Instant × Call) → List (Reply × Mode)
  | []               => []
  | (now, c) :: rest => (c.reply s now, (c.take s now).mode) :: (c.take s now).replies rest

variable {s t : Schedule} {now : Instant}

/-! Schedules that cannot be told apart -/

-- The counts may be others where they do not matter: every break and every check-in begins with counts
-- of its own.
inductive Agrees (s : Schedule) : Schedule → Prop
  | intro (messages attempts : Nat) : (s.mode = .chatting → messages = s.chatMessages) →
      (s.mode = .awaitingChoice → attempts = s.invalidChoices) →
      s.Agrees { s with chatMessages := messages, invalidChoices := attempts }

theorem Agrees.poll (h : s.Agrees t) (now : Instant) :
    (t.poll now).2 = (s.poll now).2 ∧ (s.poll now).1.Agrees (t.poll now).1 := by
  obtain ⟨messages, attempts, hm, ha⟩ := h
  have h := Agrees.intro messages attempts hm ha
  simp only [Schedule.poll]
  split
  case h_1 =>
    split
    case isTrue => exact ⟨rfl, .intro messages 0 nofun fun _ => rfl⟩
    case isFalse => exact ⟨rfl, h⟩
  case h_2 =>
    split
    case isTrue => exact ⟨rfl, .intro messages attempts nofun nofun⟩
    case isFalse => exact ⟨rfl, h⟩
  case h_3 =>
    split
    case isTrue => exact ⟨rfl, .intro messages 0 nofun fun _ => rfl⟩
    case isFalse =>
      split
      case isTrue => exact ⟨rfl, h⟩
      case isFalse => exact ⟨rfl, .intro messages attempts nofun nofun⟩
  case h_4 => exact ⟨rfl, h⟩

theorem Agrees.activity_eq (h : s.Agrees t) (now : Instant) : t.activity now = s.activity now := by
  obtain ⟨_, _, hm, _⟩ := h
  simp only [activity]
  split
  case h_3 hc => rw [hm hc]
  all_goals rfl

theorem Agrees.choose (h : s.Agrees t) (c : Choice) (now : Instant) :
    (s.choose c now).Agrees (t.choose c now) := by
  obtain ⟨messages, _, _, _⟩ := h
  cases c
  case chat => exact .intro 0 0 (fun _ => rfl) nofun
  case dream => exact .intro messages 0 nofun nofun
  case draw => exact .intro messages 0 nofun nofun

theorem Agrees.answer (h : s.Agrees t) (text : String) (now : Instant) :
    (t.answer text now).2 = (s.answer text now).2 ∧
      (s.answer text now).1.Agrees (t.answer text now).1 := by
  obtain ⟨messages, attempts, hm, ha⟩ := h
  have h := Agrees.intro messages attempts hm ha
  simp only [Schedule.answer]
  split
  case isTrue => exact ⟨rfl, h⟩
  case isFalse hc =>
    split
    case h_1 c _ => exact ⟨rfl, h.choose c now⟩
    case h_2 =>
      rw [ha (Classical.not_not.mp hc)]
      split
      case isTrue => exact ⟨rfl, h.choose .draw now⟩
      case isFalse => exact ⟨rfl, .intro messages _ hm fun _ => rfl⟩

theorem Agrees.take (h : s.Agrees t) (now : Instant) (c : Call) :
    c.reply t now = c.reply s now ∧ (c.take s now).Agrees (c.take t now) := by
  cases c
  case poll => exact ⟨congrArg Reply.transition (h.poll now).left, (h.poll now).right⟩
  case activity => exact ⟨congrArg Reply.activity (h.activity_eq now), h⟩
  case answer text => exact ⟨congrArg Reply.outcome (h.answer text now).left, (h.answer text now).right⟩
  case messageSent =>
    obtain ⟨messages, attempts, hm, ha⟩ := h
    exact ⟨rfl, .intro (messages + 1) attempts (fun hc => congrArg (· + 1) (hm hc)) ha⟩

theorem Agrees.mode_eq (h : s.Agrees t) : t.mode = s.mode := by
  cases h
  rfl

theorem Agrees.replies_eq (h : s.Agrees t) (calls : List (Instant × Call)) :
    t.replies calls = s.replies calls := by
  induction calls generalizing s t
  case nil => rfl
  case cons call rest ih =>
    have ⟨now, c⟩ := call
    have ⟨hr, ht⟩ := h.take now c
    simp only [replies, hr, ht.mode_eq, ih ht]

/-! Counts that matter -/

-- The invalid answers to a check-in do not reach the number at which it ends.
structure Patient (s : Schedule) (r : Routine) : Prop where
  routine : s.routine = r
  invalidChoices : s.mode = .awaitingChoice → s.invalidChoices = 0 ∨ s.invalidChoices < r.maxRetries

variable {r : Routine}

theorem patient_poll (h : s.Patient r) (now : Instant) : (s.poll now).1.Patient r := by
  have hp := s.polls_poll now
  generalize s.poll now = polled at hp
  cases hp
  case waits => exact h
  case checksIn => exact ⟨h.routine, fun _ => .inl rfl⟩
  case endsChat => exact ⟨h.routine, nofun⟩
  case endsRest => exact ⟨h.routine, fun _ => .inl rfl⟩
  case deepens => exact ⟨h.routine, nofun⟩

theorem patient_choose (h : s.Patient r) (c : Choice) (now : Instant) : (s.choose c now).Patient r := by
  cases c
  all_goals exact ⟨h.routine, nofun⟩

theorem patient_answer (h : s.Patient r) (text : String) (now : Instant) :
    (s.answer text now).1.Patient r := by
  have ha := s.answers_answer text now
  generalize s.answer text now = answered at ha
  cases ha
  case ignores => exact h
  case accepts c _ _ => exact patient_choose h c now
  case defaults => exact patient_choose h .draw now
  case counts hr => exact ⟨h.routine, fun _ => .inr (h.routine ▸ hr)⟩

theorem patient_take (h : s.Patient r) (now : Instant) (c : Call) : (c.take s now).Patient r := by
  cases c
  case poll => exact patient_poll h now
  case activity => exact h
  case answer text => exact patient_answer h text now
  case messageSent => exact ⟨h.routine, h.invalidChoices⟩

theorem patient_after (h : s.Patient r) (calls : List (Instant × Call)) : (s.after calls).Patient r := by
  induction calls generalizing s
  case nil => exact h
  case cons call rest ih => exact ih (patient_take h call.1 call.2)

theorem patient_start (r : Routine) (now : Instant) : (start r now).Patient r :=
  ⟨rfl, nofun⟩

theorem activity_eq_chatOpening_iff :
    s.activity now = .chatOpening ↔ s.mode = .chatting ∧ s.chatMessages = 0 := by
  unfold activity
  split
  case h_3 hc =>
    split
    case h_1 hn => simp [hc, hn]
    case h_2 hn => split <;> simp [hn]
    case h_3 hn _ => simpa using fun _ => hn
  all_goals simp_all

theorem outcome_eq_invalid_iff {text : String} (hm : s.mode = .awaitingChoice)
    (ht : Choice.ofAnswer? text = none) {n : Nat} :
    (s.answer text now).2 = .invalid n ↔ n < s.routine.maxRetries ∧ n = s.invalidChoices + 1 := by
  simp only [answer, hm, ht, ne_eq, not_true_eq_false, if_false]
  split
  case isTrue h =>
    simp only [reduceCtorEq, false_iff]
    omega
  case isFalse h =>
    simp only [ChoiceOutcome.invalid.injEq]
    omega

theorem restore_snapshot (s : Schedule) :
    restore s.routine s.snapshot = { s with chatMessages := 0, invalidChoices := 0 } := by
  simp only [restore, snapshot, Mode.ofKind_kind]

-- A blank answer is counted, and the count is told.
theorem Patient.invalidChoices_eq_zero (h : s.Patient r) (hm : s.mode = .awaitingChoice)
    (ha : ((restore r s.snapshot).answer "" now).2 = (s.answer "" now).2) : s.invalidChoices = 0 := by
  have hn : Choice.ofAnswer? "" = none := by decide
  by_cases hz : s.invalidChoices = 0
  case pos => exact hz
  case neg =>
    have hl := (h.invalidChoices hm).resolve_left hz
    have ho : ((restore r s.snapshot).answer "" now).2 = .invalid 1 := by
      refine (outcome_eq_invalid_iff ((mode_restore_snapshot r s).trans hm) hn).mpr ⟨?_, rfl⟩
      exact Nat.lt_of_le_of_lt (Nat.pos_of_ne_zero hz) hl
    rw [ha] at ho
    exact Nat.succ.inj ((outcome_eq_invalid_iff hm hn).mp ho).right.symm

-- After any course of events, nobody can tell that there was a restart if and only if the break has not
-- seen a message yet and the check-in no invalid answer.
theorem restart_unnoticed_iff (r : Routine) (begun : Instant) (earlier : List (Instant × Call)) :
    let s := (start r begun).after earlier
    (∀ later, (restore r s.snapshot).replies later = s.replies later) ↔
      (s.mode = .chatting → s.chatMessages = 0) ∧ (s.mode = .awaitingChoice → s.invalidChoices = 0) := by
  intro s
  have hp : s.Patient r := patient_after (patient_start r begun) earlier
  constructor
  case mp =>
    intro h
    have hr (c : Call) : c.reply (restore r s.snapshot) begun = c.reply s begun :=
      congrArg Prod.fst (List.cons.inj (h [(begun, c)])).left
    refine ⟨fun hm => ?_, fun hm => ?_⟩
    case refine_1 =>
      have ho : (restore r s.snapshot).activity begun = .chatOpening :=
        activity_eq_chatOpening_iff.mpr ⟨(mode_restore_snapshot r s).trans hm, rfl⟩
      rw [Reply.activity.inj (hr .activity)] at ho
      exact (activity_eq_chatOpening_iff.mp ho).right
    case refine_2 => exact hp.invalidChoices_eq_zero hm (Reply.outcome.inj (hr (.answer "")))
  case mpr =>
    rintro ⟨hc, ha⟩ later
    apply Agrees.replies_eq
    rw [← hp.routine, restore_snapshot]
    exact .intro 0 0 (fun hm => (hc hm).symm) fun hm => (ha hm).symm

-- The opening of the break has been said, and after a restart it is said again.
theorem restart_repeats_opening :
    let s := (start .standard ⟨0, 0⟩).after
      [(⟨2700, 0⟩, .poll), (⟨2700, 0⟩, .answer "CHAT"), (⟨2700, 0⟩, .messageSent)]
    s.replies [(⟨2701, 0⟩, .activity)] = [(.activity .chatIdle, .chatting)] ∧
      (restore .standard s.snapshot).replies [(⟨2701, 0⟩, .activity)] =
        [(.activity .chatOpening, .chatting)] := by
  decide

end Atelier.Schedule
