import Atelier.Proofs.Schedule.Moments

/-!
Answers to a check-in. Invalid ones are counted from one on in each check-in, up to a limit at which drawing
goes on; a valid one ends it at once.
-/

namespace Atelier

-- The number of attempts that an answer is told of.
def ChoiceOutcome.attempts? : ChoiceOutcome → Option Nat
  | invalid n => some n
  | _         => none

namespace Schedule

variable {s : Schedule} {now : Instant} {m : Moment} {steps : List (Instant × Step)}

namespace Moment

-- A check-in begins. A restart in the middle of one forgets the answers to it, so it begins anew.
def OpensCheckIn (m : Moment) : Prop :=
  m.after.mode = .awaitingChoice ∧ (m.before.mode ≠ .awaitingChoice ∨ m.isRestart)

def IsInCheckIn (m : Moment) : Prop :=
  m.before.mode = .awaitingChoice ∧ ¬m.isRestart

instance (m : Moment) : Decidable m.OpensCheckIn :=
  inferInstanceAs (Decidable (_ ∧ _))

instance (m : Moment) : Decidable m.IsInCheckIn :=
  inferInstanceAs (Decidable (_ ∧ _))

-- There is an answer that does not choose.
def isRefused (m : Moment) : Bool :=
  match m.step with
  | .answer text => (Choice.ofAnswer? text).isNone
  | _            => false

def attempts? (m : Moment) : Option Nat :=
  m.outcome?.bind ChoiceOutcome.attempts?

end Moment

/-! One moment -/

theorem Moment.exists_outcome {text : String} (h : m.step = .answer text) :
    ∃ o, m.outcome? = some o ∧ m.before.Answers text m.now (m.after, o) := by
  obtain ⟨s, now, e⟩ := m
  cases h
  exact ⟨_, rfl, s.answers_answer text now⟩

theorem mode_choose_ne (s : Schedule) (c : Choice) (now : Instant) :
    (s.choose c now).mode ≠ .awaitingChoice := by
  cases c
  all_goals nofun

theorem Moment.OpensCheckIn.invalidChoices_eq (h : m.OpensCheckIn) : m.after.invalidChoices = 0 := by
  obtain ⟨s, now, e⟩ := m
  obtain ⟨ha, hb⟩ := h
  cases e
  case poll =>
    change (s.poll now).1.mode = .awaitingChoice at ha
    change (s.poll now).1.invalidChoices = 0
    have hp := s.polls_poll now
    generalize s.poll now = polled at hp ha ⊢
    cases hp
    case waits => exact absurd ha (hb.resolve_right nofun)
    case checksIn => rfl
    case endsRest => rfl
    all_goals cases ha
  case answer text =>
    have hb : s.mode ≠ .awaitingChoice := hb.resolve_right nofun
    change (s.answer text now).1.mode = .awaitingChoice at ha
    rw [answer, if_pos hb] at ha
    exact absurd ha hb
  case messageSent => exact absurd ha (hb.resolve_right nofun)
  case restart => rfl

-- A moment after which the check-in goes on: nobody answers, or an answer is refused and counted.
inductive Lingers (m : Moment) : Prop
  | silent : m.isRefused = false → m.attempts? = none → m.after.routine = m.before.routine →
      m.after.invalidChoices = m.before.invalidChoices → Lingers m
  | refused : m.isRefused = true → m.attempts? = some (m.before.invalidChoices + 1) →
      m.after.routine = m.before.routine → m.after.invalidChoices = m.before.invalidChoices + 1 →
      m.before.invalidChoices + 1 < m.before.routine.maxRetries → Lingers m

theorem lingers_of_answer {text : String} (he : m.step = .answer text)
    (hm : m.before.mode = .awaitingChoice) (ha : m.after.mode = .awaitingChoice) : Lingers m := by
  obtain ⟨o, ho, hs⟩ := Moment.exists_outcome he
  have hr : m.isRefused = (Choice.ofAnswer? text).isNone := by rw [Moment.isRefused, he]
  have hn : m.attempts? = o.attempts? := by rw [Moment.attempts?, ho, Option.bind_some]
  generalize hx : m.after = after at hs ha
  cases hs
  case ignores hi => exact absurd hm hi
  case accepts => exact absurd ha (mode_choose_ne _ _ _)
  case defaults => exact absurd ha (mode_choose_ne _ _ _)
  case counts hc hl =>
    rw [hc] at hr
    exact .refused hr hn (by rw [hx]) (by rw [hx]) hl

theorem Moment.IsInCheckIn.lingers (h : m.IsInCheckIn) (ha : m.after.mode = .awaitingChoice) :
    Lingers m := by
  have ⟨s, now, e⟩ := m
  obtain ⟨hm, hr⟩ := h
  cases e
  case poll =>
    have hq := (isQuiet_of_awaitingChoice hm : s.IsQuiet now).poll_eq
    have hs : Moment.after ⟨s, now, .poll⟩ = s := congrArg Prod.fst hq
    exact .silent rfl rfl (congrArg routine hs) (congrArg invalidChoices hs)
  case answer text => exact lingers_of_answer rfl hm ha
  case messageSent => exact .silent rfl rfl rfl rfl
  case restart => exact absurd rfl hr

/-! One check-in -/

-- Where a check-in stands after some moments of it.
structure Stands (opened : Schedule) (ms : List Moment) (s : Schedule) : Prop where
  routine : s.routine = opened.routine
  counted : s.invalidChoices = ms.countP Moment.isRefused
  told : ms.filterMap Moment.attempts? = List.range' 1 (ms.countP Moment.isRefused)
  few : ms.countP Moment.isRefused < max 1 opened.routine.maxRetries

theorem Stands.lingers {opened : Schedule} {ms : List Moment} (h : Stands opened ms m.before)
    (hl : Lingers m) : Stands opened (ms ++ [m]) m.after := by
  obtain ⟨hr, hc, ht, hf⟩ := h
  cases hl
  case silent hn ha hr' hc' =>
    have hcount : (ms ++ [m]).countP Moment.isRefused = ms.countP Moment.isRefused := by
      rw [List.countP_append, List.countP_singleton, hn]
      rfl
    refine ⟨hr'.trans hr, hc'.trans (hc.trans hcount.symm), ?_, hcount ▸ hf⟩
    rw [hcount, List.filterMap_append, List.filterMap_cons_none ha, List.filterMap_nil, List.append_nil, ht]
  case refused hn ha hr' hc' hlt =>
    have hcount : (ms ++ [m]).countP Moment.isRefused = ms.countP Moment.isRefused + 1 := by
      rw [List.countP_append, List.countP_singleton, hn]
      rfl
    refine ⟨hr'.trans hr, by rw [hc', hc, hcount], ?_, ?_⟩
    case refine_1 =>
      rw [hcount, List.filterMap_append, List.filterMap_cons_some ha, List.filterMap_nil, ht, hc,
        List.range'_1_concat, Nat.add_comm]
    case refine_2 =>
      rw [hcount, ← hc, ← hr]
      exact Nat.lt_of_lt_of_le hlt (Nat.le_max_right ..)

theorem stands_stepped {opened : Schedule} (h₀ : opened.invalidChoices = 0)
    (hs : ∀ m ∈ opened.moments steps, m.IsInCheckIn)
    (ha : (opened.stepped steps).mode = .awaitingChoice) :
    Stands opened (opened.moments steps) (opened.stepped steps) := by
  induction steps using List.reverseRecOn
  case nil => exact ⟨rfl, h₀, rfl, Nat.lt_of_lt_of_le Nat.one_pos (Nat.le_max_left ..)⟩
  case append_singleton steps step ih =>
    have ⟨now, e⟩ := step
    rw [moments_append] at hs ⊢
    rw [stepped_append] at ha ⊢
    obtain ⟨hs, hl⟩ := List.forall_mem_append.mp hs
    have hm : Moment.IsInCheckIn ⟨opened.stepped steps, now, e⟩ := hl _ List.mem_cons_self
    exact (ih hs hm.left).lingers (hm.lingers ha)

-- An answer after so many refused ones.
theorem Stands.answer {opened : Schedule} {ms : List Moment} {text : String}
    (h : Stands opened ms m.before) (hm : m.before.mode = .awaitingChoice) (he : m.step = .answer text) :
    (∀ c, Choice.ofAnswer? text = some c →
      m.outcome? = some (.accepted c) ∧ m.after.mode ≠ .awaitingChoice) ∧
    (Choice.ofAnswer? text = none →
      if ms.countP Moment.isRefused + 1 < max 1 opened.routine.maxRetries then
        m.outcome? = some (.invalid (ms.countP Moment.isRefused + 1)) ∧ m.after.mode = .awaitingChoice
      else m.outcome? = some .defaulted ∧ m.after.mode = .drawing ∧ m.after.lastCheckIn = m.now) := by
  obtain ⟨hr, hc, _, hf⟩ := h
  obtain ⟨o, ho, hs⟩ := Moment.exists_outcome he
  rw [ho, ← hc, ← hr]
  generalize m.after = after at hs
  cases hs
  case ignores hi => exact absurd hm hi
  case accepts c _ hc =>
    refine ⟨fun c' hc' => ?_, fun hn => (nomatch hc.symm.trans hn)⟩
    cases hc.symm.trans hc'
    exact ⟨rfl, mode_choose_ne _ _ _⟩
  case defaults hn hl =>
    refine ⟨fun c hc => (nomatch hn.symm.trans hc), fun _ => ?_⟩
    rw [if_neg (by omega)]
    exact ⟨rfl, rfl, rfl⟩
  case counts hn hl =>
    refine ⟨fun c hc => (nomatch hn.symm.trans hc), fun _ => ?_⟩
    rw [if_pos (by omega)]
    exact ⟨rfl, hm⟩

/-! Runs -/

-- The count never comes to the limit.
def HasTriesLeft (s : Schedule) : Prop :=
  s.invalidChoices < max 1 s.routine.maxRetries

theorem hasTriesLeft_of_none (h : s.invalidChoices = 0) : s.HasTriesLeft := by
  rw [HasTriesLeft, h]
  exact Nat.lt_of_lt_of_le Nat.one_pos (Nat.le_max_left ..)

theorem hasTriesLeft_choose (s : Schedule) (c : Choice) (now : Instant) : (s.choose c now).HasTriesLeft := by
  cases c
  all_goals exact hasTriesLeft_of_none rfl

theorem HasTriesLeft.take (h : s.HasTriesLeft) (now : Instant) (e : Step) : (e.take s now).HasTriesLeft := by
  cases e
  case poll =>
    change (s.poll now).1.HasTriesLeft
    have hp := s.polls_poll now
    generalize s.poll now = polled at hp
    cases hp
    case checksIn => exact hasTriesLeft_of_none rfl
    case endsRest => exact hasTriesLeft_of_none rfl
    all_goals exact h
  case answer text =>
    change (s.answer text now).1.HasTriesLeft
    have ha := s.answers_answer text now
    generalize s.answer text now = answered at ha
    cases ha
    case ignores => exact h
    case accepts c _ _ => exact s.hasTriesLeft_choose c now
    case defaults => exact s.hasTriesLeft_choose .draw now
    case counts hl => exact Nat.lt_of_lt_of_le hl (Nat.le_max_right ..)
  case messageSent => exact h
  case restart r => exact hasTriesLeft_of_none rfl

-- In each check-in the invalid answers are told their numbers from one on, fewer than the limit; the one that
-- comes to the limit lets drawing go on, and a valid one ends the check-in. Elsewhere answers do nothing, and
-- the count always finds a place in its word.
theorem choices_of_run (r : Routine) (begun : Instant) (steps : List (Instant × Step)) :
    let ms := (start r begun).moments steps
    (∀ earlier opening stay m later, ms = earlier ++ opening :: (stay ++ m :: later) →
      opening.OpensCheckIn → (∀ x ∈ stay ++ [m], x.IsInCheckIn) →
      let limit := max 1 opening.after.routine.maxRetries
      let refused := stay.countP Moment.isRefused
      stay.filterMap Moment.attempts? = List.range' 1 refused ∧ refused < limit ∧
      ∀ text, m.step = .answer text →
        (∀ c, Choice.ofAnswer? text = some c →
          m.outcome? = some (.accepted c) ∧ m.after.mode ≠ .awaitingChoice) ∧
        (Choice.ofAnswer? text = none →
          if refused + 1 < limit then
            m.outcome? = some (.invalid (refused + 1)) ∧ m.after.mode = .awaitingChoice
          else m.outcome? = some .defaulted ∧ m.after.mode = .drawing ∧ m.after.lastCheckIn = m.now)) ∧
    ∀ m ∈ ms,
      (∀ text, m.step = .answer text → m.before.mode ≠ .awaitingChoice →
        m.after = m.before ∧ m.outcome? = some (.invalid 0)) ∧
      (m.before.routine.maxRetries < 4294967296 → m.before.invalidChoices + 1 < 4294967296) := by
  intro ms
  refine ⟨fun earlier opening stay m later h ho hs => ?_, fun m hm => ⟨fun text he hn => ?_, fun hr => ?_⟩⟩
  case refine_1 =>
    obtain ⟨hs, hm⟩ := List.forall_mem_append.mp hs
    have hm := hm m (List.mem_singleton_self m)
    obtain ⟨between, rfl, hb⟩ := exists_between h
    have hst := stands_stepped ho.invalidChoices_eq hs (hb ▸ hm.left)
    rw [hb] at hst
    exact ⟨hst.told, hst.few, fun text he => hst.answer hm.left he⟩
  case refine_2 =>
    obtain ⟨o, ho, hs⟩ := Moment.exists_outcome he
    rw [ho]
    generalize m.after = after at hs
    cases hs
    case ignores => exact ⟨rfl, rfl⟩
    all_goals contradiction
  case refine_3 =>
    have hl : m.before.HasTriesLeft :=
      forall_moments (hasTriesLeft_of_none rfl) (fun _ now e h => h.take now e) m hm
    unfold HasTriesLeft at hl
    omega

-- A check-in that ends a rest: it is left at the second invalid answer.
def sleepless : List (Instant × Step) :=
  [(⟨2700, 0⟩, .poll), (⟨2700, 0⟩, .answer "maybe"), (⟨2701, 0⟩, .answer "dream"),
    (⟨2702, 0⟩, .answer "DRAW"), (⟨6301, 0⟩, .poll), (⟨6301, 0⟩, .messageSent), (⟨6302, 0⟩, .answer "nap"),
    (⟨6303, 0⟩, .answer "draw.")]

theorem choices_of_sleepless :
    let ms := (start { Routine.standard with maxRetries := 2 } ⟨0, 0⟩).moments sleepless
    ∃ earlier opening stay m, ms = earlier ++ opening :: (stay ++ m :: []) ∧
      opening.OpensCheckIn ∧ (∀ x ∈ stay ++ [m], x.IsInCheckIn) ∧ opening.transition? = some .restEnded ∧
      stay.filterMap Moment.attempts? = List.range' 1 1 ∧ m.step = .answer "draw." ∧
      m.outcome? = some .defaulted ∧ m.after.mode = .drawing ∧ m.after.lastCheckIn = m.now := by
  intro ms
  have ho : ms[4].OpensCheckIn := by decide
  have hs : ∀ x ∈ (ms.drop 5).take 2 ++ [ms[7]], x.IsInCheckIn := by decide
  have ⟨hall, _⟩ := choices_of_run { Routine.standard with maxRetries := 2 } ⟨0, 0⟩ sleepless
  have ⟨ht, _, ha⟩ := hall (ms.take 4) ms[4] ((ms.drop 5).take 2) ms[7] [] rfl ho hs
  have hd := (ha "draw." rfl).right (by decide)
  exact ⟨ms.take 4, ms[4], (ms.drop 5).take 2, ms[7], rfl, ho, hs, by decide, ht, rfl, hd⟩

end Schedule

end Atelier
