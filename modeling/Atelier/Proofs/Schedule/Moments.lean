import Atelier.Proofs.Schedule.Discipline

/-!
Runs of a schedule, moment by moment. A moment is one step of a run, with the schedule that the step finds.
-/

namespace Atelier.Schedule

structure Moment where
  before : Schedule
  now : Instant
  step : Step

namespace Moment

def after (m : Moment) : Schedule :=
  m.step.take m.before m.now

-- What a poll tells.
def transition? (m : Moment) : Option Transition :=
  match m.step with
  | .poll => (m.before.poll m.now).2
  | _     => none

-- What is said to an answer.
def outcome? (m : Moment) : Option ChoiceOutcome :=
  match m.step with
  | .answer text => some (m.before.answer text m.now).2
  | _            => none

def isRestart (m : Moment) : Bool :=
  match m.step with
  | .restart _ => true
  | _          => false

end Moment

-- The schedule after some steps.
def stepped (s : Schedule) (steps : List (Instant × Step)) : Schedule :=
  steps.foldl (fun s (now, e) => e.take s now) s

def moments (s : Schedule) : List (Instant × Step) → List Moment
  | []               => []
  | (now, e) :: rest => ⟨s, now, e⟩ :: (e.take s now).moments rest

variable {s : Schedule} {m m' : Moment} {ms ns : List Moment} {steps : List (Instant × Step)}

theorem moments_append (s : Schedule) (steps rest : List (Instant × Step)) :
    s.moments (steps ++ rest) = s.moments steps ++ (s.stepped steps).moments rest := by
  induction steps generalizing s
  case nil => rfl
  case cons step steps ih => exact congrArg (_ :: ·) (ih (step.2.take s step.1))

theorem stepped_append (s : Schedule) (steps rest : List (Instant × Step)) :
    s.stepped (steps ++ rest) = (s.stepped steps).stepped rest :=
  List.foldl_append

theorem map_now_moments (s : Schedule) (steps : List (Instant × Step)) :
    (s.moments steps).map Moment.now = steps.map Prod.fst := by
  induction steps generalizing s
  case nil => rfl
  case cons step steps ih => exact congrArg (_ :: ·) (ih (step.2.take s step.1))

theorem moments_eq_cons (h : s.moments steps = m :: ms) :
    m.before = s ∧ ∃ rest, m.after.moments rest = ms ∧ m.after.stepped rest = s.stepped steps := by
  cases steps
  case nil => cases h
  case cons step rest =>
    cases h
    exact ⟨rfl, rest, rfl, rfl⟩

theorem moments_eq_append (h : s.moments steps = ms ++ ns) :
    ∃ front back, s.moments front = ms ∧ (s.stepped front).moments back = ns := by
  induction ms generalizing s steps
  case nil => exact ⟨[], steps, rfl, h⟩
  case cons m ms ih =>
    cases steps
    case nil => cases h
    case cons step rest =>
      obtain ⟨hm, h⟩ := List.cons.inj h
      obtain ⟨front, back, hf, hb⟩ := ih h
      exact ⟨step :: front, back, hm ▸ hf ▸ rfl, hb⟩

-- Between two moments of a run, there is a run from the one to the other.
theorem exists_between (h : s.moments steps = ms ++ m :: (ns ++ m' :: later)) :
    ∃ between, m.after.moments between = ns ∧ m.after.stepped between = m'.before := by
  obtain ⟨_, _, _, h⟩ := moments_eq_append h
  obtain ⟨_, _, h, _⟩ := moments_eq_cons h
  obtain ⟨between, _, hn, h⟩ := moments_eq_append h
  exact ⟨between, hn, (moments_eq_cons h).left.symm⟩

-- What a step keeps is kept by all of a run.
theorem forall_moments {P : Schedule → Prop} (hs : P s)
    (htake : ∀ s now e, P s → P (Step.take s now e)) : ∀ m ∈ s.moments steps, P m.before := by
  induction steps generalizing s
  case nil => exact List.forall_mem_nil _
  case cons step steps ih => exact List.forall_mem_cons.mpr ⟨hs, ih (htake s step.1 step.2 hs)⟩

end Atelier.Schedule
