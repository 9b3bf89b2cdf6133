import Atelier.Proofs.Schedule.Moments

/-!
Check-ins of a run. The time to the next one is counted from the latest entry into drawing, so there is a
full interval between any two of them.
-/

namespace Atelier.Schedule

variable {s s' : Schedule} {now : Instant} {r : Routine} {begun : Instant} {steps : List (Instant × Step)}

/-! Polls -/

theorem poll_eq_checkIn_iff :
    (s.poll now).2 = some .checkIn ↔
      s.mode = .drawing ∧ now.since s.lastCheckIn ≥ s.routine.checkInInterval := by
  have hp := s.polls_poll now
  generalize s.poll now = polled at hp
  cases hp
  case waits hq => exact ⟨nofun, fun ⟨hm, hd⟩ => absurd hd (hq.drawing hm)⟩
  case checksIn hm hd => exact ⟨fun _ => ⟨hm, hd⟩, fun _ => rfl⟩
  case endsChat hm _ => exact ⟨nofun, fun h => nomatch hm.symm.trans h.left⟩
  case endsRest hm _ => exact ⟨nofun, fun h => nomatch hm.symm.trans h.left⟩
  case deepens hm _ _ _ => exact ⟨nofun, fun h => nomatch hm.symm.trans h.left⟩

/-! Drawing -/

-- What a step can do to drawing and its timer.
inductive Draws (s : Schedule) (now : Instant) (s' : Schedule) : Prop
  | not : s'.mode ≠ .drawing → Draws s now s'
  | on : s.mode = .drawing → s'.mode = .drawing → s'.lastCheckIn = s.lastCheckIn → Draws s now s'
  | anew : s.mode ≠ .drawing → s'.mode = .drawing → s'.lastCheckIn = now → Draws s now s'

theorem Draws.same (hm : s'.mode = s.mode) (hl : s'.lastCheckIn = s.lastCheckIn) : Draws s now s' :=
  if h : s.mode = .drawing then .on h (hm.trans h) hl else .not (hm ▸ h)

theorem draws_choose (h : s.mode = .awaitingChoice) (c : Choice) (now : Instant) :
    Draws s now (s.choose c now) := by
  cases c
  case draw => exact .anew (h ▸ nofun) rfl rfl
  all_goals exact .not nofun

theorem draws_poll (s : Schedule) (now : Instant) : Draws s now (s.poll now).1 := by
  have hp := s.polls_poll now
  generalize s.poll now = polled at hp
  cases hp
  case waits => exact .same rfl rfl
  case endsChat hm _ => exact .anew (hm ▸ nofun) rfl rfl
  all_goals exact .not nofun

theorem draws_answer (s : Schedule) (text : String) (now : Instant) : Draws s now (s.answer text now).1 := by
  have ha := s.answers_answer text now
  generalize s.answer text now = answered at ha
  cases ha
  case ignores => exact .same rfl rfl
  case accepts c hm _ => exact draws_choose hm c now
  case defaults hm _ _ => exact draws_choose hm .draw now
  case counts => exact .same rfl rfl

theorem draws_take (s : Schedule) (now : Instant) (e : Step) : Draws s now (e.take s now) := by
  cases e
  case poll => exact s.draws_poll now
  case answer text => exact s.draws_answer text now
  case messageSent => exact .same rfl rfl
  case restart r => exact .same (mode_restore_snapshot r s) rfl

def Moment.EntersDrawing (m : Moment) : Prop :=
  m.before.mode ≠ .drawing ∧ m.after.mode = .drawing

instance (m : Moment) : Decidable m.EntersDrawing :=
  inferInstanceAs (Decidable (_ ∧ _))

-- The times at which drawing began.
def entries (ms : List Moment) : List Instant :=
  (ms.filter fun m => m.EntersDrawing).map Moment.now

-- The latest entry into drawing; without one, drawing has gone on from the beginning.
def drawingSince (begun : Instant) (ms : List Moment) : Instant :=
  (entries ms).getLastD begun

theorem entries_append (ms ns : List Moment) : entries (ms ++ ns) = entries ms ++ entries ns := by
  rw [entries, List.filter_append, List.map_append, entries, entries]

theorem entries_of_enters {m : Moment} (h : m.EntersDrawing) : entries [m] = [m.now] := by
  rw [entries, List.filter_singleton, decide_eq_true h]
  rfl

theorem entries_of_not_enters {m : Moment} (h : ¬m.EntersDrawing) : entries [m] = [] := by
  rw [entries, List.filter_singleton, decide_eq_false h]
  rfl

theorem drawing_stepped (h : (s.stepped steps).mode = .drawing) :
    (entries (s.moments steps)).getLast? = some (s.stepped steps).lastCheckIn ∨
    entries (s.moments steps) = [] ∧ s.mode = .drawing ∧
      (s.stepped steps).lastCheckIn = s.lastCheckIn := by
  induction steps using List.reverseRecOn
  case nil => exact .inr ⟨rfl, h, rfl⟩
  case append_singleton steps step ih =>
    have ⟨now, e⟩ := step
    rw [stepped_append] at h ⊢
    rw [moments_append, entries_append]
    generalize s.stepped steps = t at h ih ⊢
    change (e.take t now).mode = .drawing at h
    cases t.draws_take now e
    case not hn => exact absurd h hn
    case on ht _ hl =>
      have hn : ¬Moment.EntersDrawing ⟨t, now, e⟩ := fun he => he.left ht
      rw [moments, moments, entries_of_not_enters hn, List.append_nil]
      change _ = some (e.take t now).lastCheckIn ∨ _ ∧ _ ∧ (e.take t now).lastCheckIn = _
      rw [hl]
      exact ih ht
    case anew ht _ hl =>
      have he : Moment.EntersDrawing ⟨t, now, e⟩ := ⟨ht, h⟩
      rw [moments, moments, entries_of_enters he, List.getLast?_concat]
      exact .inl (congrArg some hl.symm)

/-! Runs -/

theorem lastCheckIn_of_run (h : ((start r begun).stepped steps).mode = .drawing) :
    ((start r begun).stepped steps).lastCheckIn = drawingSince begun ((start r begun).moments steps) := by
  unfold drawingSince
  rw [List.getLastD_eq_getLast?]
  obtain hl | ⟨he, _, hl⟩ := drawing_stepped h
  case inl => rw [hl, Option.getD_some]
  case inr =>
    rw [he, hl]
    rfl

theorem exists_entry (hs : s.mode ≠ .drawing) (h : (s.stepped steps).mode = .drawing) :
    ∃ m ∈ s.moments steps, m.EntersDrawing ∧ m.now = (s.stepped steps).lastCheckIn := by
  obtain hl | ⟨_, hd, _⟩ := drawing_stepped h
  case inl =>
    obtain ⟨m, hm, hn⟩ := List.mem_map.mp (List.mem_of_getLast? hl)
    obtain ⟨hm, he⟩ := List.mem_filter.mp hm
    exact ⟨m, hm, of_decide_eq_true he, hn⟩
  case inr => exact absurd hd hs

def Moment.ChecksIn (m : Moment) : Prop :=
  m.transition? = some .checkIn

instance (m : Moment) : Decidable m.ChecksIn :=
  inferInstanceAs (Decidable (_ = _))

theorem Moment.ChecksIn.poll_eq {m : Moment} (h : m.ChecksIn) :
    m.after = (m.before.poll m.now).1 ∧ (m.before.poll m.now).2 = some .checkIn := by
  obtain ⟨before, now, step⟩ := m
  cases step
  case poll => exact ⟨rfl, h⟩
  all_goals cases h

theorem interval_between {front middle back : List Moment} {a b : Moment}
    (h : s.moments steps = front ++ a :: (middle ++ b :: back)) (ha : a.ChecksIn) (hb : b.ChecksIn) :
    ∃ m ∈ middle, m.EntersDrawing ∧ b.now.since m.now ≥ b.before.routine.checkInInterval := by
  obtain ⟨between, rfl, hs⟩ := exists_between h
  have ⟨hm, hd⟩ := poll_eq_checkIn_iff.mp hb.poll_eq.right
  have hn : a.after.mode ≠ .drawing := by
    rw [ha.poll_eq.left, mode_of_transition ha.poll_eq.right]
    nofun
  obtain ⟨m, hin, he, ht⟩ := exists_entry hn (hs ▸ hm)
  exact ⟨m, hin, he, by rwa [ht, hs]⟩

-- Check-ins are timed from the latest entry into drawing, so any two of them have such an entry between
-- them, and a full interval; after a poll nothing is left to be done at the same time.
theorem check_ins_of_run (r : Routine) (begun : Instant) (steps : List (Instant × Step)) :
    let ms := (start r begun).moments steps
    let s := (start r begun).stepped steps
    (s.mode = .drawing → s.lastCheckIn = drawingSince begun ms) ∧
    (∀ now, (s.poll now).2 = some .checkIn ↔
      s.mode = .drawing ∧ now.since (drawingSince begun ms) ≥ s.routine.checkInInterval) ∧
    (∀ front a middle b back, ms = front ++ a :: (middle ++ b :: back) → a.ChecksIn → b.ChecksIn →
      (∃ m ∈ middle, m.EntersDrawing) ∧
      (Instant.Pass (ms.map Moment.now) → b.now.since a.now ≥ b.before.routine.checkInInterval)) ∧
    ∀ now, 0 < s.routine.checkInInterval → (s.poll now).1.poll now = ((s.poll now).1, none) := by
  intro ms s
  have hl : s.mode = .drawing → s.lastCheckIn = drawingSince begun ms := lastCheckIn_of_run
  refine ⟨hl, fun now => ?_, fun front a middle b back h ha hb => ?_, fun now hi => ?_⟩
  case refine_1 => exact poll_eq_checkIn_iff.trans (and_congr_right fun hm => hl hm ▸ .rfl)
  case refine_2 =>
    obtain ⟨m, hm, he, hd⟩ := interval_between h ha hb
    refine ⟨⟨m, hm, he⟩, fun hp => Int.le_trans hd ?_⟩
    have ho : ms.Pairwise fun m n => m.now ≤ n.now := List.pairwise_map.mp hp.ordered
    have hc : ∀ m ∈ ms, m.now.OnClock := List.forall_mem_map.mp hp.onClock
    rw [h] at ho hc
    obtain ⟨hca, hcm, hcb⟩ : a.now.OnClock ∧ m.now.OnClock ∧ b.now.OnClock :=
      ⟨hc a (by simp), hc m (by simp [hm]), hc b (by simp)⟩
    have hle := (List.pairwise_cons.mp (List.pairwise_append.mp ho).right.left).left
    exact Instant.since_anti hca hcm hcb (hle m (List.mem_append_left _ hm))
  case refine_3 => exact (isQuiet_poll hi).poll_eq

-- Two check-ins, with an answer, a restart and a poll in vain between them.
def twoCheckIns : List (Instant × Step) :=
  [(⟨2700, 0⟩, .poll), (⟨2701, 0⟩, .answer "draw"), (⟨3000, 0⟩, .restart .standard), (⟨5400, 0⟩, .poll),
    (⟨5401, 0⟩, .poll)]

theorem check_ins_of_two_intervals :
    let ms := (start .standard ⟨0, 0⟩).moments twoCheckIns
    ∃ a middle b, ms = [] ++ a :: (middle ++ b :: []) ∧ a.ChecksIn ∧ b.ChecksIn ∧
      Instant.Pass (ms.map Moment.now) ∧ (∃ m ∈ middle, m.EntersDrawing) ∧
      b.now.since a.now ≥ b.before.routine.checkInInterval ∧
      b.after.poll b.now = (b.after, none) := by
  intro ms
  have hp : Instant.Pass (ms.map Moment.now) := by
    rw [map_now_moments]
    exact ⟨by decide, by decide⟩
  have ⟨ha, hb⟩ : ms[0].ChecksIn ∧ ms[4].ChecksIn := by decide
  have ⟨_, _, hs, _⟩ := check_ins_of_run .standard ⟨0, 0⟩ twoCheckIns
  have ⟨he, hd⟩ := hs [] ms[0] ((ms.drop 1).take 3) ms[4] [] rfl ha hb
  have ⟨_, _, _, hq⟩ := check_ins_of_run .standard ⟨0, 0⟩ (twoCheckIns.take 4)
  exact ⟨_, _, _, rfl, ha, hb, hp, he, hd hp, hq ⟨5401, 0⟩ (by decide)⟩

end Atelier.Schedule
