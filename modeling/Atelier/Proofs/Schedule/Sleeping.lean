import Atelier.Proofs.Schedule.Discipline

/-!
Sleep. What a poll finds in a rest only depends on how long the rest has lasted, not on the polls before; the
phases come in their order, and the end is told once.
-/

namespace Atelier.Schedule

open List

-- The schedule after polls at some times, and what they tell.
def polled (s : Schedule) (times : List Instant) : Schedule :=
  times.foldl (fun s now => (s.poll now).1) s

def reports (s : Schedule) : List Instant → List Transition
  | []           => []
  | now :: times => (s.poll now).2.toList ++ (s.poll now).1.reports times

variable {s : Schedule} {begun now : Instant} {length : Span} {times : List Instant}

theorem polled_append (s : Schedule) (times later : List Instant) :
    s.polled (times ++ later) = (s.polled times).polled later :=
  foldl_append

theorem reports_append (s : Schedule) (times later : List Instant) :
    s.reports (times ++ later) = s.reports times ++ (s.polled times).reports later := by
  induction times generalizing s
  case nil => rfl
  case cons now times ih => rw [cons_append, reports, ih, ← append_assoc, reports, polled, polled, foldl_cons]

theorem polled_of_awaitingChoice (h : s.mode = .awaitingChoice) (times : List Instant) :
    s.polled times = s ∧ s.reports times = [] := by
  induction times
  case nil => exact ⟨rfl, rfl⟩
  case cons now times ih =>
    have hq := (isQuiet_of_awaitingChoice h : s.IsQuiet now).poll_eq
    rw [polled, foldl_cons, reports, hq]
    exact ih

/-! A rest that goes on -/

-- A rest that began at a time and is to last for a while.
structure Rests (s : Schedule) (begun : Instant) (length : Span) : Prop where
  resting : s.mode.IsResting
  modeStart : s.modeStart = begun
  restDuration : s.routine.restDuration = length

theorem rests_of_answer {text : String} (h : (s.answer text begun).2 = .accepted .dream) :
    (s.answer text begun).1.mode = .resting .light ∧
      (s.answer text begun).1.Rests begun s.routine.restDuration := by
  have ha := s.answers_answer text begun
  generalize s.answer text begun = answered at ha h ⊢
  cases ha
  case accepts =>
    cases h
    exact ⟨rfl, ⟨_, rfl⟩, rfl, rfl⟩
  all_goals cases h

-- How a poll goes that does not come after the end of the rest.
theorem Rests.poll (h : s.Rests begun length) (hn : now.since begun < length) :
    (s.poll now).1.mode = .resting (.ofElapsed (now.since begun)) ∧ (s.poll now).1.Rests begun length := by
  obtain ⟨⟨p, hm⟩, rfl, rfl⟩ := h
  have hd : ¬now.since s.modeStart ≥ s.routine.restDuration := Int.not_le.mpr hn
  have hp := s.polls_poll now
  generalize s.poll now = polled at hp
  cases hp
  case waits hq => exact ⟨hm ▸ congrArg _ (hq.resting p hm).right.symm, ⟨p, hm⟩, rfl, rfl⟩
  case checksIn hc _ => cases hm.symm.trans hc
  case endsChat hc _ => cases hm.symm.trans hc
  case endsRest he => exact absurd he hd
  case deepens q _ _ hq _ => exact ⟨hq ▸ rfl, ⟨q, rfl⟩, rfl, rfl⟩

theorem Rests.polled (h : s.Rests begun length) (ht : ∀ t ∈ times, t.since begun < length) :
    (s.polled times).Rests begun length := by
  induction times generalizing s
  case nil => exact h
  case cons now times ih =>
    obtain ⟨hn, ht⟩ := forall_mem_cons.mp ht
    exact ih (h.poll hn).right ht

theorem Rests.mode_polled (h : s.Rests begun length) (ht : ∀ t ∈ times ++ [now], t.since begun < length) :
    (s.polled (times ++ [now])).mode = .resting (.ofElapsed (now.since begun)) := by
  obtain ⟨ht, hn⟩ := forall_mem_append.mp ht
  rw [polled_append]
  exact ((h.polled ht).poll (hn now (mem_singleton_self now))).left

/-! Its end -/

theorem Rests.poll_ends (h : s.Rests begun length) (hn : now.since begun ≥ length) :
    (s.poll now).1.mode = .awaitingChoice ∧ (s.poll now).2 = some .restEnded := by
  obtain ⟨⟨p, hm⟩, rfl, rfl⟩ := h
  have hp := s.polls_poll now
  generalize s.poll now = polled at hp
  cases hp
  case waits hq => exact absurd hn (hq.resting p hm).left
  case checksIn hc _ => cases hm.symm.trans hc
  case endsChat hc _ => cases hm.symm.trans hc
  case endsRest => exact ⟨rfl, rfl⟩
  case deepens hd _ _ => exact absurd hn hd

theorem Rests.reports_ends (h : s.Rests begun length) (hn : now.since begun ≥ length) (later : List Instant) :
    (s.polled (now :: later)).mode = .awaitingChoice ∧ s.reports (now :: later) = [.restEnded] := by
  have ⟨hm, hr⟩ := h.poll_ends hn
  have ⟨hp, hl⟩ := polled_of_awaitingChoice hm later
  rw [reports, hr, hl]
  exact ⟨(congrArg mode hp).trans hm, rfl⟩

theorem Rests.restEnded_not_mem_reports (h : s.Rests begun length)
    (ht : ∀ t ∈ times, t.since begun < length) : .restEnded ∉ s.reports times := by
  induction times generalizing s
  case nil => exact not_mem_nil
  case cons now times ih =>
    obtain ⟨hn, ht⟩ := forall_mem_cons.mp ht
    have ⟨hm, hp⟩ := h.poll hn
    rw [reports, mem_append, Option.mem_toList, not_or]
    refine ⟨fun hr => ?_, ih hp ht⟩
    cases hm.symm.trans (mode_of_transition hr)

/-! Phases in their order -/

-- What is still to be told of a rest in a phase.
def ahead : SleepPhase → List Transition
  | .light  => [.phaseChanged .rem, .phaseChanged .waking, .restEnded]
  | .rem    => [.phaseChanged .waking, .restEnded]
  | .waking => [.restEnded]

theorem cons_ahead_sublist {p q : SleepPhase} (h : p.rank ≤ q.rank) (hn : q ≠ p) :
    .phaseChanged q :: ahead q <+ ahead p := by
  revert h hn
  cases p <;> cases q <;> decide

theorem restEnded_sublist_ahead (p : SleepPhase) : [.restEnded] <+ ahead p := by
  cases p <;> decide

theorem reports_sublist {p : SleepPhase} (hm : s.mode = .resting p) (hb : s.modeStart.OnClock)
    (ht : Instant.Pass times)
    (hp : ∀ t ∈ times, p.rank ≤ (SleepPhase.ofElapsed (t.since s.modeStart)).rank) :
    s.reports times <+ ahead p := by
  induction times generalizing s p
  case nil => exact nil_sublist _
  case cons now times ih =>
    obtain ⟨hc, hle, ht⟩ := Instant.pass_cons_iff.mp ht
    obtain ⟨hpn, hp⟩ := forall_mem_cons.mp hp
    have hpoll := s.polls_poll now
    rw [reports]
    generalize s.poll now = polled at hpoll
    cases hpoll
    case waits => exact ih hm hb ht hp
    case checksIn hd _ => cases hm.symm.trans hd
    case endsChat hd _ => cases hm.symm.trans hd
    case endsRest =>
      rw [(polled_of_awaitingChoice (mode_enter ..) times).right]
      exact restEnded_sublist_ahead p
    case deepens p' q hm' _ hq hn =>
      cases hm.symm.trans hm'
      have hr := ih (s := { s with mode := .resting q, phaseStart := now }) rfl hb ht fun t hin =>
        hq ▸ SleepPhase.rank_ofElapsed_mono (Instant.since_mono hb hc (ht.onClock t hin) (hle t hin))
      exact (hr.cons_cons _).trans (cons_ahead_sublist (hq ▸ hpn) hn)

-- After a poll, phase and start of a rest are those that its length gives, whatever was polled before. At
-- times that do not go back the phases come in their order; the end is told once, by the first poll that
-- finds it.
theorem rest_follows_time {text : String} (h : (s.answer text begun).2 = .accepted .dream) :
    let rest := (s.answer text begun).1
    let length := s.routine.restDuration
    (∀ times now, (∀ t ∈ times ++ [now], t.since begun < length) →
      let s' := rest.polled (times ++ [now])
      s'.mode = .resting (.ofElapsed (now.since begun)) ∧ s'.modeStart = begun) ∧
    (∀ times others now, (∀ t ∈ times ++ [now], t.since begun < length) →
      (∀ t ∈ others ++ [now], t.since begun < length) →
      let s₁ := rest.polled (times ++ [now])
      let s₂ := rest.polled (others ++ [now])
      s₁.mode = s₂.mode ∧ ∀ t, s₁.activity t = s₂.activity t) ∧
    (∀ times, begun.OnClock → Instant.Pass times →
      rest.reports times <+ [.phaseChanged .rem, .phaseChanged .waking, .restEnded]) ∧
    ∀ times now later, (∀ t ∈ times, t.since begun < length) → now.since begun ≥ length →
      .restEnded ∉ rest.reports times ∧
      rest.reports (times ++ now :: later) = rest.reports times ++ [.restEnded] ∧
      (rest.polled (times ++ now :: later)).mode = .awaitingChoice := by
  intro rest length
  have ⟨hl, hr⟩ : rest.mode = .resting .light ∧ rest.Rests begun length := rests_of_answer h
  refine ⟨fun times now ht => ?_, fun times others now ht ho => ?_, fun times hb ht => ?_,
    fun times now later ht hn => ?_⟩
  case refine_1 => exact ⟨hr.mode_polled ht, (hr.polled ht).modeStart⟩
  case refine_2 =>
    have hm := hr.mode_polled ht
    have hm' := hr.mode_polled ho
    refine ⟨hm.trans hm'.symm, fun t => ?_⟩
    rw [activity, hm, activity, hm']
  case refine_3 =>
    have hs : rest.modeStart.OnClock := (congrArg Instant.OnClock hr.modeStart).mpr hb
    exact reports_sublist hl hs ht fun _ _ => Nat.zero_le _
  case refine_4 =>
    have ⟨hm, he⟩ := (hr.polled ht).reports_ends hn later
    rw [reports_append, he, polled_append]
    exact ⟨hr.restEnded_not_mem_reports ht, rfl, hm⟩

-- A rest that is first polled late, then early again, and then after its end.
def late : List Instant := [⟨5200, 0⟩, ⟨2710, 0⟩, ⟨4000, 0⟩]

theorem rest_follows_time_of_late :
    let s := ((start .standard ⟨0, 0⟩).poll ⟨2700, 0⟩).1
    let rest := (s.answer " dream" ⟨2700, 0⟩).1
    (s.answer " dream" ⟨2700, 0⟩).2 = .accepted .dream ∧
    (rest.polled late).mode = (rest.polled [⟨4000, 0⟩]).mode ∧
    (rest.polled late).modeStart = ⟨2700, 0⟩ ∧
    rest.reports (late ++ [⟨6300, 0⟩, ⟨6400, 0⟩]) = rest.reports late ++ [.restEnded] ∧
    rest.reports [⟨2710, 0⟩, ⟨5200, 0⟩, ⟨6300, 0⟩] <+
      [.phaseChanged .rem, .phaseChanged .waking, .restEnded] := by
  intro s rest
  have h : (s.answer " dream" ⟨2700, 0⟩).2 = .accepted .dream := by decide
  have ⟨hp, ha, ho, he⟩ := rest_follows_time h
  refine ⟨h, (ha (late.take 2) [] ⟨4000, 0⟩ (by decide) (by decide)).left,
    (hp (late.take 2) ⟨4000, 0⟩ (by decide)).right, (he late ⟨6300, 0⟩ [⟨6400, 0⟩] ?_ (by decide)).right.left,
    ho _ (by decide) ⟨by decide, by decide⟩⟩
  decide

end Atelier.Schedule
