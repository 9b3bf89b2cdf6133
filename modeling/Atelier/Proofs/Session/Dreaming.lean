import Atelier.Proofs.Memory.Retaining
import Atelier.Proofs.Schedule.Polling
import Atelier.Proofs.Session.Opening
import Atelier.Proofs.Session.Run
import Atelier.Proofs.Session.Turns

/-!
The dreams of a run. Outside of a rest there are no dreams that are still to be sorted out, and when a
rest ends, what joins the long-term dreams is taken from the dreams of this rest.
-/

namespace Atelier

def Event.dream? : Event → Option Dream
  | .dreamed d => some d
  | _          => none

namespace Session

open List

variable {s t s' : Session} {now : Instant} {e : Event} {ts : List Turn}

-- A selection of the dreams of a rest, in any order.
structure Selects (policy : Retention) (kept dreams : List Dream) : Prop where
  subperm : kept <+~ dreams
  length : kept.length = min (policy.sampleSize dreams.length) dreams.length

theorem Selects.perm {kept dreams : List Dream} (h : Selects .retainAll kept dreams) : kept ~ dreams :=
  h.subperm.perm_of_length_le (h.length ▸ Nat.le_min.mpr ⟨Nat.le_refl _, Nat.le_refl _⟩)

theorem exists_retain_eq (m : Memory) (policy : Retention) (r : Random) :
    ∃ kept, Selects policy kept m.tonight ∧
      (m.retain policy r).1 = { m with dreams := m.dreams.extend kept, tonight := [] } :=
  have ⟨_, moved, _, _, hv, hr⟩ := m.exists_retain_eq policy r
  ⟨moved, ⟨hv.subperm, hv.length_eq⟩, congrArg (·.1) hr⟩

-- Dreams are only left for the end of a rest that is still going on.
def Settled (s : Session) : Prop :=
  ¬s.schedule.mode.IsResting → s.memory.tonight = []

/-! Turns -/

theorem tonight_memoryAfter (h : s.memory.tonight = []) (text : String) (now : Instant) :
    (s.memoryAfter text now).tonight = [] := by
  unfold memoryAfter
  split
  case isTrue => rfl
  case isFalse => exact h

theorem Acts.retention_eq (h : s.Acts now e s') : s'.retention = s.retention := by
  cases h
  case draws hd =>
    obtain ⟨_, _, _, _, _, rfl⟩ := draw_eq_ok hd
    rfl
  all_goals rfl

-- Long-term dreams only come from the end of a rest.
theorem Acts.dreams_eq (h : s.Acts now e s') : s'.memory.dreams = s.memory.dreams := by
  cases h
  case draws hd =>
    obtain ⟨_, _, _, _, _, rfl⟩ := draw_eq_ok hd
    exact dreams_remembered ..
  case chooses => exact dreams_memoryAfter ..
  all_goals rfl

theorem Acts.isResting_iff (h : s.Acts now e s') :
    s'.schedule.mode.IsResting ↔ s.schedule.mode.IsResting ∨ e = .choice (.accepted .dream) := by
  cases h
  case draws hd =>
    obtain ⟨_, _, _, _, _, rfl⟩ := draw_eq_ok hd
    exact (or_iff_left nofun).symm
  case chooses hm _ =>
    rw [Schedule.isResting_answer_iff hm, hm, Event.choice.injEq]
    exact (or_iff_right nofun).symm
  all_goals exact (or_iff_left nofun).symm

theorem Acts.mode_of_choice {o : ChoiceOutcome} (h : s.Acts now e s') (he : e = .choice o) :
    s.schedule.mode = .awaitingChoice := by
  cases h
  case chooses hm _ => exact hm
  all_goals cases he

theorem Acts.mode_of_dreamed {d : Dream} (h : s.Acts now e s') (he : e = .dreamed d) :
    s.schedule.mode = .resting d.phase := by
  cases h
  case dreams hm _ _ _ =>
    cases he
    exact hm
  all_goals cases he

-- At the beginning of a rest there is nothing to be forgotten.
theorem Acts.tonight_eq (h : s.Acts now e s') (hs : s.Settled) :
    s'.memory.tonight = s.memory.tonight ++ e.dream?.toList := by
  cases h
  case draws hd =>
    obtain ⟨_, _, _, _, _, rfl⟩ := draw_eq_ok hd
    exact (tonight_remembered ..).trans (append_nil _).symm
  case chooses r text hm hq =>
    have ht : s.memory.tonight = [] := hs (hm ▸ nofun)
    simp only [ht, tonight_memoryAfter ht]
    rfl
  case dreams => rfl
  all_goals exact (append_nil _).symm

theorem Acts.dream?_eq_none (h : s.Acts now e s') (hr : ¬s.schedule.mode.IsResting) :
    e.dream? = none := by
  cases e
  case dreamed d => exact absurd ⟨_, h.mode_of_dreamed rfl⟩ hr
  all_goals rfl

theorem Acts.settled (h : s.Acts now e s') (hs : s.Settled) : s'.Settled := by
  intro hr
  rw [h.isResting_iff, not_or] at hr
  rw [h.tonight_eq hs, hs hr.left, h.dream?_eq_none hr.left]
  rfl

/-! Changes of mode -/

def EndsRest (s : Session) (now : Instant) : Prop :=
  (s.schedule.poll now).2 = some .restEnded

instance : Decidable (s.EndsRest now) :=
  inferInstanceAs (Decidable (_ = _))

theorem isResting_advance_iff :
    (s.advance now).schedule.mode.IsResting ↔ s.schedule.mode.IsResting ∧ ¬s.EndsRest now := by
  rw [schedule_advance]
  exact Schedule.isResting_poll_iff

theorem memoryAt_of_not_endsRest (h : ¬s.EndsRest now) : s.memoryAt now = s.memory :=
  if_neg h

theorem exists_memoryAt_eq (h : s.EndsRest now) :
    ∃ kept, Selects s.retention kept s.memory.tonight ∧
      s.memoryAt now = { s.memory with dreams := s.memory.dreams.extend kept, tonight := [] } := by
  have ⟨kept, hk, hm⟩ := exists_retain_eq s.memory s.retention s.studio.random
  exact ⟨kept, hk, (if_pos h).trans hm⟩

theorem settled_advance (hs : s.Settled) (now : Instant) : (s.advance now).Settled := by
  intro hr
  rw [memory_advance]
  by_cases he : s.EndsRest now
  case pos =>
    have ⟨_, _, hm⟩ := exists_memoryAt_eq he
    rw [hm]
  case neg =>
    rw [memoryAt_of_not_endsRest he]
    exact hs fun h => hr (isResting_advance_iff.mpr ⟨h, he⟩)

theorem retention_advance (s : Session) (now : Instant) : (s.advance now).retention = s.retention := by
  have ⟨_, _, _, h⟩ := s.exists_advance_eq now
  rw [h]

/-! Ticks -/

theorem settled_tick (h : s.tick now = .ok (s', e)) (hs : s.Settled) : s'.Settled :=
  (acts_tick h).settled (settled_advance hs now)

theorem isResting_tick_iff (h : s.tick now = .ok (s', e)) :
    s'.schedule.mode.IsResting ↔
      s.schedule.mode.IsResting ∧ ¬s.EndsRest now ∨ e = .choice (.accepted .dream) := by
  rw [(acts_tick h).isResting_iff, isResting_advance_iff]

theorem retention_tick (h : s.tick now = .ok (s', e)) : s'.retention = s.retention :=
  (acts_tick h).retention_eq.trans (s.retention_advance now)

theorem memory_tick (h : s.tick now = .ok (s', e)) (hs : s.Settled) :
    s'.memory.dreams = (s.memoryAt now).dreams ∧
      s'.memory.tonight = (s.memoryAt now).tonight ++ e.dream?.toList := by
  have ha := acts_tick h
  rw [← memory_advance]
  exact ⟨ha.dreams_eq, ha.tonight_eq (settled_advance hs now)⟩

/-! Runs -/

-- The dreams of each rest that has ended, after some dreams of the one that is going on.
def finishedRests (dreams : List Dream) : List Turn → List (List Dream)
  | [] => []
  | t :: ts =>
    let dreamed := t.event.dream?.toList
    if t.start.EndsRest t.now then dreams :: finishedRests dreamed ts
    else finishedRests (dreams ++ dreamed) ts

theorem settled_run (h : Run s ts s') (hs : s.Settled) : s'.Settled ∧ ∀ t ∈ ts, t.start.Settled := by
  induction h
  case nil => exact ⟨hs, forall_mem_nil _⟩
  case cons ht _ hi =>
    have ⟨hr, hi⟩ := hi (settled_tick ht hs)
    exact ⟨hr, forall_mem_cons.mpr ⟨hs, hi⟩⟩

theorem dreams_run (h : Run s ts s') (hs : s.Settled) :
    ∃ kept, Forall₂ (Selects s.retention) kept (finishedRests s.memory.tonight ts) ∧
      s'.memory.dreams = s.memory.dreams.extend kept.flatten := by
  induction h
  case nil => exact ⟨[], .nil, rfl⟩
  case cons s s₁ s' now e ts ht _ hi =>
    have ⟨kept, hk, hd⟩ := hi (settled_tick ht hs)
    have ⟨hd₁, ht₁⟩ := memory_tick ht hs
    rw [retention_tick ht, ht₁] at hk
    rw [hd₁] at hd
    unfold finishedRests
    split
    case isTrue he =>
      have ⟨last, hl, hm⟩ := exists_memoryAt_eq he
      rw [hm] at hk hd
      exact ⟨last :: kept, .cons hl hk, hd.trans (History.extend_append ..).symm⟩
    case isFalse he =>
      rw [memoryAt_of_not_endsRest he] at hk hd
      exact ⟨kept, hk, hd⟩

theorem Opened.tonight_eq_nil {settings : Settings} (h : Opened settings s) : s.memory.tonight = [] := by
  obtain ⟨⟨_, _, hm⟩, _⟩ := h.memory_eq
  rw [hm, Memory.restore]

theorem Opened.isCapped_dreams {settings : Settings} (h : Opened settings s) :
    s.memory.dreams.IsCapped 100 := by
  obtain ⟨⟨_, _, hm⟩, _⟩ := h.memory_eq
  rw [hm, Memory.restore]
  exact History.isCapped_ofList ..

-- Rests are begun by answers and ended by the time. Between them there are no dreams to be forgotten; if
-- all dreams are retained, those of the rests join the long-term dreams, one rest after another.
theorem dreams_of_run {settings : Settings} (ho : Opened settings s) (h : Run s ts s') :
    (s'.Settled ∧ ∀ t ∈ ts, t.start.Settled ∧ (t.start.advance t.now).Settled) ∧
    (∀ t ∈ ts,
      (t.result.schedule.mode.IsResting ↔
        t.start.schedule.mode.IsResting ∧ ¬t.start.EndsRest t.now ∨
          t.event = .choice (.accepted .dream)) ∧
      (t.event = .choice (.accepted .dream) → (t.start.advance t.now).memory.tonight = []) ∧
      ∀ d, t.event = .dreamed d → (t.start.advance t.now).schedule.mode = .resting d.phase) ∧
    (settings.retention = .retainAll → ∃ kept,
      Forall₂ (· ~ ·) kept (finishedRests [] ts) ∧
        s'.memory.dreams.items = lastOf 100 (s.memory.dreams.items ++ kept.flatten)) := by
  have ht := ho.tonight_eq_nil
  have hs : s.Settled := fun _ => ht
  have ⟨hs', hall⟩ := settled_run h hs
  refine ⟨⟨hs', fun t hm => ⟨hall t hm, settled_advance (hall t hm) t.now⟩⟩, fun t hm => ?_, fun hr => ?_⟩
  case refine_1 =>
    have htick := h.tick_of_mem hm
    have ha := acts_tick htick
    refine ⟨isResting_tick_iff htick, fun he => ?_, fun d => ha.mode_of_dreamed⟩
    exact settled_advance (hall t hm) t.now (ha.mode_of_choice he ▸ nofun)
  case refine_2 =>
    have ⟨kept, hk, hd⟩ := dreams_run h hs
    rw [ho.memory_eq.right, hr, ht] at hk
    exact ⟨kept, hk.imp fun _ _ => Selects.perm, hd ▸ History.items_extend ho.isCapped_dreams _⟩

-- Two dreams and no answer in a rest that ends, and one dream in a rest that goes on.
def sleeper : Model :=
  .ofSource (.scripted [.ok "dream", .ok "A blue field.", .error (.stated "no answer"), .ok "A red sea.",
    .ok "DREAM", .ok "A door."])

def nights : Checked (Session × List Event) := do
  let s ← start smallScreen sleeper .empty (.ofSeed 0) (.seeded (.ofSeed 0)) ⟨0, 0⟩
  s.run [⟨2700, 0⟩, ⟨2701, 0⟩, ⟨4000, 0⟩, ⟨5200, 0⟩, ⟨6300, 0⟩, ⟨6301, 0⟩]

theorem dreams_of_two_nights :
    ∃ s ts s' kept, Opened smallScreen s ∧ smallScreen.retention = .retainAll ∧ Run s ts s' ∧
      Forall₂ (· ~ ·) kept (finishedRests [] ts) ∧
      s'.memory.dreams.items = lastOf 100 (s.memory.dreams.items ++ kept.flatten) ∧
      s'.memory.dreams.length = 2 ∧ s'.memory.tonight.length = 1 := by
  have hd : nights.toOption.any fun p => p.1.memory.dreams.length = 2 ∧ p.1.memory.tonight.length = 1 := by
    decide +kernel
  obtain ⟨⟨s', es⟩, h, hd⟩ := Checked.exists_eq_ok_of_any hd
  obtain ⟨s, hs, h⟩ := Checked.bind_eq_ok_iff.mp h
  obtain ⟨ts, hr, _, _⟩ := run_eq_ok_iff.mp h
  have ho : Opened smallScreen s := ⟨_, _, _, _, _, _, .inl hs⟩
  obtain ⟨_, _, hk⟩ := dreams_of_run ho hr
  have ⟨kept, hk, hi⟩ := hk rfl
  exact ⟨s, ts, s', kept, ho, rfl, hr, hk, hi, of_decide_eq_true hd⟩

end Session

end Atelier
