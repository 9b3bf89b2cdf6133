import Mathlib.Algebra.Ring.Nat
import Atelier.Proofs.Session.Modes

/-!
Ticks without an answer. When the model gives none, a tick leaves the session as the change of mode has left
it. A check-in sums up the pixels of the latest codes before it asks, and comes to nothing if they are too
many for a word.
-/

namespace Atelier

-- There is no answer for a purpose at the moment.
def Model.Refuses (m : Model) (p : Purpose) : Prop :=
  ∃ e, (m.source.generate p).1 = .error e

def Memory.pixels (m : Memory) (n : Nat) : Nat :=
  ((m.codes.recent n).map (·.context.pixelsDrawn)).sum

-- The sum can be put off to the end: once it is too large for a word, it stays so.
theorem Memory.foldlM_pixels (cs : List CodeMemory) {k : Nat} (hk : k < 18446744073709551616) :
    cs.foldlM (fun sum c => Checked.nat64 (sum + c.context.pixelsDrawn)) k =
      Checked.nat64 (k + (cs.map (·.context.pixelsDrawn)).sum) := by
  induction cs generalizing k
  case nil => exact (if_pos hk).symm
  case cons c cs ih =>
    rw [List.foldlM_cons, List.map_cons, List.sum_cons, ← Nat.add_assoc]
    by_cases hc : k + c.context.pixelsDrawn < 18446744073709551616
    case pos =>
      rw [Checked.nat64, if_pos hc, Checked.ok_bind]
      exact ih hc
    case neg =>
      rw [Checked.nat64, if_neg hc, Checked.nat64, if_neg (by omega)]
      rfl

theorem Memory.recentPixels_eq (m : Memory) (n : Nat) : m.recentPixels n = Checked.nat64 (m.pixels n) := by
  have h := foldlM_pixels (m.codes.recent n) (by decide : 0 < 18446744073709551616)
  rwa [Nat.zero_add] at h

namespace Session

variable {s : Session} {now : Instant} {r : Request} {p : SleepPhase}

/-! Turns -/

theorem ask_of_refuses (h : s.model.Refuses r.purpose) : s.ask r = (none, s.asked r) := by
  obtain ⟨e, h⟩ := h
  have ha : (s.model.ask r).1 = .error e := h
  show ((s.model.ask r).1.toOption, s.asked r) = _
  rw [ha]
  rfl

theorem drawingTurn_of_refuses (h : s.model.Refuses .drawing) :
    s.drawingTurn now = .ok (s.asked (.drawing s.scene), .generationFailed) := by
  rw [drawingTurn, ask_of_refuses (r := .drawing s.scene) h]
  rfl

theorem chatTurn_of_refuses (h : s.model.Refuses r.purpose) :
    s.chatTurn r = (s.asked r, .generationFailed) := by
  rw [chatTurn, ask_of_refuses h]

theorem dreamTurn_of_refuses (h : s.model.Refuses .dream) :
    s.dreamTurn p now = (s.asked (.dream p s.dreamMatter), .generationFailed) := by
  rw [dreamTurn, ask_of_refuses (r := .dream p s.dreamMatter) h]

theorem dreamTurn_of_blank {text : String} (h : (s.model.source.generate .dream).1 = .ok text)
    (hb : (Text.trim text).isEmpty) :
    s.dreamTurn p now = (s.asked (.dream p s.dreamMatter), .idle) := by
  have ha : s.ask (.dream p s.dreamMatter) = (some text, s.asked (.dream p s.dreamMatter)) := by
    have ha : (s.model.ask (.dream p s.dreamMatter)).1 = .ok text := h
    show ((s.model.ask (.dream p s.dreamMatter)).1.toOption, s.asked (.dream p s.dreamMatter)) = _
    rw [ha]
    rfl
  rw [dreamTurn, ha]
  exact if_pos hb

theorem choiceTurn_of_refuses (h : s.model.Refuses .modeChoice)
    (hp : s.memory.pixels pixelWindow < 18446744073709551616) :
    ∃ r, r.purpose = .modeChoice ∧ s.choiceTurn now = .ok (s.asked r, .generationFailed) := by
  refine ⟨.checkIn s.mood.word s.mood.energy (s.memory.pixels pixelWindow) s.overview.text s.recentColors,
    rfl, ?_⟩
  rw [choiceTurn, Memory.recentPixels_eq, Checked.nat64, if_pos hp, Checked.ok_bind,
    ask_of_refuses h]
  rfl

theorem choiceTurn_of_too_many (hp : 18446744073709551616 ≤ s.memory.pixels pixelWindow) :
    s.choiceTurn now = .error .overflow := by
  rw [choiceTurn, Memory.recentPixels_eq, Checked.nat64, if_neg (by omega)]
  rfl

/-! Ticks -/

-- What a tick without an answer comes to, after the change of mode: a failure, and the session as it was but
-- for the model. In a chat break that waits, nothing is asked.
def FailsSafely (s : Session) (now : Instant) (result : Checked (Session × Event)) : Prop :=
  if s.schedule.activity now = .chatIdle then result = .ok (s, .idle)
  else ∃ r, r.purpose = s.schedule.mode.purpose ∧ result = .ok (s.asked r, .generationFailed)

theorem tick_of_refuses (h : (s.advance now).model.Refuses (s.advance now).schedule.mode.purpose)
    (hp : (s.advance now).schedule.mode = .awaitingChoice →
      (s.advance now).memory.pixels pixelWindow < 18446744073709551616) :
    (s.advance now).FailsSafely now (s.tick now) := by
  unfold tick FailsSafely
  simp only
  generalize s.advance now = t at h hp ⊢
  have hm := t.schedule.mode_activity now
  rw [← hm] at h hp ⊢
  generalize t.schedule.activity now = a at h hp ⊢
  cases a
  case draw => exact ⟨_, rfl, drawingTurn_of_refuses h⟩
  case askChoice => exact choiceTurn_of_refuses h (hp rfl)
  case chatOpening => exact ⟨_, rfl, congrArg Except.ok (chatTurn_of_refuses h)⟩
  case chatFollowUp => exact ⟨_, rfl, congrArg Except.ok (chatTurn_of_refuses h)⟩
  case chatIdle => rfl
  case dream => exact ⟨_, rfl, congrArg Except.ok (dreamTurn_of_refuses h)⟩

theorem activity_of_awaitingChoice (h : s.schedule.mode = .awaitingChoice) :
    s.schedule.activity now = .askChoice := by
  rw [Schedule.activity, h]

theorem tick_of_too_many (hm : (s.advance now).schedule.mode = .awaitingChoice)
    (hp : 18446744073709551616 ≤ (s.advance now).memory.pixels pixelWindow) :
    s.tick now = .error .overflow := by
  unfold tick
  simp only [activity_of_awaitingChoice hm, choiceTurn_of_too_many hp]

theorem tick_of_blank {text : String} (hm : (s.advance now).schedule.mode = .resting p)
    (h : ((s.advance now).model.source.generate .dream).1 = .ok text) (hb : (Text.trim text).isEmpty) :
    s.tick now = .ok ((s.advance now).asked (.dream p (s.advance now).dreamMatter), .idle) := by
  have ha : (s.advance now).schedule.activity now = .dream p := by rw [Schedule.activity, hm]
  unfold tick
  simp only [ha, dreamTurn_of_blank h hb]
  rfl

-- Without an answer, or with a blank one for a dream, a tick is the change of mode alone. It is not so for a
-- check-in with more pixels to sum up than a word can count, which stops before the model is asked.
theorem unanswered_tick_iff (s : Session) (now : Instant) :
    ((s.advance now).model.Refuses (s.advance now).schedule.mode.purpose →
      ((s.advance now).FailsSafely now (s.tick now) ↔
        ¬((s.advance now).schedule.mode = .awaitingChoice ∧
          18446744073709551616 ≤ (s.advance now).memory.pixels pixelWindow))) ∧
    ∀ p text, (s.advance now).schedule.mode = .resting p →
      ((s.advance now).model.source.generate .dream).1 = .ok text → (Text.trim text).isEmpty →
      ∃ r, s.tick now = .ok ((s.advance now).asked r, .idle) := by
  refine ⟨fun h => ⟨?stops, ?fails⟩, fun p text hm ht hb => ⟨_, tick_of_blank hm ht hb⟩⟩
  case stops =>
    intro hf ⟨hm, hp⟩
    rw [tick_of_too_many hm hp, FailsSafely, if_neg (by rw [activity_of_awaitingChoice hm]; nofun)] at hf
    obtain ⟨_, _, hf⟩ := hf
    contradiction
  case fails =>
    intro hn
    exact tick_of_refuses h fun hm => Nat.lt_of_not_le fun hp => hn ⟨hm, hp⟩

def mute : Session :=
  { clearing with model := .ofSource (.scripted [.error (.stated "no answer")]) }

def dozing : Session :=
  { clearing with
    schedule := { clearing.schedule with mode := .resting .light }
    model := .ofSource (.scripted [.ok " \n"]) }

theorem unanswered_tick_of_check_in_and_doze :
    ((mute.advance ⟨2700, 0⟩).schedule.mode = .awaitingChoice ∧
      (mute.advance ⟨2700, 0⟩).model.Refuses .modeChoice ∧
      (mute.advance ⟨2700, 0⟩).FailsSafely ⟨2700, 0⟩ (mute.tick ⟨2700, 0⟩)) ∧
    (dozing.advance ⟨60, 0⟩).schedule.mode = .resting .light ∧ (Text.trim " \n").isEmpty ∧
      ∃ r, dozing.tick ⟨60, 0⟩ = .ok ((dozing.advance ⟨60, 0⟩).asked r, .idle) := by
  have hr : (mute.advance ⟨2700, 0⟩).model.Refuses .modeChoice := ⟨_, rfl⟩
  have hb : (Text.trim " \n").isEmpty := by decide +kernel
  have hf := ((unanswered_tick_iff mute ⟨2700, 0⟩).left hr).mpr (by decide)
  exact ⟨⟨rfl, hr, hf⟩, rfl, hb, (unanswered_tick_iff dozing ⟨60, 0⟩).right .light " \n" rfl rfl hb⟩

-- A memory that tells of more pixels than a word can count.
def crowded : Session :=
  let context : CodeContext := ⟨"curious", 0, 0, .white, true, 18446744073709551615, .brush⟩
  { mute with
    memory := .restore [⟨"5", context, ⟨0, 0⟩⟩, ⟨"5", { context with pixelsDrawn := 1 }, ⟨0, 0⟩⟩] [] }

theorem check_in_of_crowded :
    (crowded.advance ⟨2700, 0⟩).model.Refuses .modeChoice ∧
    crowded.tick ⟨2700, 0⟩ = .error .overflow ∧
    ¬(crowded.advance ⟨2700, 0⟩).FailsSafely ⟨2700, 0⟩ (crowded.tick ⟨2700, 0⟩) := by
  have ht : crowded.tick ⟨2700, 0⟩ = .error .overflow := tick_of_too_many rfl (by decide)
  refine ⟨⟨_, rfl⟩, ht, ?_⟩
  rw [ht]
  rintro ⟨_, _, h⟩
  contradiction

end Session

end Atelier
