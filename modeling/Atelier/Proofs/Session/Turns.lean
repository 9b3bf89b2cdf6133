import Atelier.Proofs.Checked
import Atelier.Session.Tick

/-!
What a tick can do. First the change of mode that is due, then one turn: there is one way to act for each
thing that a mode can ask for, and for each of them the session that it leaves is given as a whole.
-/

namespace Atelier

-- What the requests of a mode are for.
def Mode.purpose : Mode → Purpose
  | drawing        => .drawing
  | awaitingChoice => .modeChoice
  | chatting       => .chat
  | resting _      => .dream

namespace Session

variable {s s' : Session} {now : Instant} {c : Cycle}

/-! Parts of a cycle -/

theorem perform_eq_folder (s : Session) (work : Saving α) :
    (s.perform work).2 = { s with folder := (s.perform work).2.folder } := by
  unfold perform
  split <;> rfl

theorem archive_eq_folder (s : Session) (c : Cycle) (now : Instant) :
    s.archive c now = { s with folder := (s.archive c now).folder } := by
  unfold archive
  split
  case h_1 => rw [perform_eq_folder]
  case h_2 => rfl

theorem countSkip_eq_ok (h : s.countSkip c = .ok s') :
    s' = { s with skips := s.skips + c.isSkip.toNat } := by
  unfold countSkip at h
  split at h
  case isTrue hs =>
    simp only [Checked.bind_eq_ok_iff, Checked.nat64_eq_ok_iff, Checked.pure_eq_ok_iff] at h
    obtain ⟨_, ⟨_, rfl⟩, rfl⟩ := h
    rw [hs, Bool.toNat_true]
  case isFalse hs =>
    cases h
    rw [Bool.eq_false_iff.mpr hs, Bool.toNat_false, Nat.add_zero]

theorem exists_regard_eq (s : Session) (c : Cycle) :
    ∃ mood, s.regard c = { s with mood := mood } := by
  unfold regard
  split
  all_goals exact ⟨_, rfl⟩

theorem regard_of_isCompleted (h : c.isCompleted) : s.regard c = s := by
  have ho : c.outcome = .completed := of_decide_eq_true h
  simp only [regard, ho]

theorem exists_foldl_influence_eq (s : Session) (ts : List α) (i : Influence) (amount : α → Float) :
    ∃ mood, ts.foldl (fun s t => s.influence i (amount t)) s = { s with mood := mood } := by
  induction ts generalizing s
  case nil => exact ⟨s.mood, rfl⟩
  case cons t ts ih => exact ih (s.influence i (amount t))

def remembered (s : Session) (c : Cycle) (now : Instant) : Memory :=
  if c.isCompleted then s.memory.rememberCode (s.codeMemory c now) else s.memory

@[simp]
theorem tonight_remembered (s : Session) (c : Cycle) (now : Instant) :
    (s.remembered c now).tonight = s.memory.tonight := by
  unfold remembered
  split <;> rfl

@[simp]
theorem dreams_remembered (s : Session) (c : Cycle) (now : Instant) :
    (s.remembered c now).dreams = s.memory.dreams := by
  unfold remembered
  split <;> rfl

theorem exists_remember_eq (s : Session) (c : Cycle) (now : Instant) :
    ∃ mood, s.remember c now = { s with mood := mood, memory := s.remembered c now } := by
  unfold remember remembered
  split
  case isTrue =>
    exact exists_foldl_influence_eq _ c.marks.tones .music fun t => Impression.ofTone t.pitch
  case isFalse => exact ⟨s.mood, rfl⟩

theorem endTurn_eq_ok {before : Cursor} (h : s.endTurn before = .ok s') :
    ∃ draws, s' = { s with
      continuousDraws := draws
      lastTurnColor := some s.canvas.cursor.color
      steps := s.steps + 1 } := by
  simp only [endTurn, Checked.bind_eq_ok_iff, Checked.nat64_eq_ok_iff, Checked.pure_eq_ok_iff] at h
  obtain ⟨_, _, _, ⟨_, rfl⟩, rfl⟩ := h
  exact ⟨_, rfl⟩

theorem exists_reconsider_eq (s : Session) : ∃ mood, s.reconsider = { s with mood := mood } := by
  unfold reconsider
  split
  all_goals exact ⟨_, rfl⟩

theorem exists_saveIfDue_eq (s : Session) (now : Instant) :
    ∃ folder, s.saveIfDue now = { s with folder := folder } := by
  unfold saveIfDue
  split
  case isTrue => exact ⟨_, perform_eq_folder ..⟩
  case isFalse => exact ⟨s.folder, rfl⟩

-- A code is remembered in the mood that it was drawn in: only an observation changes the mood before.
theorem remembered_regard (s : Session) (c : Cycle) (now : Instant) :
    (s.regard c).remembered c now = s.remembered c now := by
  by_cases hc : c.isCompleted
  case pos => rw [regard_of_isCompleted hc]
  case neg =>
    have ⟨_, hr⟩ := s.exists_regard_eq c
    simp only [remembered, hc, hr, Bool.false_eq_true, if_false]

-- What a drawing leaves, but for the saving that may be due.
theorem draw_eq_saveIfDue {raw : String} (h : s.draw raw now = .ok (s', c)) :
    ∃ studio mood draws t, s.studio.run (Token.scan raw) = .ok (studio, c) ∧
      t = { s with
        studio := studio
        memory := { s with studio := studio }.remembered c now
        mood := mood
        steps := s.steps + 1
        skips := s.skips + c.isSkip.toNat
        continuousDraws := draws
        lastTurnColor := some studio.canvas.cursor.color
        folder := ({ s with studio := studio }.archive c now).folder } ∧
      s' = t.saveIfDue now := by
  simp only [draw, Checked.bind_eq_ok_iff, Checked.pure_eq_ok_iff, Prod.mk.injEq] at h
  obtain ⟨⟨studio, c⟩, hr, s₂, hs, s₃, he, rfl, rfl⟩ := h
  refine ⟨studio, ?_⟩
  rw [archive_eq_folder] at hs
  have hs := countSkip_eq_ok hs
  obtain ⟨_, hg⟩ := s₂.exists_regard_eq c
  obtain ⟨_, hm⟩ := (s₂.regard c).exists_remember_eq c now
  obtain ⟨draws, he⟩ := endTurn_eq_ok he
  rw [hm, remembered_regard, hg, hs] at he
  obtain ⟨mood, hc⟩ := s₃.exists_reconsider_eq
  rw [hc, he]
  exact ⟨mood, draws, _, hr, rfl, rfl⟩

theorem draw_eq_ok {raw : String} (h : s.draw raw now = .ok (s', c)) :
    ∃ studio folder mood draws, s.studio.run (Token.scan raw) = .ok (studio, c) ∧
      s' = { s with
        studio := studio
        memory := { s with studio := studio }.remembered c now
        mood := mood
        steps := s.steps + 1
        skips := s.skips + c.isSkip.toNat
        continuousDraws := draws
        lastTurnColor := some studio.canvas.cursor.color
        folder := folder } := by
  obtain ⟨studio, mood, draws, t, hr, rfl, rfl⟩ := draw_eq_saveIfDue h
  obtain ⟨folder, hf⟩ := exists_saveIfDue_eq _ now
  exact ⟨studio, folder, mood, draws, hr, hf⟩

/-! Requests -/

def asked (s : Session) (r : Request) : Session :=
  { s with model := (s.model.ask r).2 }

-- A request that the mode makes, and what is answered.
structure Asks (s : Session) (r : Request) (answer : Option String) : Prop where
  purpose : r.purpose = s.schedule.mode.purpose
  answer : (s.model.ask r).1.toOption = answer

theorem exists_ask {r : Request} (hp : r.purpose = s.schedule.mode.purpose) :
    ∃ answer, s.ask r = (answer, s.asked r) ∧ s.Asks r answer :=
  ⟨_, rfl, hp, rfl⟩

/-! Turns -/

-- The memory after an answer to a check-in. A rest begins without dreams.
def memoryAfter (s : Session) (text : String) (now : Instant) : Memory :=
  if (s.schedule.answer text now).2 = .accepted .dream then s.memory.forgetTonight else s.memory

@[simp]
theorem codes_memoryAfter (s : Session) (text : String) (now : Instant) :
    (s.memoryAfter text now).codes = s.memory.codes := by
  unfold memoryAfter
  split <;> rfl

@[simp]
theorem dreams_memoryAfter (s : Session) (text : String) (now : Instant) :
    (s.memoryAfter text now).dreams = s.memory.dreams := by
  unfold memoryAfter
  split <;> rfl

inductive Acts (s : Session) (now : Instant) : Event → Session → Prop
  | waits : s.schedule.mode = .chatting → Acts s now .idle s
  | fails (r : Request) : s.Asks r none → Acts s now .generationFailed (s.asked r)
  | draws (r : Request) (raw : String) {c : Cycle} {s' : Session} : s.schedule.mode = .drawing →
      s.Asks r (some raw) → (s.asked r).draw raw now = .ok (s', c) → Acts s now (.drew c) s'
  | chooses (r : Request) (text : String) : s.schedule.mode = .awaitingChoice → s.Asks r (some text) →
      Acts s now (.choice (s.schedule.answer text now).2) { s.asked r with
        schedule := (s.schedule.answer text now).1
        memory := s.memoryAfter text now }
  | chats (r : Request) (text : String) : s.schedule.mode = .chatting → s.Asks r (some text) →
      Acts s now (.chat (Text.trim text)) { s.asked r with
        schedule := s.schedule.messageSent
        mood := s.mood.influence .chat (Impression.ofMessage (Text.trim text))
        lastMessage := some (Text.trim text) }
  | dozes (r : Request) (text : String) {p : SleepPhase} : s.schedule.mode = .resting p →
      s.Asks r (some text) → (Text.trim text).isEmpty → Acts s now .idle (s.asked r)
  | dreams (r : Request) (text : String) {d : Dream} : s.schedule.mode = .resting d.phase →
      s.Asks r (some text) → ¬(Text.trim text).isEmpty → d.content = Text.trim text →
      Acts s now (.dreamed d) { s.asked r with
        memory := s.memory.recordDream d
        mood := if d.phase = .rem then s.mood.influence .dreams Impression.ofDream else s.mood
        lastMessage := some d.content }

variable {e : Event}

-- What a turn makes of the schedule.
theorem Acts.schedule_eq (h : s.Acts now e s') :
    s'.schedule = s.schedule ∨ (∃ text, s'.schedule = (s.schedule.answer text now).1) ∨
    (∃ m, e = .chat m) ∧ s.schedule.mode = .chatting ∧ s'.schedule = s.schedule.messageSent := by
  cases h
  case draws hd =>
    obtain ⟨_, _, _, _, _, rfl⟩ := draw_eq_ok hd
    exact .inl rfl
  case chooses text _ _ => exact .inr (.inl ⟨text, rfl⟩)
  case chats hm _ => exact .inr (.inr ⟨⟨_, rfl⟩, hm, rfl⟩)
  all_goals exact .inl rfl

theorem acts_drawingTurn (hm : s.schedule.mode = .drawing) (h : s.drawingTurn now = .ok (s', e)) :
    s.Acts now e s' := by
  obtain ⟨answer, ha, hq⟩ := exists_ask (s := s) (r := .drawing s.scene) (hm ▸ rfl)
  rw [drawingTurn, ha] at h
  cases answer
  case none =>
    cases h
    exact .fails _ hq
  case some raw =>
    simp only [Checked.bind_eq_ok_iff, Checked.pure_eq_ok_iff, Prod.mk.injEq] at h
    obtain ⟨⟨s₁, c⟩, hd, rfl, rfl⟩ := h
    exact .draws _ raw hm hq hd

theorem acts_choiceTurn (hm : s.schedule.mode = .awaitingChoice)
    (h : s.choiceTurn now = .ok (s', e)) : s.Acts now e s' := by
  obtain ⟨pixels, _, h⟩ := Checked.bind_eq_ok_iff.mp h
  obtain ⟨answer, ha, hq⟩ := exists_ask (s := s)
    (r := .checkIn s.mood.word s.mood.energy pixels s.overview.text s.recentColors) (hm ▸ rfl)
  rw [ha] at h
  cases answer
  case none =>
    cases h
    exact .fails _ hq
  case some text =>
    have hc : s.Acts now _ _ := .chooses _ text hm hq
    simp only at h
    split at h
    case isTrue ho =>
      cases h
      have hf : s.memoryAfter text now = s.memory.forgetTonight := if_pos ho
      rwa [hf] at hc
    case isFalse ho =>
      cases h
      have hf : s.memoryAfter text now = s.memory := if_neg ho
      rwa [hf] at hc

theorem acts_chatTurn {r : Request} (hm : s.schedule.mode = .chatting) (hp : r.purpose = .chat)
    (h : s.chatTurn r = (s', e)) : s.Acts now e s' := by
  obtain ⟨answer, ha, hq⟩ := exists_ask (hp.trans (hm ▸ rfl) : r.purpose = s.schedule.mode.purpose)
  rw [chatTurn, ha] at h
  cases answer
  all_goals cases h
  case none => exact .fails _ hq
  case some text => exact .chats _ text hm hq

theorem acts_dreamTurn {p : SleepPhase} (hm : s.schedule.mode = .resting p)
    (h : s.dreamTurn p now = (s', e)) : s.Acts now e s' := by
  obtain ⟨answer, ha, hq⟩ := exists_ask (s := s) (r := .dream p s.dreamMatter) (hm ▸ rfl)
  simp only [dreamTurn, ha] at h
  cases answer
  case none =>
    cases h
    exact .fails _ hq
  case some text =>
    simp only at h
    split at h
    case isTrue hb =>
      cases h
      exact .dozes _ text hm hq hb
    case isFalse hb =>
      cases h
      have hd : s.Acts now (.dreamed ⟨Text.trim text, p, now, s.overview.text⟩) _ :=
        .dreams _ text hm hq hb rfl
      split
      case isTrue hp => rwa [if_pos hp] at hd
      case isFalse hp => rwa [if_neg hp] at hd

end Session

-- The mode that asks for something to be done.
def Activity.mode : Activity → Mode
  | draw         => .drawing
  | askChoice    => .awaitingChoice
  | chatOpening  => .chatting
  | chatFollowUp => .chatting
  | chatIdle     => .chatting
  | dream phase  => .resting phase

theorem Schedule.mode_activity (s : Schedule) (now : Instant) : (s.activity now).mode = s.mode := by
  unfold activity
  split
  case h_3 hm =>
    rw [hm]
    split
    case h_2 => split <;> rfl
    all_goals rfl
  all_goals
    rename_i hm
    rw [hm]
    rfl

namespace Session

theorem acts_tick {s s' : Session} {now : Instant} {e : Event} (h : s.tick now = .ok (s', e)) :
    (s.advance now).Acts now e s' := by
  unfold tick at h
  simp only at h
  generalize s.advance now = s₁ at h ⊢
  have hm := s₁.schedule.mode_activity now
  split at h
  all_goals
    rename_i ha
    rw [ha] at hm
  case h_1 => exact acts_drawingTurn hm.symm h
  case h_2 => exact acts_choiceTurn hm.symm h
  case h_3 => exact acts_chatTurn hm.symm rfl (Checked.pure_eq_ok_iff.mp h)
  case h_4 => exact acts_chatTurn hm.symm rfl (Checked.pure_eq_ok_iff.mp h)
  case h_5 =>
    cases h
    exact .waits hm.symm
  case h_6 => exact acts_dreamTurn hm.symm (Checked.pure_eq_ok_iff.mp h)

/-! Changes of mode -/

-- The memory after a change of mode. Only the end of a rest changes it.
def memoryAt (s : Session) (now : Instant) : Memory :=
  if (s.schedule.poll now).2 = some .restEnded then (s.memory.retain s.retention s.studio.random).1
  else s.memory

@[simp]
theorem codes_memoryAt (s : Session) (now : Instant) : (s.memoryAt now).codes = s.memory.codes := by
  unfold memoryAt
  split <;> rfl

theorem exists_advance_eq (s : Session) (now : Instant) :
    ∃ random message folder, s.advance now = { s with
      studio := { s.studio with random := random }
      schedule := (s.schedule.poll now).1
      memory := s.memoryAt now
      lastMessage := message
      folder := folder } := by
  unfold advance memoryAt
  generalize s.schedule.poll now = p
  have ⟨schedule, transition⟩ := p
  cases transition
  case none => exact ⟨s.studio.random, s.lastMessage, s.folder, rfl⟩
  case some t =>
    cases t
    case restEnded =>
      exact ⟨(s.memory.retain s.retention s.studio.random).2.2, s.lastMessage, _, perform_eq_folder ..⟩
    case chatEnded => exact ⟨s.studio.random, none, s.folder, rfl⟩
    all_goals exact ⟨s.studio.random, s.lastMessage, s.folder, rfl⟩

@[simp]
theorem schedule_advance (s : Session) (now : Instant) :
    (s.advance now).schedule = (s.schedule.poll now).1 := by
  have ⟨_, _, _, h⟩ := s.exists_advance_eq now
  rw [h]

@[simp]
theorem memory_advance (s : Session) (now : Instant) : (s.advance now).memory = s.memoryAt now := by
  have ⟨_, _, _, h⟩ := s.exists_advance_eq now
  rw [h]

end Session

end Atelier
