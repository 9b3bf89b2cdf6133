import Atelier.Proofs.Schedule.Restart
import Atelier.Proofs.Session.Counting
import Atelier.Proofs.Session.Overruns
import Atelier.Proofs.Store.Loading
import Atelier.Proofs.View.Words

/-!
Sessions that last. A session that has been loaded goes on for as long as its counts have room: nothing else
that it computes with leaves its word, and no cell that it asks for is missing.
-/

namespace Atelier

/-! Counts of a schedule -/

namespace Schedule

variable {s : Schedule} {now : Instant}

theorem chatMessages_poll (s : Schedule) (now : Instant) :
    (s.poll now).1.chatMessages = s.chatMessages := by
  have hp := s.polls_poll now
  generalize s.poll now = polled at hp
  cases hp
  all_goals rfl

theorem chatMessages_choose_le (s : Schedule) (c : Choice) (now : Instant) :
    (s.choose c now).chatMessages ≤ s.chatMessages := by
  cases c
  case chat => exact Nat.zero_le _
  all_goals exact Nat.le_refl _

theorem chatMessages_answer_le (s : Schedule) (text : String) (now : Instant) :
    (s.answer text now).1.chatMessages ≤ s.chatMessages := by
  have ha := s.answers_answer text now
  generalize s.answer text now = answered at ha
  cases ha
  case ignores => exact Nat.le_refl _
  case accepts c _ _ => exact s.chatMessages_choose_le c now
  case defaults => exact s.chatMessages_choose_le .draw now
  case counts => exact Nat.le_refl _

-- After two messages, a break only waits.
theorem activity_eq_chatIdle (hm : s.mode = .chatting) (h : 2 ≤ s.chatMessages) (now : Instant) :
    s.activity now = .chatIdle := by
  obtain ⟨n, hn⟩ := Nat.exists_eq_add_of_le' h
  simp only [activity, hm, hn]

end Schedule

namespace Session

variable {s s' : Session} {now : Instant} {e : Event} {screen : Size} {routine : Routine}

theorem chatMessages_lt_of_chat {m : String} (h : s.tick now = .ok (s', .chat m))
    (hm : (s.advance now).schedule.mode = .chatting) : (s.advance now).schedule.chatMessages < 2 := by
  apply Nat.lt_of_not_le
  intro hn
  unfold tick at h
  simp only [Schedule.activity_eq_chatIdle hm hn] at h
  cases h

-- What stays true of a session while it runs: everything that it counts or looks up, but for the counts
-- that go on from what was stored, is within its bounds.
structure Steady (s : Session) (screen : Size) (routine : Routine) : Prop where
  inOrder : s.InOrder screen
  patient : s.schedule.Patient routine
  messages : s.schedule.chatMessages ≤ 2

theorem Steady.tick (h : s.Steady screen routine) (hs : screen.IsShort) (ht : s.tick now = .ok (s', e)) :
    s'.Steady screen routine := by
  have hi := h.inOrder.of_keeps hs (keeps_tick ht)
  have hp := Schedule.patient_poll h.patient now
  have hc := h.messages
  rw [← Schedule.chatMessages_poll _ now] at hc
  rw [← schedule_advance] at hp hc
  obtain he | ⟨text, he⟩ | ⟨⟨m, rfl⟩, hm, he⟩ := (acts_tick ht).schedule_eq
  case inl => exact ⟨hi, he ▸ hp, he ▸ hc⟩
  case inr.inl =>
    refine ⟨hi, he ▸ Schedule.patient_answer hp text now, ?_⟩
    rw [he]
    exact (Schedule.chatMessages_answer_le ..).trans hc
  case inr.inr =>
    refine ⟨hi, he ▸ ⟨hp.routine, hp.invalidChoices⟩, ?_⟩
    rw [he]
    exact chatMessages_lt_of_chat ht hm

theorem Steady.run {ts : List Turn} (h : s.Steady screen routine) (hs : screen.IsShort) (hr : Run s ts s') :
    s'.Steady screen routine := by
  induction hr
  case nil => exact h
  case cons ht _ ih => exact ih (h.tick hs ht)

theorem JustOpened.steady (ho : s.JustOpened routine) (h : s.InOrder screen) : s.Steady screen routine :=
  ⟨h, ⟨ho.routine, fun _ => .inl ho.attempts⟩, ho.messages ▸ Nat.zero_le 2⟩

/-! Runs that are stopped -/

theorem tick_eq_error_iff {f : Fault} (h : s.InOrder screen) (hs : screen.IsShort) :
    s.tick now = .error f ↔ f = .overflow ∧ (s.advance now).Overruns := by
  obtain ⟨ho, ht⟩ | ⟨ho, p, ht⟩ := tick_cases h hs now
  case inl =>
    rw [ht, Except.error.injEq, eq_comm]
    exact (and_iff_left ho).symm
  case inr =>
    rw [ht]
    exact ⟨nofun, fun h => absurd h.right ho⟩

theorem keeps_run {ts : List Turn} (h : Run s ts s') : Keeps s s' := by
  induction h
  case nil => exact .refl _
  case cons ht _ ih => exact (keeps_tick ht).trans ih

-- A run is stopped by the first tick that comes to a count without a place.
theorem run_eq_error_iff {times : List Instant} {f : Fault} (h : s.InOrder screen) (hs : screen.IsShort) :
    s.run times = .error f ↔ f = .overflow ∧ ∃ before last behind t es, times = before ++ last :: behind ∧
      s.run before = .ok (t, es) ∧ (t.advance last).Overruns := by
  have hi {before : List Instant} {t : Session} {es : List Event} (hb : s.run before = .ok (t, es)) :
      t.InOrder screen := by
    obtain ⟨ts, hr, _⟩ := run_eq_ok_iff.mp hb
    exact h.of_keeps hs (keeps_run hr)
  rw [run, Checked.foldlM_eq_error_iff]
  constructor
  case mp =>
    rintro ⟨before, last, behind, ⟨t, es⟩, he, hb, ht⟩
    have ht := (Checked.bind_eq_error_iff.mp ht).resolve_right (by rintro ⟨_, _, hp⟩; cases hp)
    obtain ⟨hf, ho⟩ := (tick_eq_error_iff (hi hb) hs).mp ht
    exact ⟨hf, before, last, behind, t, es, he, hb, ho⟩
  case mpr =>
    rintro ⟨hf, before, last, behind, t, es, he, hb, ho⟩
    have ht := (tick_eq_error_iff (hi hb) hs).mpr ⟨hf, ho⟩
    exact ⟨before, last, behind, (t, es), he, hb, Checked.bind_eq_error_iff.mpr (.inl ht)⟩

/-! Room for more -/

-- No count comes to its end in as many ticks. One drawing counts its pixels at 160 strokes at most, each of
-- them on 1681 cells at most.
structure HasRoom (s : Session) (n : Nat) : Prop where
  steps : s.steps + n < 2 ^ 64
  skips : s.skips + n < 2 ^ 64
  draws : s.continuousDraws + n < 2 ^ 32
  pixels : s.memory.pixels pixelWindow + 268960 * n < 2 ^ 64

theorem pixels_memoryAt (s : Session) (now : Instant) (n : Nat) :
    (s.memoryAt now).pixels n = s.memory.pixels n := by
  rw [Memory.pixels, codes_memoryAt, Memory.pixels]

theorem HasRoom.advance {n : Nat} (h : s.HasRoom n) (now : Instant) : (s.advance now).HasRoom n := by
  have hp := h.pixels
  rw [← s.pixels_memoryAt now] at hp
  have ⟨_, _, _, ha⟩ := s.exists_advance_eq now
  rw [ha]
  exact ⟨h.steps, h.skips, h.draws, hp⟩

theorem HasRoom.not_overruns {n : Nat} (h : s.HasRoom (n + 1)) : ¬s.Overruns := by
  obtain ⟨hsteps, hskips, hdraws, hpixels⟩ := h
  rintro (⟨_, hp⟩ | ⟨_, _, _, ho⟩)
  case checkIn => omega
  case drawing =>
    unfold Overfills at ho
    omega

theorem pixels_push_le (h : History CodeMemory) (c : CodeMemory) (n : Nat) :
    (((h.push c).recent n).map (·.context.pixelsDrawn)).sum ≤
      ((h.recent n).map (·.context.pixelsDrawn)).sum + c.context.pixelsDrawn := by
  obtain ⟨front, hf⟩ := h.recent_push_suffix c n
  have hs := congrArg (fun cs => (cs.map (·.context.pixelsDrawn)).sum) hf
  simp only [List.map_append, List.sum_append, List.map_cons, List.map_nil, List.sum_cons, List.sum_nil,
    Nat.add_zero] at hs
  omega

theorem painted_of_entry? {t : Turn} {m : CodeMemory} (h : t.entry? = some m) :
    ∃ c, t.event = .drew c ∧ m.context.pixelsDrawn = c.marks.painted := by
  obtain ⟨c, hc, h⟩ := Option.bind_eq_some_iff.mp h
  refine ⟨c, ?_, ?_⟩
  case refine_1 =>
    unfold Turn.cycle? at hc
    split at hc
    case h_1 he =>
      cases hc
      exact he
    case h_2 => cases hc
  case refine_2 =>
    split at h
    case isTrue =>
      cases h
      rfl
    case isFalse => cases h

theorem painted_le_of_tick {c : Cycle} (h : s.tick now = .ok (s', .drew c)) : c.marks.painted ≤ 268960 := by
  obtain ⟨_, raw, _, hr⟩ := drawing_of_tick h
  have hp := Studio.painted_le_of_run hr
  have hl := Token.length_scan_le raw
  omega

theorem pixels_tick_le (h : s.tick now = .ok (s', e)) (n : Nat) :
    s'.memory.pixels n ≤ s.memory.pixels n + 268960 := by
  have hc := (accounts_singleton.mp (accounts_tick h)).right.right
  rw [Memory.pixels, hc, Memory.pixels]
  cases he : Turn.entry? ⟨s, now, e, s'⟩
  case none => exact Nat.le_add_right _ _
  case some m =>
    obtain ⟨c, hd, hm⟩ := painted_of_entry? he
    cases hd
    have hl := painted_le_of_tick h
    have hp := pixels_push_le s.memory.codes m n
    rw [hm] at hp
    exact hp.trans (Nat.add_le_add_left hl _)

theorem Acts.continuousDraws_le (h : s.Acts now e s') : s'.continuousDraws ≤ s.continuousDraws + 1 := by
  cases h
  case draws hd =>
    have hl := continuousDraws_le_of_draw hd
    exact hl
  all_goals exact Nat.le_succ _

theorem continuousDraws_advance (s : Session) (now : Instant) :
    (s.advance now).continuousDraws = s.continuousDraws := by
  have ⟨_, _, _, h⟩ := s.exists_advance_eq now
  rw [h]

theorem HasRoom.tick {n : Nat} (h : s.HasRoom (n + 1)) (ht : s.tick now = .ok (s', e)) : s'.HasRoom n := by
  obtain ⟨hsteps, hskips, hdraws, hpixels⟩ := h
  obtain ⟨hs, hk, _⟩ := accounts_singleton.mp (accounts_tick ht)
  have hd := (acts_tick ht).continuousDraws_le
  rw [continuousDraws_advance] at hd
  have hp := pixels_tick_le ht pixelWindow
  have hc := Option.length_toList_le (o := Turn.cycle? ⟨s, now, e, s'⟩)
  have hb := Bool.toNat_le (Turn.isSkip ⟨s, now, e, s'⟩)
  constructor <;> omega

theorem HasRoom.exists_run {times : List Instant} (h : s.HasRoom times.length) (hi : s.InOrder screen)
    (hs : screen.IsShort) : ∃ ts s', Run s ts s' ∧ ts.map Turn.now = times := by
  induction times generalizing s
  case nil => exact ⟨[], s, .nil, rfl⟩
  case cons now times ih =>
    obtain ⟨ho, _⟩ | ⟨_, ⟨s₁, e⟩, ht⟩ := tick_cases hi hs now
    case inl => exact absurd ho (h.advance now).not_overruns
    case inr =>
      obtain ⟨ts, s', hr, hn⟩ := ih (h.tick ht) (hi.of_keeps hs (keeps_tick ht))
      exact ⟨_, s', .cons ht hr, congrArg (now :: ·) hn⟩

/-! Sessions from stored files -/

variable {settings : Settings} {folder : Folder} {model : Model} {random : Random} {spray : Spray}
variable {zone : Zone}

-- The stored counts do not come to their end in as many ticks.
structure RoomFor (folder : Folder) (n : Nat) : Prop where
  steps : ((Store.loadState? folder).map (·.steps)).getD 0 + n < 2 ^ 64
  skips : ((Store.loadState? folder).map (·.skips)).getD 0 + n < 2 ^ 64
  draws : n < 2 ^ 32
  pixels : ((lastOf 100 (Store.loadCodes folder)).map (·.context.pixelsDrawn)).sum + 268960 * n < 2 ^ 64

theorem recent_restore (dreams : List Dream) (n : Nat) :
    (Memory.restore (Store.loadCodes folder) dreams).codes.recent n = lastOf n (Store.loadCodes folder) := by
  have hl : (Store.loadCodes folder).length ≤ Memory.codeLimit := by
    rw [Store.loadCodes, length_lastOf]
    exact Nat.min_le_left ..
  rw [Memory.restore, History.ofList_eq, lastOf_of_length_le hl, History.recent]

theorem RoomFor.hasRoom {n : Nat} (h : RoomFor folder n)
    (hl : load settings model folder random spray now zone = .ok s) (hd : s.continuousDraws = 0) :
    s.HasRoom n := by
  obtain ⟨hsteps, hskips⟩ := counts_load hl
  obtain ⟨hm, _⟩ := load_eq_ok hl
  refine ⟨hsteps ▸ h.steps, hskips ▸ h.skips, ?_, ?_⟩
  case refine_1 =>
    rw [hd, Nat.zero_add]
    exact h.draws
  case refine_2 =>
    rw [Memory.pixels, hm, recent_restore]
    exact h.pixels

-- A session that is loaded is stopped by nothing but a count that comes to its end, and not before. Until
-- then, all that it looks up is there, and all else that it computes with has its place.
theorem loaded_run_stops_iff (hs : settings.screen.IsShort) (hr : settings.routine = .ok routine)
    (hl : Loadable folder) (model : Model) (random : Random) (spray : Spray) (now : Instant) (zone : Zone) :
    ∃ s, load settings model folder random spray now zone = .ok s ∧ ∀ times,
      (∀ f, s.run times = .error f ↔ f = .overflow ∧ ∃ before last behind t es,
        times = before ++ last :: behind ∧ s.run before = .ok (t, es) ∧ (t.advance last).Overruns) ∧
      (∀ t es, s.run times = .ok (t, es) → t.Steady settings.usableScreen routine ∧ View.Fits t.canvas) ∧
      (RoomFor folder times.length → ∃ t es, s.run times = .ok (t, es)) := by
  have hu : settings.usableScreen.IsShort := hs.max_one
  obtain ⟨s, h, hi, ho⟩ := exists_load hs hr hl model random spray now zone
  refine ⟨s, h, fun times => ⟨fun f => run_eq_error_iff hi hu, fun t es ht => ?_, fun hroom => ?_⟩⟩
  case refine_1 =>
    obtain ⟨ts, hrun, _⟩ := run_eq_ok_iff.mp ht
    have hst := (ho.steady hi).run hu hrun
    exact ⟨hst, View.fits_of_sound hst.inOrder.canvas.sound⟩
  case refine_2 =>
    obtain ⟨ts, t, hrun, hn⟩ := (hroom.hasRoom h ho.draws).exists_run hi hu
    exact ⟨t, _, run_eq_ok_iff.mpr ⟨ts, hrun, hn, rfl⟩⟩

-- A state that was stored after a number of steps, and a folder with a state and nothing else.
def reached (steps : Nat) : SavedState where
  cursor := ⟨10, 8, true, .white, .brush⟩
  emotion := "curious"
  steps := steps
  size := ⟨20, 16⟩
  scale := 1.0
  skips := 0
  pace := .normal
  delay := 80
  colors := []
  lastTurnColor := none
  schedule := ⟨.drawing, ⟨0, 0⟩, .light, ⟨0, 0⟩, ⟨0, 0⟩⟩
  timestamp := ⟨0, 0⟩

def keeping (s : SavedState) : Folder :=
  Folder.empty.put Store.statePath (.file (.text s.toJson.pretty))

theorem loadState?_keeping {stored : SavedState} (h : stored.IsStorable) :
    Store.loadState? (keeping stored) = some stored := by
  have ht : (keeping stored).text? Store.statePath = some stored.toJson.pretty := by
    rw [Folder.text?, keeping, Folder.get?_put _ (by decide), if_pos rfl]
  rw [Store.loadState?, Store.document?, ht, Option.bind_some, SavedState.read_document h]

theorem get?_keeping (stored : SavedState) {p : Path} (hp : p ≠ []) (hs : p ≠ Store.statePath) :
    (keeping stored).get? p = none := by
  rw [keeping, Folder.get?_put _ (by decide), if_neg hs, Folder.get?, if_neg (by simpa using hp)]
  rfl

theorem isStorable_reached {steps : Nat} (h : steps < 18446744073709551616) : (reached steps).IsStorable :=
  have hz : (reached 0).IsStorable := {
    x := by decide
    y := by decide
    steps := by decide
    width := by decide
    height := by decide
    scale := by decide +kernel
    skips := by decide
    delay := by decide
    schedule := ⟨⟨by decide, by decide⟩, ⟨by decide, by decide⟩, by decide, by decide⟩
    timestamp := ⟨by decide, by decide⟩ }
  { hz with steps := h }

theorem loadable_reached {steps : Nat} (h : steps < 18446744073709551616) :
    Loadable (keeping (reached steps)) where
  picture r hr := by
    rw [Store.loadCanvas?, Folder.picture?, get?_keeping _ (by decide) (by decide)] at hr
    cases hr
  cursor stored hst := by
    rw [loadState?_keeping (isStorable_reached h)] at hst
    cases hst
    exact (by decide : (reached 0).cursor.IsClose)

theorem roomFor_reached {steps n : Nat} (h : steps + n < 2 ^ 64) (hn : n < 2 ^ 32) :
    RoomFor (keeping (reached steps)) n := by
  have hst := loadState?_keeping (isStorable_reached (by omega : steps < 18446744073709551616))
  have hc : Store.loadCodes (keeping (reached steps)) = [] := by
    rw [Store.loadCodes, Store.document?, Folder.text?, get?_keeping _ (by decide) (by decide)]
    rfl
  refine ⟨?_, ?_, hn, ?_⟩
  case refine_1 => rwa [hst]
  case refine_2 =>
    rw [hst]
    exact Nat.lt_of_le_of_lt (Nat.add_le_add_right (Nat.zero_le steps) n) h
  case refine_3 =>
    rw [hc]
    show 0 + 268960 * n < 2 ^ 64
    omega

theorem fst_ask (s : Session) (r : Request) : (s.ask r).1 = (s.model.ask r).1.toOption :=
  rfl

def painter : Model :=
  .ofSource (.scripted [.ok "5"])

-- Two steps before the end of the count, there is room for two ticks more.
theorem loaded_run_stops_iff_of_two_steps_left :
    smallScreen.screen.IsShort ∧ smallScreen.routine = .ok .standard ∧
    Loadable (keeping (reached 18446744073709551613)) ∧ RoomFor (keeping (reached 18446744073709551613)) 2 ∧
    ∃ s t es, load smallScreen painter (keeping (reached 18446744073709551613)) (.ofSeed 0)
      (.seeded (.ofSeed 0)) ⟨0, 0⟩ = .ok s ∧ s.run [⟨0, 0⟩, ⟨1, 0⟩] = .ok (t, es) := by
  have hs : smallScreen.screen.IsShort := by decide
  have hr : smallScreen.routine = .ok .standard := rfl
  have hl := loadable_reached (by decide : 18446744073709551613 < 18446744073709551616)
  have hroom : RoomFor (keeping (reached 18446744073709551613)) 2 := roomFor_reached (by decide) (by decide)
  obtain ⟨s, h, hrun⟩ := loaded_run_stops_iff hs hr hl painter (.ofSeed 0) (.seeded (.ofSeed 0)) ⟨0, 0⟩ .utc
  obtain ⟨t, es, ht⟩ := (hrun [⟨0, 0⟩, ⟨1, 0⟩]).right.right hroom
  exact ⟨hs, hr, hl, hroom, s, t, es, h, ht⟩

-- With the count at its end, the first drawing stops the session.
theorem loaded_run_stops :
    smallScreen.screen.IsShort ∧ smallScreen.routine = .ok .standard ∧
    Store.loadState? (keeping (reached 18446744073709551615)) = some (reached 18446744073709551615) ∧
    Loadable (keeping (reached 18446744073709551615)) ∧
    ∃ s, load smallScreen painter (keeping (reached 18446744073709551615)) (.ofSeed 0)
      (.seeded (.ofSeed 0)) ⟨0, 0⟩ = .ok s ∧ s.run [⟨0, 0⟩] = .error .overflow := by
  have hs : smallScreen.screen.IsShort := by decide
  have hu : smallScreen.usableScreen.IsShort := hs.max_one
  have hr : smallScreen.routine = .ok .standard := rfl
  have hlt : 18446744073709551615 < 18446744073709551616 := by decide
  have hst := loadState?_keeping (isStorable_reached hlt)
  have hl := loadable_reached hlt
  obtain ⟨s, h, hi, ho⟩ := exists_load hs hr hl painter (.ofSeed 0) (.seeded (.ofSeed 0)) ⟨0, 0⟩ .utc
  obtain ⟨routine, hsteps, _, hschedule, hmodel⟩ := takesOver_load h hst
  have hroutine : routine = .standard := by
    have he := ho.routine
    rw [hschedule] at he
    exact he
  have hm : (s.advance ⟨0, 0⟩).schedule.mode = .drawing := by
    rw [schedule_advance, hschedule, hroutine]
    rfl
  have ha : ((s.advance ⟨0, 0⟩).ask (.drawing (s.advance ⟨0, 0⟩).scene)).1 = some "5" := by
    rw [fst_ask, model_advance, hmodel]
    rfl
  have hi' := hi.of_keeps hu (s.keeps_advance ⟨0, 0⟩)
  obtain ⟨studio, c, hrun⟩ :=
    Studio.exists_run (s := (s.advance ⟨0, 0⟩).studio) hi'.canvas hu (Token.scan "5")
  have hover : (s.advance ⟨0, 0⟩).Overfills studio c := by
    refine .inr (.inr ?_)
    rw [(s.sameWork_advance ⟨0, 0⟩).steps, hsteps]
    decide
  exact ⟨hs, hr, hst, hl, s, h, (run_eq_error_iff hi hu).mpr
    ⟨rfl, [], ⟨0, 0⟩, [], s, [], rfl, rfl, .drawing hm ha hrun hover⟩⟩

end Session

end Atelier
