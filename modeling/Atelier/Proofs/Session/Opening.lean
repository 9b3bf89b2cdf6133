import Atelier.Proofs.Checked
import Atelier.Session

/-!
Sessions as they are opened: begun anew, or taken up again from a data folder.
-/

namespace Atelier.Session

variable {s t : Session} {settings : Settings} {model : Model} {folder : Folder} {random : Random}
variable {spray : Spray} {now : Instant} {zone : Zone}

theorem start_eq_ok (h : start settings model folder random spray now zone = .ok s) :
    ∃ canvas routine, s = {
      studio := ⟨canvas, .initial, default, none, random, none⟩
      schedule := .start routine now
      memory := .empty
      mood := .initial
      steps := 0
      skips := 0
      continuousDraws := 0
      lastTurnColor := none
      model := model
      folder := folder
      zone := zone
      fixedDelay := settings.fixedDelay
      saveEverySteps := settings.saveEverySteps
      retention := settings.retention
      lastMessage := none } := by
  simp only [start, Checked.bind_eq_ok_iff, Checked.pure_eq_ok_iff] at h
  obtain ⟨canvas, _, routine, _, rfl⟩ := h
  exact ⟨canvas, routine, rfl⟩

theorem folder_resumeMemory (s : Session) : s.resumeMemory.folder = s.folder := by
  simp only [resumeMemory]

theorem canvas_resumeMemory (s : Session) : s.resumeMemory.canvas = s.canvas := by
  simp only [resumeMemory, canvas]

-- A stored picture and a stored state leave memory and settings alone.
structure SameStore (s t : Session) : Prop where
  memory : t.memory = s.memory
  retention : t.retention = s.retention

theorem sameStore_resumePicture (h : s.resumePicture = .ok t) : SameStore s t := by
  unfold resumePicture at h
  split at h
  case h_1 =>
    simp only [Checked.bind_eq_ok_iff, Checked.pure_eq_ok_iff] at h
    obtain ⟨_, _, rfl⟩ := h
    exact ⟨rfl, rfl⟩
  case h_2 =>
    cases h
    exact ⟨rfl, rfl⟩

theorem counts_resumePicture (h : s.resumePicture = .ok t) : t.steps = s.steps ∧ t.skips = s.skips := by
  unfold resumePicture at h
  split at h
  case h_1 =>
    simp only [Checked.bind_eq_ok_iff, Checked.pure_eq_ok_iff] at h
    obtain ⟨_, _, rfl⟩ := h
    exact ⟨rfl, rfl⟩
  case h_2 =>
    cases h
    exact ⟨rfl, rfl⟩

theorem sameStore_resumeState {stored : SavedState} (h : s.resumeState stored = .ok t) :
    SameStore s t := by
  simp only [resumeState, Checked.bind_eq_ok_iff, Checked.pure_eq_ok_iff] at h
  obtain ⟨_, _, _, _, rfl⟩ := h
  exact ⟨rfl, rfl⟩

theorem sameStore_resume (h : s.resume = .ok t) : SameStore s.resumeMemory t := by
  simp only [resume] at h
  split at h
  case h_1 => exact sameStore_resumeState h
  case h_2 => exact sameStore_resumePicture h

theorem load_eq_ok (h : load settings model folder random spray now zone = .ok s) :
    s.memory = .restore (Store.loadCodes folder) (Store.loadDreams folder) ∧
      s.retention = settings.retention := by
  obtain ⟨s₀, h₀, h⟩ := Checked.bind_eq_ok_iff.mp h
  obtain ⟨_, _, rfl⟩ := start_eq_ok h₀
  have hs := sameStore_resume h
  exact ⟨hs.memory, hs.retention⟩

-- What a session takes over from a stored state, but for canvas and mood.
structure TakesOver (s t : Session) (stored : SavedState) : Prop where
  steps : t.steps = stored.steps
  skips : t.skips = stored.skips
  schedule : t.schedule = .restore s.schedule.routine stored.schedule
  model : t.model = s.model

theorem takesOver_resumeState {stored : SavedState} (h : s.resumeState stored = .ok t) :
    TakesOver s t stored := by
  simp only [resumeState, Checked.bind_eq_ok_iff, Checked.pure_eq_ok_iff] at h
  obtain ⟨_, _, _, _, rfl⟩ := h
  exact ⟨rfl, rfl, rfl, rfl⟩

theorem takesOver_load {stored : SavedState} (h : load settings model folder random spray now zone = .ok s)
    (hst : Store.loadState? folder = some stored) :
    ∃ routine, s.steps = stored.steps ∧ s.skips = stored.skips ∧
      s.schedule = .restore routine stored.schedule ∧ s.model = model := by
  obtain ⟨s₀, h₀, h⟩ := Checked.bind_eq_ok_iff.mp h
  obtain ⟨_, routine, rfl⟩ := start_eq_ok h₀
  simp only [resume, folder_resumeMemory, hst] at h
  have hs := takesOver_resumeState h
  exact ⟨routine, hs.steps, hs.skips, hs.schedule, hs.model⟩

-- Without a stored state, counting begins anew.
theorem counts_load (h : load settings model folder random spray now zone = .ok s) :
    s.steps = ((Store.loadState? folder).map (·.steps)).getD 0 ∧
      s.skips = ((Store.loadState? folder).map (·.skips)).getD 0 := by
  cases hst : Store.loadState? folder
  case some stored =>
    obtain ⟨_, hsteps, hskips, _⟩ := takesOver_load h hst
    exact ⟨hsteps, hskips⟩
  case none =>
    obtain ⟨s₀, h₀, h⟩ := Checked.bind_eq_ok_iff.mp h
    obtain ⟨_, _, rfl⟩ := start_eq_ok h₀
    simp only [resume, folder_resumeMemory, hst] at h
    obtain ⟨hsteps, hskips⟩ := counts_resumePicture h
    exact ⟨hsteps, hskips⟩

-- A session of given settings, begun anew or taken up again.
def Opened (settings : Settings) (s : Session) : Prop :=
  ∃ model folder random spray now zone, start settings model folder random spray now zone = .ok s ∨
    load settings model folder random spray now zone = .ok s

theorem Opened.memory_eq (h : Opened settings s) :
    (∃ codes dreams, s.memory = .restore codes dreams) ∧ s.retention = settings.retention := by
  obtain ⟨_, _, _, _, _, _, h | h⟩ := h
  case inl =>
    obtain ⟨_, _, rfl⟩ := start_eq_ok h
    exact ⟨⟨[], [], by rw [Memory.empty]⟩, rfl⟩
  case inr =>
    have ⟨hm, hr⟩ := load_eq_ok h
    exact ⟨⟨_, _, hm⟩, hr⟩

-- A canvas that is quickly drawn on.
def smallScreen : Settings :=
  { Settings.standard with screen := ⟨60, 56⟩, saveEverySteps := 0 }

end Atelier.Session
