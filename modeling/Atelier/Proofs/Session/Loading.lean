import Atelier.Proofs.Mood
import Atelier.Proofs.Session.Course
import Atelier.Proofs.Session.Opening

/-!
Sessions that are loaded. Whatever is stored, the session is in order, as long as no side of the picture is
too long and the cursor is not too far away: the other numbers of the documents are taken as they are or
cut to size.
-/

namespace Atelier

namespace Canvas

variable {c c' : Canvas} {screen : Size} {stored : Option Raster} {k : Cursor} {colors : List Color}

theorem sameFrame_restore (h : c.restore stored k colors = .ok c') : c.SameFrame c' := by
  cases stored
  case none =>
    cases h
    exact ⟨rfl, rfl, rfl⟩
  case some r =>
    obtain ⟨⟨raster, o⟩, hr, h⟩ := Checked.bind_eq_ok_iff.mp h
    obtain ⟨cursor, _, h⟩ := Checked.bind_eq_ok_iff.mp h
    cases h
    rw [(Raster.migrate_eq_ok hr).left]
    exact ⟨rfl, rfl, r.size_centredIn _ _⟩

theorem Fitted.exists_restore (h : c.Fitted screen) (hk : k.IsClose)
    (hs : ∀ r, stored = some r → r.size.IsShort) (colors : List Color) :
    ∃ c', c.restore stored k colors = .ok c' ∧ c'.Fitted screen := by
  have ⟨c', hr, hc⟩ := h.sound.restore hk hs colors
  exact ⟨c', hr, h.of_sameFrame hc (sameFrame_restore hr)⟩

end Canvas

namespace Memory

theorem isCapped_codes_restore (codes : List CodeMemory) (dreams : List Dream) :
    (restore codes dreams).codes.IsCapped codeLimit :=
  History.isCapped_ofList ..

theorem isCapped_dreams_restore (codes : List CodeMemory) (dreams : List Dream) :
    (restore codes dreams).dreams.IsCapped dreamLimit :=
  History.isCapped_ofList ..

end Memory

namespace Session

variable {s t : Session} {screen : Size} {settings : Settings} {routine : Routine} {model : Model}
variable {folder : Folder} {random : Random} {spray : Spray} {now : Instant} {zone : Zone}

-- What the loading of stored files relies on.
structure Loadable (folder : Folder) : Prop where
  picture : ∀ r, Store.loadCanvas? folder = some r → r.size.IsShort
  cursor : ∀ stored, Store.loadState? folder = some stored → stored.cursor.IsClose

-- A session that has just been opened has no messages of a chat break, no invalid answers and no drawings in
-- a row behind it.
structure JustOpened (s : Session) (routine : Routine) : Prop where
  routine : s.schedule.routine = routine
  messages : s.schedule.chatMessages = 0
  attempts : s.schedule.invalidChoices = 0
  draws : s.continuousDraws = 0

theorem inOrder_resumeMemory (h : s.InOrder screen) : s.resumeMemory.InOrder screen := by
  have hc : s.resumeMemory.canvas.Fitted screen := by
    rw [canvas_resumeMemory]
    exact h.canvas
  unfold resumeMemory at hc ⊢
  exact ⟨hc, h.depth, Memory.isCapped_codes_restore .., Memory.isCapped_dreams_restore ..⟩

theorem justOpened_resumeMemory (h : s.JustOpened routine) : s.resumeMemory.JustOpened routine := by
  unfold resumeMemory
  exact ⟨h.routine, h.messages, h.attempts, h.draws⟩

theorem exists_resumePicture (h : s.InOrder screen) (ho : s.JustOpened routine) (hl : Loadable s.folder) :
    ∃ t, s.resumePicture = .ok t ∧ t.InOrder screen ∧ t.JustOpened routine := by
  unfold resumePicture
  split
  case h_2 => exact ⟨s, rfl, h, ho⟩
  case h_1 r hr =>
    have hs : ∀ r', some r = some r' → r'.size.IsShort := fun _ he => hl.picture _ (hr.trans he)
    have ⟨c, hc, hf⟩ := h.canvas.exists_restore h.canvas.sound.cursor_isClose hs []
    rw [hc]
    exact ⟨_, rfl, { h with canvas := hf }, { ho with }⟩

theorem exists_resumeState (h : s.InOrder screen) (hs : screen.IsShort) (ho : s.JustOpened routine)
    (hl : Loadable s.folder) {stored : SavedState} (hk : stored.cursor.IsClose) :
    ∃ t, s.resumeState stored = .ok t ∧ t.InOrder screen ∧ t.JustOpened routine := by
  have ⟨c, hr, hf, _⟩ := h.canvas.rescale hs stored.scale
  have ⟨c', hc, hf'⟩ := hf.exists_restore hk hl.picture stored.colors
  unfold resumeState
  rw [hr, Checked.ok_bind, hc, Checked.ok_bind]
  refine ⟨_, rfl, { h with canvas := hf', depth := Mood.depth_ofWord_le _ }, ?_⟩
  exact { ho with messages := rfl, attempts := rfl }

theorem justOpened_start (h : start settings model folder random spray now zone = .ok s)
    (hr : s.schedule = .start routine now) : s.JustOpened routine := by
  obtain ⟨_, _, rfl⟩ := start_eq_ok h
  exact ⟨congrArg Schedule.routine hr, rfl, rfl, rfl⟩

theorem exists_resume (h : s.InOrder screen) (hs : screen.IsShort) (ho : s.JustOpened routine)
    (hl : Loadable s.folder) : ∃ t, s.resume = .ok t ∧ t.InOrder screen ∧ t.JustOpened routine := by
  have hi := inOrder_resumeMemory h
  have ho := justOpened_resumeMemory ho
  rw [← s.folder_resumeMemory] at hl
  unfold resume
  simp only
  split
  case h_1 stored hst => exact exists_resumeState hi hs ho hl (hl.cursor stored hst)
  case h_2 => exact exists_resumePicture hi ho hl

theorem exists_load (hs : settings.screen.IsShort) (hr : settings.routine = .ok routine)
    (hl : Loadable folder) (model : Model) (random : Random) (spray : Spray) (now : Instant) (zone : Zone) :
    ∃ s, load settings model folder random spray now zone = .ok s ∧ s.InOrder settings.usableScreen ∧
      s.JustOpened routine := by
  have hs : settings.usableScreen.IsShort := hs.max_one
  have ⟨s, h₀, hi, hf, ho⟩ := exists_start_of_routine hs hr model folder random spray now zone
  rw [load, h₀]
  exact exists_resume hi hs (justOpened_start h₀ ho) (hf ▸ hl)

end Session

end Atelier
