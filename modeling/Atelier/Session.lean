import Atelier.Model
import Atelier.Settings
import Atelier.Snapshot
import Atelier.Studio

/-!
Sessions. A session is the studio with its routine, memory, mood, model and data folder. This module
starts, saves and loads sessions.
-/

namespace Atelier

structure Session where
  studio : Studio
  schedule : Schedule
  memory : Memory
  mood : Mood
  steps : Nat
  skips : Nat
  /-- Cycles in a row that moved with the pen down. -/
  continuousDraws : Nat
  lastTurnColor : Option Color
  model : Model
  folder : Folder
  /-- The zone of the clocks that snapshots are named by. -/
  zone : Zone
  fixedDelay : Option Nat
  saveEverySteps : Nat
  retention : Retention
  /-- The latest chat message or dream. -/
  lastMessage : Option String

namespace Session

/-- A session that has not drawn anything yet. If no zone is given, its clocks show UTC. -/
def start (settings : Settings) (model : Model) (folder : Folder) (random : Random) (spray : Spray)
    (now : Instant) (zone : Zone := .utc) : Checked Session := do
  let canvas ← Canvas.ofScreen settings.usableScreen Canvas.minScale spray
  let routine ← settings.routine
  return {
    studio := ⟨canvas, .initial, default, none, random, none⟩
    schedule := .start routine now
    memory := .empty
    mood := .initial
    steps := 0
    skips := 0
    continuousDraws := 0
    lastTurnColor := none
    model := model
    folder := folder
    zone := zone
    fixedDelay := settings.fixedDelay
    saveEverySteps := settings.saveEverySteps
    retention := settings.retention
    lastMessage := none
  }

def canvas (s : Session) : Canvas := s.studio.canvas

def withCanvas (s : Session) (c : Canvas) : Session :=
  { s with studio := { s.studio with canvas := c } }

def resumeMemory (s : Session) : Session :=
  { s with memory := .restore (Store.loadCodes s.folder) (Store.loadDreams s.folder) }

/-- Takes over a stored picture alone. The cursor is taken as one on that picture. -/
def resumePicture (s : Session) : Checked Session := do
  match Store.loadCanvas? s.folder with
  | some r =>
    let canvas ← s.canvas.restore (some r) s.canvas.cursor []
    return s.withCanvas canvas
  | none => return s

/-- Takes over a stored state, with the stored picture if there is one. -/
def resumeState (s : Session) (stored : SavedState) : Checked Session := do
  let canvas ← s.canvas.rescale s.canvas.screen stored.scale
  let canvas ← canvas.restore (Store.loadCanvas? s.folder) stored.cursor stored.colors
  return { s with
    studio := { s.studio with canvas := canvas, speed := .ofPace stored.pace }
    mood := .ofWord stored.emotion
    steps := stored.steps
    skips := stored.skips
    lastTurnColor := stored.lastTurnColor
    schedule := .restore s.schedule.routine stored.schedule
  }

/-- Takes over whatever is stored in the data folder. -/
def resume (s : Session) : Checked Session :=
  let s := s.resumeMemory
  match Store.loadState? s.folder with
  | some stored => s.resumeState stored
  | none => s.resumePicture

def load (settings : Settings) (model : Model) (folder : Folder) (random : Random) (spray : Spray)
    (now : Instant) (zone : Zone := .utc) : Checked Session := do
  let s ← start settings model folder random spray now zone
  s.resume

def savedState (s : Session) (now : Instant) : SavedState where
  cursor := s.canvas.cursor
  emotion := s.mood.word
  steps := s.steps
  size := ⟨s.canvas.width, s.canvas.height⟩
  scale := s.canvas.scale
  skips := s.skips
  pace := s.studio.speed.pace
  delay := s.studio.speed.currentDelay s.fixedDelay s.mood
  colors := s.canvas.colors.items
  lastTurnColor := s.lastTurnColor
  schedule := s.schedule.snapshot
  timestamp := now

/-- Does some work on the data folder. -/
def perform (s : Session) (work : Saving α) : Except SaveError α × Session :=
  match work s.folder with
  | .ok a f => (.ok a, { s with folder := f })
  | .error e f => (.error e, { s with folder := f })

def saveMemories (s : Session) : Saving Unit :=
  Store.saveMemories s.memory.dreams.items s.memory.codes.items

/-- Saves canvas, state and memories. -/
def save (s : Session) (now : Instant) : Except SaveError Unit × Session :=
  s.perform do
    Store.saveCanvas s.canvas.raster
    Store.saveState (s.savedState now)
    s.saveMemories

def sidecar (s : Session) (now : Instant) : Sidecar :=
  .ofCanvas s.canvas s.mood.word s.steps (s.zone.localTime now)

/-- Keeps the current picture as a snapshot. -/
def snapshot (s : Session) (now : Instant) : Except SaveError SnapshotTargets × Session :=
  s.perform (Snapshot.write s.canvas.raster (s.sidecar now))

def toggleTurbo (s : Session) : Session :=
  { s with studio := { s.studio with speed := s.studio.speed.toggleTurbo } }

/-- The delay before the next tick in milliseconds, and the session after it. -/
def nextDelay (s : Session) : Nat × Session :=
  let (delay, speed) := s.studio.speed.nextDelay s.fixedDelay s.mood
  (delay, { s with studio := { s.studio with speed := speed } })

end Session

end Atelier
