import Atelier.Proofs.Session.Turns
import Atelier.Proofs.Snapshot.Writing

/-!
The snapshots of one tick. A tick keeps at most one picture, the one that its drawing has cleared away,
and leaves all other snapshots alone.
-/

namespace Atelier.Session

open Saving Snapshot

variable {s s' : Session} {now : Instant}

theorem perform_eq (s : Session) (work : Saving α) :
    (s.perform work).2 = { s with folder := after work s.folder } := by
  unfold perform after
  cases work s.folder <;> rfl

theorem save_eq (s : Session) (now : Instant) :
    s.save now = s.perform (Store.save s.canvas.raster (s.savedState now) s.memory.dreams.items
      s.memory.codes.items) :=
  rfl

theorem agree_save (s : Session) (now : Instant) : Agree s.folder (s.save now).2.folder := by
  rw [save_eq, perform_eq]
  exact agree_after (fun _ hq => leaves_save hq) _

theorem agree_saveIfDue (s : Session) (now : Instant) : Agree s.folder (s.saveIfDue now).folder := by
  unfold saveIfDue
  split
  case isTrue => exact s.agree_save now
  case isFalse => exact .refl _

-- Sessions that would name the next snapshot alike and have the same ones so far.
structure Alike (s t : Session) : Prop where
  zone : s.zone = t.zone
  mood : s.mood = t.mood
  steps : s.steps = t.steps
  folder : Agree s.folder t.folder

theorem alike_follow (s : Session) (t : Transition) : Alike s (s.follow t) := by
  cases t
  case restEnded =>
    simp only [follow, perform_eq]
    exact ⟨rfl, rfl, rfl, agree_after (fun _ hq => leaves_saveMemories hq) _⟩
  all_goals exact ⟨rfl, rfl, rfl, .refl _⟩

theorem alike_advance (s : Session) (now : Instant) : Alike s (s.advance now) := by
  unfold advance
  generalize s.schedule.poll now = p
  have ⟨schedule, transition⟩ := p
  have ha : Alike s { s with schedule := schedule } := ⟨rfl, rfl, rfl, .refl _⟩
  cases transition
  case none => exact ha
  case some t =>
    have hf := alike_follow { s with schedule := schedule } t
    exact ⟨ha.zone.trans hf.zone, ha.mood.trans hf.mood, ha.steps.trans hf.steps, ha.folder.trans hf.folder⟩

-- The picture that a drawing has cleared away is the only one that is kept.
def shot? (s : Session) (now : Instant) (e : Event) (result : Session) : Option Shot :=
  match e with
  | .drew c => c.archived.map fun r => ⟨r, result.canvas, s.mood, s.steps, s.zone.localTime now⟩
  | _ => none

-- The folder after a snapshot that may be due.
def afterShot (f : Folder) : Option Shot → Folder
  | some a => after a.write f
  | none => f

theorem archive_eq (s : Session) (c : Cycle) (now : Instant) :
    s.archive c now = { s with folder := afterShot s.folder (s.shot? now (.drew c) s) } := by
  cases h : c.archived
  case none => simp only [archive, shot?, h, Option.map_none, afterShot]
  case some r =>
    simp only [archive, shot?, h, Option.map_some, afterShot, perform_eq]
    rfl

theorem canvas_saveIfDue (s : Session) (now : Instant) : (s.saveIfDue now).canvas = s.canvas := by
  have ⟨_, h⟩ := s.exists_saveIfDue_eq now
  rw [h]
  rfl

theorem draw_snapshots {raw : String} {c : Cycle} (h : s.draw raw now = .ok (s', c)) :
    Agree (afterShot s.folder (s.shot? now (.drew c) s')) s'.folder := by
  obtain ⟨studio, _, _, t, _, ht, hs⟩ := draw_eq_saveIfDue h
  have hc : s'.canvas = studio.canvas := by rw [hs, canvas_saveIfDue, ht, canvas]
  have hshot : s.shot? now (.drew c) s' =
      shot? { s with studio := studio } now (.drew c) { s with studio := studio } := by
    simp only [shot?, hc]
    rfl
  have hf : t.folder = afterShot s.folder (s.shot? now (.drew c) s') := by rw [ht, archive_eq, hshot]
  rw [← hf, hs]
  exact t.agree_saveIfDue now

theorem shot?_congr {t : Session} (h : Alike s t) (now : Instant) (e : Event) (result : Session) :
    s.shot? now e result = t.shot? now e result := by
  unfold shot?
  rw [h.zone, h.mood, h.steps]

theorem Acts.snapshots {e : Event} (h : s.Acts now e s') :
    Agree (afterShot s.folder (s.shot? now e s')) s'.folder := by
  cases h
  case draws hd =>
    have ha := draw_snapshots hd
    exact ha
  all_goals exact .refl _

theorem Acts.zone_eq {e : Event} (h : s.Acts now e s') : s'.zone = s.zone := by
  cases h
  case draws hd =>
    obtain ⟨_, _, _, _, _, rfl⟩ := draw_eq_ok hd
    rfl
  all_goals rfl

theorem zone_tick {e : Event} (h : s.tick now = .ok (s', e)) : s'.zone = s.zone :=
  (acts_tick h).zone_eq.trans (s.alike_advance now).zone.symm

theorem shot?_eq_some {e : Event} {a : Shot} (h : s.shot? now e s' = some a) :
    ∃ c r, e = .drew c ∧ c.archived = some r ∧
      a = ⟨r, s'.canvas, s.mood, s.steps, s.zone.localTime now⟩ := by
  unfold shot? at h
  split at h
  case h_1 c =>
    obtain ⟨r, hr, rfl⟩ := Option.map_eq_some_iff.mp h
    exact ⟨c, r, rfl, hr, rfl⟩
  case h_2 => contradiction

theorem tick_snapshots {e : Event} (h : s.tick now = .ok (s', e)) :
    ∃ f, Agree s.folder f ∧ Agree (afterShot f (s.shot? now e s')) s'.folder := by
  have ha := s.alike_advance now
  refine ⟨(s.advance now).folder, ha.folder, ?_⟩
  rw [shot?_congr ha]
  exact (acts_tick h).snapshots

end Atelier.Session
