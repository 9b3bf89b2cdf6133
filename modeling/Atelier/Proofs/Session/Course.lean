import Atelier.Proofs.Canvas.Fitted
import Atelier.Proofs.History
import Atelier.Proofs.Session.Shots
import Atelier.Proofs.Settings.Routine

/-!
The course of a session: from its start on, its canvas fills the screen, its mood has a word, and its
histories are not longer than they may be. Whatever is done with the session keeps it so.
-/

namespace Atelier

open Saving

namespace Session

-- What is kept by everything that is done with a session.
structure Keeps (s t : Session) : Prop where
  canvas : s.canvas.Drawn t.canvas
  depth : s.mood.depth ≤ Mood.maxDepth → t.mood.depth ≤ Mood.maxDepth
  codes : s.memory.codes.IsCapped Memory.codeLimit → t.memory.codes.IsCapped Memory.codeLimit
  dreams : s.memory.dreams.IsCapped Memory.dreamLimit → t.memory.dreams.IsCapped Memory.dreamLimit
  folder : ∀ d, s.folder.IsReady d → t.folder.IsReady d

variable {s t u s' : Session} {now : Instant} {c : Cycle}

theorem Keeps.refl (s : Session) : Keeps s s :=
  ⟨.refl _, id, id, id, fun _ => id⟩

theorem Keeps.trans (h₁ : Keeps s t) (h₂ : Keeps t u) : Keeps s u where
  canvas := h₁.canvas.trans h₂.canvas
  depth h := h₂.depth (h₁.depth h)
  codes h := h₂.codes (h₁.codes h)
  dreams h := h₂.dreams (h₁.dreams h)
  folder d h := h₂.folder d (h₁.folder d h)

theorem keeps_perform {work : Saving α} (hw : ∀ d, Preserves work (·.IsReady d)) :
    Keeps s (s.perform work).2 := by
  rw [perform_eq]
  exact { Keeps.refl s with folder := fun d => hw d s.folder }

theorem keeps_save (s : Session) (now : Instant) : Keeps s (s.save now).2 :=
  keeps_perform fun _ => Store.isReady_save

theorem keeps_snapshot (s : Session) (now : Instant) : Keeps s (s.snapshot now).2 :=
  keeps_perform fun _ => Snapshot.isReady_write

theorem keeps_saveIfDue (s : Session) (now : Instant) : Keeps s (s.saveIfDue now) := by
  unfold saveIfDue
  split
  case isTrue => exact s.keeps_save now
  case isFalse => exact .refl s

theorem keeps_influence (s : Session) (i : Influence) (amount : Float) : Keeps s (s.influence i amount) :=
  { Keeps.refl s with depth := id }

theorem keeps_foldl_influence (s : Session) (ts : List α) (i : Influence) (amount : α → Float) :
    Keeps s (ts.foldl (fun s t => s.influence i (amount t)) s) := by
  induction ts generalizing s
  case nil => exact .refl s
  case cons t ts ih => exact (s.keeps_influence i (amount t)).trans (ih _)

/-! Changes of mode -/

theorem keeps_retain (s : Session) (random : Random) :
    Keeps s { s with memory := (s.memory.retain s.retention random).1 } :=
  { Keeps.refl s with codes := id, dreams := fun h => h.extend _ }

theorem keeps_follow (s : Session) (t : Transition) : Keeps s (s.follow t) := by
  cases t
  case restEnded =>
    apply Keeps.trans ?_ (keeps_perform fun _ => Store.isReady_saveMemories)
    exact { s.keeps_retain s.studio.random with }
  case chatEnded => exact { Keeps.refl s with }
  all_goals exact .refl s

theorem keeps_advance (s : Session) (now : Instant) : Keeps s (s.advance now) := by
  unfold advance
  generalize s.schedule.poll now = p
  have ⟨schedule, transition⟩ := p
  have hs : Keeps s { s with schedule := schedule } := { Keeps.refl s with }
  cases transition
  case none => exact hs
  case some t => exact hs.trans (keeps_follow _ t)

/-! Turns -/

theorem keeps_archive (s : Session) (c : Cycle) (now : Instant) : Keeps s (s.archive c now) := by
  unfold archive
  split
  case h_1 => exact keeps_perform fun _ => Snapshot.isReady_write
  case h_2 => exact .refl s

theorem keeps_countSkip (h : s.countSkip c = .ok s') : Keeps s s' := by
  cases countSkip_eq_ok h
  exact { Keeps.refl s with }

theorem keeps_regard (s : Session) (c : Cycle) : Keeps s (s.regard c) := by
  unfold regard
  split
  case h_1 => exact s.keeps_influence ..
  case h_2 => exact .refl s

theorem keeps_remember (s : Session) (c : Cycle) (now : Instant) : Keeps s (s.remember c now) := by
  unfold remember
  split
  case isTrue =>
    have hm : Keeps s { s with memory := s.memory.rememberCode (s.codeMemory c now) } :=
      { Keeps.refl s with codes := fun h => h.push _, dreams := id }
    exact (hm.trans (keeps_influence ..)).trans
      (keeps_foldl_influence _ c.marks.tones .music fun t => Impression.ofTone t.pitch)
  case isFalse => exact .refl s

theorem keeps_endTurn {before : Cursor} (h : s.endTurn before = .ok s') : Keeps s s' := by
  obtain ⟨_, rfl⟩ := endTurn_eq_ok h
  exact { Keeps.refl s with }

theorem keeps_reconsider (s : Session) : Keeps s s.reconsider := by
  unfold reconsider
  split
  case isTrue => exact { Keeps.refl s with depth := Mood.depth_evaluate_le }
  case isFalse => exact .refl s

theorem keeps_draw {raw : String} (h : s.draw raw now = .ok (s', c)) : Keeps s s' := by
  simp only [draw, Checked.bind_eq_ok_iff, Checked.pure_eq_ok_iff, Prod.mk.injEq] at h
  obtain ⟨⟨studio, c⟩, hr, s₂, hs, s₃, he, rfl, _⟩ := h
  have hk : Keeps s { s with studio := studio } := { Keeps.refl s with canvas := Studio.drawn_run hr }
  have hk := (hk.trans (keeps_archive _ c now)).trans (keeps_countSkip hs)
  have hk := (hk.trans (s₂.keeps_regard c)).trans (keeps_remember _ c now)
  have hk := (hk.trans (keeps_endTurn he)).trans s₃.keeps_reconsider
  exact hk.trans (keeps_saveIfDue _ now)

theorem keeps_asked (s : Session) (r : Request) : Keeps s (s.asked r) :=
  { Keeps.refl s with }

theorem Acts.keeps {e : Event} (h : s.Acts now e s') : Keeps s s' := by
  cases h
  case waits => exact .refl s
  case fails => exact s.keeps_asked _
  case draws hd => exact (s.keeps_asked _).trans (keeps_draw hd)
  case chooses text _ _ =>
    exact { Keeps.refl s with
      codes := fun h => (s.codes_memoryAfter text now).symm ▸ h
      dreams := fun h => (s.dreams_memoryAfter text now).symm ▸ h }
  case chats => exact { Keeps.refl s with depth := id }
  case dozes => exact s.keeps_asked _
  case dreams =>
    refine { Keeps.refl s with depth := fun h => ?_, codes := id, dreams := id }
    simp only
    split <;> exact h

theorem keeps_tick {e : Event} (h : s.tick now = .ok (s', e)) : Keeps s s' :=
  (s.keeps_advance now).trans (acts_tick h).keeps

/-! Everything else -/

-- What is done with a session while it runs.
inductive Use
  | tick (now : Instant)
  | save (now : Instant)
  | snapshot (now : Instant)
  | toggleTurbo
  | nextDelay

def Use.take (s : Session) : Use → Checked Session
  | tick now => do
    let (s, _) ← s.tick now
    return s
  | save now => return (s.save now).2
  | snapshot now => return (s.snapshot now).2
  | toggleTurbo => return s.toggleTurbo
  | nextDelay => return s.nextDelay.2

def used (s : Session) (us : List Use) : Checked Session :=
  us.foldlM Use.take s

theorem keeps_take {use : Use} (h : use.take s = .ok s') : Keeps s s' := by
  cases use
  case tick now =>
    obtain ⟨⟨s₁, e⟩, ht, h⟩ := Checked.bind_eq_ok_iff.mp h
    cases h
    exact keeps_tick ht
  all_goals cases h
  case save now => exact s.keeps_save now
  case snapshot now => exact s.keeps_snapshot now
  case toggleTurbo => exact { Keeps.refl s with }
  case nextDelay => exact { Keeps.refl s with }

theorem keeps_used {us : List Use} (h : s.used us = .ok s') : Keeps s s' := by
  induction us generalizing s
  case nil =>
    cases h
    exact .refl _
  case cons use us ih =>
    rw [used, List.foldlM_cons] at h
    obtain ⟨s₁, ht, h⟩ := Checked.bind_eq_ok_iff.mp h
    exact (keeps_take ht).trans (ih h)

-- What the loading of a saved session relies on.
structure InOrder (s : Session) (screen : Size) : Prop where
  canvas : s.canvas.Fitted screen
  depth : s.mood.depth ≤ Mood.maxDepth
  codes : s.memory.codes.IsCapped Memory.codeLimit
  dreams : s.memory.dreams.IsCapped Memory.dreamLimit

theorem InOrder.of_keeps {screen : Size} (h : s.InOrder screen) (hs : screen.IsShort) (hk : Keeps s t) :
    t.InOrder screen where
  canvas := h.canvas.drawn hs hk.canvas
  depth := hk.depth h.depth
  codes := hk.codes h.codes
  dreams := hk.dreams h.dreams

end Session

/-! Starts -/

-- Settings with a screen and spans of time that are not too long.
structure Settings.IsModest (s : Settings) : Prop where
  screen : s.screen.IsShort
  checkInInterval : s.checkInInterval ≤ 2 ^ 30
  breakDuration : s.breakDuration ≤ 2 ^ 30
  restDuration : s.restDuration ≤ 2 ^ 30
  chatFollowUp : s.chatFollowUp ≤ 2 ^ 30

theorem Settings.IsModest.hasSpans {settings : Settings} (h : settings.IsModest) :
    settings.HasSpans := by
  have ⟨_, hi, hb, hr, hf⟩ := h
  constructor <;> unfold Span.maxSeconds <;> omega

theorem Settings.IsModest.exists_routine {settings : Settings} (h : settings.IsModest) :
    ∃ r, settings.routine = .ok r :=
  ⟨_, h.hasSpans.routine_eq⟩

theorem Settings.IsModest.usableScreen {settings : Settings} (h : settings.IsModest) :
    settings.usableScreen.IsShort :=
  h.screen.max_one

theorem Session.exists_start_of_routine {settings : Settings} {routine : Routine}
    (hs : settings.usableScreen.IsShort) (hr : settings.routine = .ok routine) (model : Model)
    (folder : Folder) (random : Random) (spray : Spray) (now : Instant) (zone : Zone) :
    ∃ s, start settings model folder random spray now zone = .ok s ∧ s.InOrder settings.usableScreen ∧
      s.folder = folder ∧ s.schedule = .start routine now := by
  have ⟨c, hc, hf⟩ := Canvas.exists_ofScreen_fitted hs Canvas.minScale spray
  simp only [start, hc, hr, Checked.ok_bind]
  refine ⟨_, rfl, ?_, rfl, rfl⟩
  exact {
    canvas := hf
    depth := (by decide : Mood.initial.depth ≤ Mood.maxDepth)
    codes := History.isCapped_empty _
    dreams := History.isCapped_empty _
  }

theorem Session.exists_start {settings : Settings} (h : settings.IsModest) (model : Model)
    (folder : Folder) (random : Random) (spray : Spray) (now : Instant) (zone : Zone) :
    ∃ s, start settings model folder random spray now zone = .ok s ∧ s.InOrder settings.usableScreen ∧
      s.folder = folder := by
  have ⟨_, hr⟩ := h.exists_routine
  have ⟨s, h₀, ho, hf, _⟩ := exists_start_of_routine h.usableScreen hr model folder random spray now zone
  exact ⟨s, h₀, ho, hf⟩

end Atelier
