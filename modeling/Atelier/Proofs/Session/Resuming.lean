import Atelier.Proofs.Session.Course
import Atelier.Proofs.Session.Opening
import Atelier.Proofs.Store.Loading

/-!
Saved sessions: one that is loaded from the data folder goes on where the saved one stood.
-/

namespace Atelier

theorem Mood.place_of_word : ∀ c ∈ Category.all, ∀ d ≤ maxDepth,
    (ofWord (c.words[d]?.getD "")).category = c ∧ (ofWord (c.words[d]?.getD "")).depth = d := by
  decide +kernel

theorem Mood.place_ofWord_word {m : Mood} (h : m.depth ≤ maxDepth) :
    (ofWord m.word).category = m.category ∧ (ofWord m.word).depth = m.depth :=
  place_of_word m.category m.category.mem_all m.depth h

deriving instance DecidableEq for SavedState

namespace Session

variable {s s' t : Session} {screen : Size} {now : Instant}

-- The documents of a save are read as they were written, the scale included.
structure ReadsBack (s : Session) (now : Instant) : Prop where
  state : (Json.read (s.savedState now).toJson.pretty).bind SavedState.ofJson? = some (s.savedState now)
  codes : (Json.read (Json.ofList CodeMemory.toJson s.memory.codes.items).pretty).bind
    (Json.list? CodeMemory.ofJson?) = some s.memory.codes.items
  dreams : (Json.read (Json.ofList Dream.toJson s.memory.dreams.items).pretty).bind
    (Json.list? Dream.ofJson?) = some s.memory.dreams.items

-- A session that goes on where another one stood. The source of the spray is the only part of the canvas
-- that may be another one.
structure Resumes (t s : Session) : Prop where
  canvas : ∃ spray, t.canvas = { s.canvas with spray := spray }
  steps : t.steps = s.steps
  skips : t.skips = s.skips
  lastTurnColor : t.lastTurnColor = s.lastTurnColor
  pace : t.studio.speed.pace = s.studio.speed.pace
  category : t.mood.category = s.mood.category
  depth : t.mood.depth = s.mood.depth
  mode : t.schedule.mode = s.schedule.mode
  modeStart : t.schedule.modeStart = s.schedule.modeStart
  phaseStart : t.schedule.phaseStart = s.schedule.phaseStart
  lastCheckIn : t.schedule.lastCheckIn = s.schedule.lastCheckIn
  codes : t.memory.codes = s.memory.codes
  dreams : t.memory.dreams = s.memory.dreams

theorem exists_save_of_ready (h : s.InOrder screen) (hf : Store.Ready s.folder) (now : Instant) :
    ∃ s', s.save now = (.ok (), s') := by
  have ⟨hw, hh, _, _⟩ := h.canvas.sound.raster
  have hs : Saving.Achieves (Store.save s.canvas.raster (s.savedState now) s.memory.dreams.items
    s.memory.codes.items) Store.Ready Store.Ready := Store.achieves_save hw hh
  have ⟨_, g, hg, _⟩ := hs s.folder hf
  rw [save_eq, perform, hg]
  exact ⟨_, rfl⟩

-- What the data folder gives back after a save.
structure Gives (f : Folder) (s : Session) (now : Instant) : Prop where
  canvas : Store.loadCanvas? f = some s.canvas.raster
  state : Store.loadState? f = some (s.savedState now)
  codes : Store.loadCodes f = s.memory.codes.items
  dreams : Store.loadDreams f = s.memory.dreams.items

theorem gives_of_save (h : s.save now = (.ok (), s')) (ho : s.InOrder screen) (hr : s.ReadsBack now) :
    Gives s'.folder s now := by
  rw [save_eq, perform] at h
  split at h
  all_goals cases h
  case h_1 g hg =>
    constructor
    case canvas => rw [Store.loadCanvas?, Folder.picture?, Store.puts_canvas _ _ _ hg]
    case state => exact Store.loadState?_of_save hg hr.state
    case codes => rw [Store.loadCodes_of_save hg hr.codes, lastOf_of_length_le ho.codes.right]
    case dreams => exact Store.loadDreams_of_save hg hr.dreams

theorem resumeState_eq_ok {stored : SavedState} {c c' : Canvas}
    (hr : s.canvas.rescale s.canvas.screen stored.scale = .ok c)
    (hc : c.restore (Store.loadCanvas? s.folder) stored.cursor stored.colors = .ok c') :
    s.resumeState stored = .ok { s with
      studio := { s.studio with canvas := c', speed := .ofPace stored.pace }
      mood := .ofWord stored.emotion
      steps := stored.steps
      skips := stored.skips
      lastTurnColor := stored.lastTurnColor
      schedule := .restore s.schedule.routine stored.schedule } := by
  unfold resumeState
  rw [hr, Checked.ok_bind, hc, Checked.ok_bind]
  rfl

theorem exists_load_of_gives {settings : Settings} (hm : settings.IsModest) {f : Folder}
    (hg : Gives f s now) (hs : s.InOrder settings.usableScreen) (model : Model) (random : Random)
    (spray : Spray) (now' : Instant) (zone : Zone) :
    ∃ t, load settings model f random spray now' zone = .ok t ∧ t.Resumes s := by
  have ⟨s₀, h₀, ho, hf⟩ := exists_start hm model f random spray now' zone
  have ⟨spray', hc⟩ := hs.canvas.restore ho.canvas hm.usableScreen
  obtain ⟨c₁, hr, hc⟩ := Checked.bind_eq_ok_iff.mp hc
  rw [← s₀.canvas_resumeMemory] at hr
  rw [← hg.canvas, ← hf, ← s₀.folder_resumeMemory] at hc
  have hl : s₀.resumeMemory.resumeState (s.savedState now) = .ok _ := resumeState_eq_ok hr hc
  have ⟨hcat, hdep⟩ := Mood.place_ofWord_word hs.depth
  simp only [load, h₀, Checked.ok_bind, resume, folder_resumeMemory, hf, hg.state, hl]
  refine ⟨_, rfl, ?_⟩
  exact {
    canvas := ⟨spray', rfl⟩
    steps := rfl
    skips := rfl
    lastTurnColor := rfl
    pace := rfl
    category := hcat
    depth := hdep
    mode := Schedule.mode_restore_snapshot _ _
    modeStart := rfl
    phaseStart := rfl
    lastCheckIn := rfl
    codes := by
      simp only [resumeMemory, Memory.restore, hf, hg.codes]
      exact History.ofList_items hs.codes
    dreams := by
      simp only [resumeMemory, Memory.restore, hf, hg.dreams]
      exact History.ofList_items hs.dreams
  }

-- Whatever is done with a session, its canvas keeps the size that its scale leaves on the screen. So the
-- saved picture is not moved when it is loaded again, and the loaded session goes on where the saved one
-- stood.
theorem resumes_after_save {settings : Settings} (hm : settings.IsModest) (model : Model) (folder : Folder)
    (random : Random) (spray : Spray) (begun : Instant) (zone : Zone) :
    ∃ s₀, start settings model folder random spray begun zone = .ok s₀ ∧
      ∀ us s, s₀.used us = .ok s →
        Canvas.dims settings.usableScreen s.canvas.scale = .ok s.canvas.raster.size ∧
        ∀ now, (Store.Ready folder → ∃ s', s.save now = (.ok (), s')) ∧
          ∀ s', s.save now = (.ok (), s') → s.ReadsBack now →
            ∀ model random spray later zone,
              ∃ t, load settings model s'.folder random spray later zone = .ok t ∧ t.Resumes s := by
  have ⟨s₀, h₀, ho, hf⟩ := exists_start hm model folder random spray begun zone
  refine ⟨s₀, h₀, fun us s hu => ?_⟩
  have hk := keeps_used hu
  have hs := ho.of_keeps hm.usableScreen hk
  refine ⟨hs.canvas.dims_eq, fun now => ⟨fun hr => ?ready, fun s' hw hr model random spray later zone => ?load⟩⟩
  case ready => exact exists_save_of_ready hs (hk.folder _ (hf ▸ hr)) now
  case load => exact exists_load_of_gives hm (gives_of_save hw hs hr) hs model random spray later zone

theorem readsBack_iff : s.ReadsBack now ↔
    (Json.readChars ((s.savedState now).toJson.prettyAt 0)).bind SavedState.ofJson? =
      some (s.savedState now) ∧
    (Json.readChars ((Json.ofList CodeMemory.toJson s.memory.codes.items).prettyAt 0)).bind
      (Json.list? CodeMemory.ofJson?) = some s.memory.codes.items ∧
    (Json.readChars ((Json.ofList Dream.toJson s.memory.dreams.items).prettyAt 0)).bind
      (Json.list? Dream.ofJson?) = some s.memory.dreams.items := by
  have hr (v : Json) : Json.readChars (v.prettyAt 0) = Json.read v.pretty := by
    rw [Json.read, Json.pretty, String.toList_ofList]
  simp only [hr]
  constructor
  · rintro ⟨hs, hc, hd⟩
    exact ⟨hs, hc, hd⟩
  · rintro ⟨hs, hc, hd⟩
    exact ⟨hs, hc, hd⟩

-- Documents are compared as lists of characters, which is much faster than as texts.
instance : Decidable (s.ReadsBack now) :=
  decidable_of_iff _ readsBack_iff.symm

theorem isModest_smallScreen : smallScreen.IsModest :=
  ⟨by decide, by decide, by decide, by decide, by decide⟩

def dreamer : Model :=
  .ofSource (.scripted [.ok "red5533zoom_out222", .ok "dream", .ok "A blue field.", .ok "draw"])

-- A drawing on a canvas that becomes smaller, and a rest with one dream.
def nap : List Use :=
  [.tick ⟨0, 0⟩, .toggleTurbo, .snapshot ⟨1, 0⟩, .tick ⟨2700, 0⟩, .tick ⟨2701, 0⟩, .nextDelay,
    .tick ⟨6301, 0⟩]

def napped : Checked Session := do
  let s ← start smallScreen dreamer .empty (.ofSeed 0) (.seeded (.ofSeed 0)) ⟨0, 0⟩
  s.used nap

theorem resumes_after_nap :
    ∃ s₀ s s' t, start smallScreen dreamer .empty (.ofSeed 0) (.seeded (.ofSeed 0)) ⟨0, 0⟩ = .ok s₀ ∧
      s₀.used nap = .ok s ∧ s.canvas.scale = 1.25 ∧ s.memory.codes.length = 1 ∧
      s.memory.dreams.length = 1 ∧ s.ReadsBack ⟨6302, 0⟩ ∧ s.save ⟨6302, 0⟩ = (.ok (), s') ∧
      load smallScreen dreamer s'.folder (.ofSeed 1) (.seeded (.ofSeed 1)) ⟨9000, 0⟩ = .ok t ∧
      t.Resumes s := by
  have hd : napped.toOption.any fun s =>
      s.canvas.scale = 1.25 ∧ s.memory.codes.length = 1 ∧ s.memory.dreams.length = 1 ∧
        s.ReadsBack ⟨6302, 0⟩ := by
    decide +kernel
  have ⟨s₀, h₀, hs⟩ := resumes_after_save isModest_smallScreen dreamer .empty (.ofSeed 0)
    (.seeded (.ofSeed 0)) ⟨0, 0⟩ .utc
  cases hn : napped
  case error =>
    rw [hn] at hd
    contradiction
  case ok s =>
    rw [hn] at hd
    obtain ⟨hscale, hcodes, hdreams, hr⟩ := of_decide_eq_true hd
    rw [napped, h₀, Checked.ok_bind] at hn
    obtain ⟨_, hs⟩ := hs nap s hn
    obtain ⟨hready, hload⟩ := hs ⟨6302, 0⟩
    obtain ⟨s', hw⟩ := hready (Folder.isReady_empty _)
    obtain ⟨t, ht, hres⟩ := hload s' hw hr dreamer (.ofSeed 1) (.seeded (.ofSeed 1)) ⟨9000, 0⟩ .utc
    exact ⟨s₀, s, s', t, h₀, hn, hscale, hcodes, hdreams, hr, hw, ht, hres⟩

end Session

end Atelier
