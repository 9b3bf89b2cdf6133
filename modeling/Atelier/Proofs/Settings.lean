import Atelier.Proofs.Settings.Partial

/-!
Settings and the texts of their documents: a text that states some of the fields gives settings with these,
and the text that is written for settings states all of them.
-/

namespace Atelier

open Json

/-! Retention -/

namespace Retention

-- A share must be a number that its literal leads back to.
def IsStorable : Retention → Prop
  | retainAll => True
  | fraction share => (ofFloat share).float? = some share

@[simp]
theorem isWritten_toJson (r : Retention) : r.toJson.IsWritten := by
  cases r <;> exact isWritten_object (by simp)

theorem isStatedBy_toJson {r : Retention} (h : r.IsStorable) : r.IsStatedBy r.toJson := by
  cases r
  case retainAll => exact .retainAll (members?_object _) (text?_ofString "retain_all")
  case fraction share => exact .fraction (members?_object _) (.refl _) (text?_ofString "fraction") h

end Retention

namespace ModelSettings

structure IsStorable (s : ModelSettings) : Prop where
  requestTimeout : s.requestTimeout < 18446744073709551616

@[simp]
theorem isWritten_toJson (s : ModelSettings) : s.toJson.IsWritten :=
  isWritten_object (by simp)

-- All of the fields, as they are written.
def whole (s : ModelSettings) : Partial :=
  ⟨s.backend, s.endpoint, s.requestTimeout⟩

theorem isStatedBy_whole {s : ModelSettings} (h : s.IsStorable) :
    ∃ ms, s.toJson.members? = some ms ∧ s.whole.IsStatedBy ms := by
  refine ⟨_, members?_object _, ?_⟩
  exact {
    backend := .of_nodup (by simp) (by simp) (text?_ofString s.backend.name)
    endpoint := .of_nodup (by simp) (by simp) (text?_ofString s.endpoint)
    requestTimeout := .of_nodup (by simp) (by simp) ⟨h.requestTimeout, rfl⟩
  }

end ModelSettings

/-! Blank texts -/

namespace Text

theorem trimChars_eq_nil_iff {cs : List Char} : trimChars cs = [] ↔ ∀ c ∈ cs, isBlank c = true := by
  rw [trimChars, List.reverse_eq_nil_iff, List.dropWhile_eq_nil_iff]
  simp only [List.mem_reverse]
  refine ⟨fun h c hc => ?_, fun h c hc => h c ((List.dropWhile_sublist _).mem hc)⟩
  rw [← List.takeWhile_append_dropWhile (p := isBlank) (l := cs), List.mem_append] at hc
  exact hc.elim List.mem_takeWhile_imp (h c)

theorem isEmpty_trim_iff {s : String} : (trim s).isEmpty = true ↔ ∀ c ∈ s.toList, isBlank c = true := by
  rw [← trimChars_eq_nil_iff, trim, String.isEmpty_iff, String.ofList_eq_empty_iff]

end Text

namespace Settings

structure IsStorable (s : Settings) : Prop where
  model : s.model.IsStorable
  width : s.screen.width < 4294967296
  height : s.screen.height < 4294967296
  checkInInterval : s.checkInInterval < 18446744073709551616
  breakDuration : s.breakDuration < 18446744073709551616
  restDuration : s.restDuration < 18446744073709551616
  chatFollowUp : s.chatFollowUp < 18446744073709551616
  maxChoiceRetries : s.maxChoiceRetries < 4294967296
  fixedDelay : ∀ d ∈ s.fixedDelay, d < 18446744073709551616
  saveEverySteps : s.saveEverySteps < 18446744073709551616
  retention : s.retention.IsStorable

@[simp]
theorem isWritten_toJson (s : Settings) : s.toJson.IsWritten :=
  isWritten_object (by simp [isWritten_ofOption])

def whole (s : Settings) : Partial where
  debugLogging := s.debugLogging
  dataDir := s.dataDir
  model := s.model.whole
  screenWidth := s.screen.width
  screenHeight := s.screen.height
  fullscreen := s.fullscreen
  checkInInterval := s.checkInInterval
  breakDuration := s.breakDuration
  restDuration := s.restDuration
  chatFollowUp := s.chatFollowUp
  maxChoiceRetries := s.maxChoiceRetries
  fixedDelay := some s.fixedDelay
  saveEverySteps := s.saveEverySteps
  retention := s.retention
  soundEnabled := s.soundEnabled

theorem filled_whole (s : Settings) : s.whole.filled = s :=
  rfl

theorem isStatedDelay_ofOption {o : Option Nat} (h : ∀ d ∈ o, d < 18446744073709551616) :
    Partial.IsStatedDelay o (ofOption Json.ofNat o) := by
  cases o
  case none => rfl
  case some d => exact ⟨h d rfl, rfl⟩

theorem isStatedBy_whole {s : Settings} (h : s.IsStorable) :
    ∃ ms, s.toJson.members? = some ms ∧ s.whole.IsStatedBy ms := by
  refine ⟨_, members?_object _, ?_⟩
  exact {
    debugLogging := .of_nodup (by simp) (by simp) rfl
    dataDir := .of_nodup (by simp) (by simp) (text?_ofString s.dataDir.text)
    model := .of_nodup (by simp) (by simp) (ModelSettings.isStatedBy_whole h.model)
    screenWidth := .of_nodup (by simp) (by simp) ⟨h.width, rfl⟩
    screenHeight := .of_nodup (by simp) (by simp) ⟨h.height, rfl⟩
    fullscreen := .of_nodup (by simp) (by simp) rfl
    checkInInterval := .of_nodup (by simp) (by simp) ⟨h.checkInInterval, rfl⟩
    breakDuration := .of_nodup (by simp) (by simp) ⟨h.breakDuration, rfl⟩
    restDuration := .of_nodup (by simp) (by simp) ⟨h.restDuration, rfl⟩
    chatFollowUp := .of_nodup (by simp) (by simp) ⟨h.chatFollowUp, rfl⟩
    maxChoiceRetries := .of_nodup (by simp) (by simp) ⟨h.maxChoiceRetries, rfl⟩
    fixedDelay := .of_nodup (by simp) (by simp) (isStatedDelay_ofOption h.fixedDelay)
    saveEverySteps := .of_nodup (by simp) (by simp) ⟨h.saveEverySteps, rfl⟩
    retention := .of_nodup (by simp) (by simp) (Retention.isStatedBy_toJson h.retention)
    soundEnabled := .of_nodup (by simp) (by simp) rfl
  }

/-! Texts -/

theorem load?_of_isBlank {s : String} (h : ∀ c ∈ s.toList, Text.isBlank c = true) :
    load? (some s) = some standard := by
  rw [load?, Option.getD_some, if_pos (Text.isEmpty_trim_iff.mpr h)]

-- A document is not blank, as it has a bracket.
theorem load?_of_isTextOf {p : Partial} {ms : List (String × Json)} {v : Json} {s : String}
    (hs : IsTextOf s v) (hv : v.members? = some ms) (hp : p.IsStatedBy ms) :
    load? (some s) = some p.filled := by
  have hb : ¬(Text.trim s).isEmpty = true := by
    obtain ⟨raw, rfl⟩ := exists_obj_of_members? hv
    have ⟨_, hs, _⟩ := hs
    intro h
    have := Text.isEmpty_trim_iff.mp h _ hs.mem_of_obj
    contradiction
  rw [load?, Option.getD_some, if_neg hb, hs.read_eq, Option.bind_some, hp.ofJson?_eq hv]

theorem load?_text {s : Settings} (h : s.IsStorable) : load? (some s.text) = some s := by
  have ⟨ms, hv, hp⟩ := isStatedBy_whole h
  rw [text, load?_of_isTextOf (isTextOf_pretty (isWritten_toJson s)) hv hp, filled_whole]

theorem documents_fill_in :
    (∀ (p : Partial) (ms : List (String × Json)) (v : Json) (s : String),
      IsTextOf s v → v.members? = some ms → p.IsStatedBy ms → load? (some s) = some p.filled) ∧
    load? none = some standard ∧
    ∀ s : String, (∀ c ∈ s.toList, Text.isBlank c = true) → load? (some s) = some standard :=
  ⟨fun _ _ _ _ => load?_of_isTextOf, load?_of_isBlank (s := "") nofun, fun _ => load?_of_isBlank⟩

-- Two fields and a part of a third, out of order and among others that mean nothing.
def scatteredModel : List (String × Json) :=
  [("sound_enabled", arr []), ("backend", ofString "demo")]

def scatteredMembers : List (String × Json) :=
  [("sound_enabled", bool false),
    ("notes", arr [null, object [("model", ofInt (-1))], ofString "\x7b]"]),
    ("model", object scatteredModel),
    ("screen_height", ofNat 600)]

def scattered : Partial where
  model := some { backend := some .demo }
  screenHeight := some 600
  soundEnabled := some false

theorem isStatedBy_scatteredModel :
    ModelSettings.Partial.IsStatedBy { backend := some .demo } scatteredModel where
  backend := .of_nodup (by simp [scatteredModel]) (by simp [scatteredModel]) (text?_ofString "demo")
  endpoint := .of_notMem (by simp [scatteredModel])
  requestTimeout := .of_notMem (by simp [scatteredModel])

theorem nodup_scattered : (scatteredMembers.map (·.1)).Nodup := by
  simp [scatteredMembers]

theorem isStatedBy_scattered : scattered.IsStatedBy scatteredMembers where
  debugLogging := .of_notMem (by simp [scatteredMembers])
  dataDir := .of_notMem (by simp [scatteredMembers])
  model := .of_nodup nodup_scattered (by simp [scatteredMembers])
    ⟨_, members?_object scatteredModel, isStatedBy_scatteredModel⟩
  screenWidth := .of_notMem (by simp [scatteredMembers])
  screenHeight := .of_nodup nodup_scattered (by simp [scatteredMembers]) ⟨by decide, rfl⟩
  fullscreen := .of_notMem (by simp [scatteredMembers])
  checkInInterval := .of_notMem (by simp [scatteredMembers])
  breakDuration := .of_notMem (by simp [scatteredMembers])
  restDuration := .of_notMem (by simp [scatteredMembers])
  chatFollowUp := .of_notMem (by simp [scatteredMembers])
  maxChoiceRetries := .of_notMem (by simp [scatteredMembers])
  fixedDelay := .of_notMem (by simp [scatteredMembers])
  saveEverySteps := .of_notMem (by simp [scatteredMembers])
  retention := .of_notMem (by simp [scatteredMembers])
  soundEnabled := .of_nodup nodup_scattered (by simp [scatteredMembers]) rfl

theorem isTextOf_scattered :
    IsTextOf (object scatteredMembers).pretty (object scatteredMembers) := by
  have hn : (arr [null, object [("model", ofInt (-1))], ofString "\x7b]"]).IsWritten :=
    .arr (by simp [IsWritten.null, isWritten_object])
  exact isTextOf_pretty (isWritten_object (by
    simp [scatteredMembers, scatteredModel, isWritten_object, IsWritten.arr, hn]))

theorem documents_fill_in_scattered :
    IsTextOf (object scatteredMembers).pretty (object scatteredMembers) ∧
    (object scatteredMembers).members? = some scatteredMembers ∧
    scattered.IsStatedBy scatteredMembers ∧
    load? (some (object scatteredMembers).pretty) = some { standard with
      model := { ModelSettings.standard with backend := .demo }
      screen := ⟨1920, 600⟩
      soundEnabled := false } ∧
    (∀ c ∈ " \n".toList, Text.isBlank c = true) ∧
    load? (some " \n") = some standard := by
  have ⟨hfill, _, hblank⟩ := documents_fill_in
  have hm := members?_object scatteredMembers
  have hb : ∀ c ∈ " \n".toList, Text.isBlank c = true := by simp [Text.isBlank, Text.blanks]
  exact ⟨isTextOf_scattered, hm, isStatedBy_scattered,
    hfill _ _ _ _ isTextOf_scattered hm isStatedBy_scattered, hb, hblank _ hb⟩

end Settings

end Atelier
