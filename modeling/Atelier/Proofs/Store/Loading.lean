import Atelier.Proofs.Document.State
import Atelier.Proofs.Settings
import Atelier.Proofs.Store.Saved

/-!
What is saved is loaded again: the documents read back from their texts, and so from the data folder.
-/

namespace Atelier

open Json

theorem SavedState.read_document {s : SavedState} (h : s.IsStorable) :
    (read s.toJson.pretty).bind ofJson? = some s := by
  rw [read_pretty (isWritten_toJson s), Option.bind_some, ofJson?_toJson h]

theorem CodeMemory.read_document {ms : List CodeMemory} (h : ∀ m ∈ ms, m.IsStorable) :
    (read (ofList toJson ms).pretty).bind (list? ofJson?) = some ms :=
  read_ofList isWritten_toJson fun m hm => ofJson?_toJson (h m hm)

theorem Dream.read_document {ds : List Dream} (h : ∀ d ∈ ds, d.IsStorable) :
    (read (ofList toJson ds).pretty).bind (list? ofJson?) = some ds :=
  read_ofList isWritten_toJson fun d hd => ofJson?_toJson (h d hd)

-- The ranges of the numbers and of the times are those of their types. Of numbers with a fraction it is
-- taken for granted that they have a literal, and that the literal leads back to them.
theorem documents_read_back :
    (∀ s : SavedState, s.IsStorable →
      (read s.toJson.pretty).bind SavedState.ofJson? = some s) ∧
    (∀ ms : List CodeMemory, (∀ m ∈ ms, m.IsStorable) →
      (read (ofList CodeMemory.toJson ms).pretty).bind (list? CodeMemory.ofJson?) = some ms) ∧
    (∀ ds : List Dream, (∀ d ∈ ds, d.IsStorable) →
      (read (ofList Dream.toJson ds).pretty).bind (list? Dream.ofJson?) = some ds) ∧
    ∀ s : Settings, s.IsStorable → Settings.load? (some s.text) = some s :=
  ⟨fun _ => SavedState.read_document, fun _ => CodeMemory.read_document,
    fun _ => Dream.read_document, fun _ => Settings.load?_text⟩

/-! Odd values -/

-- A second that was inserted into the calendar, and years that do not have four digits.
def inserted : Instant := ⟨1483228799, 1500000000⟩

def longAgo : Instant := ⟨-62198755200, 7⟩

def farAhead : Instant := ⟨8210266876799, 999999999⟩

def oddText : String := "say \"\\ \x00\x08\x1f/\n\" \u007f\u2028 naïve 🎨"

def oddState : SavedState where
  cursor := ⟨-2147483648, 2147483647, false, .navy, .flower⟩
  emotion := oddText
  steps := 18446744073709551615
  size := ⟨4294967295, 0⟩
  scale := 0.1
  skips := 9007199254740993
  pace := .verySlow
  delay := 18446744073709551615
  colors := [.navy, .red]
  lastTurnColor := none
  schedule := ⟨.resting, inserted, .rem, longAgo, farAhead⟩
  timestamp := ⟨0, 120000000⟩

def oddMemory : CodeMemory :=
  ⟨oddText, ⟨oddText, 2147483647, -2147483648, .red, true, 18446744073709551615, .spray⟩, inserted⟩

def oddDream : Dream :=
  ⟨oddText, .light, farAhead, oddText⟩

def oddSettings : Settings :=
  { Settings.standard with
    dataDir := ⟨oddText⟩
    fixedDelay := some 18446744073709551615
    retention := .fraction 0.3 }

theorem isStorable_inserted : inserted.IsStorable :=
  ⟨by decide, by decide⟩

theorem isStorable_longAgo : longAgo.IsStorable :=
  ⟨by decide, by decide⟩

theorem isStorable_farAhead : farAhead.IsStorable :=
  ⟨by decide, by decide⟩

theorem documents_read_back_of_odd_values :
    (read oddState.toJson.pretty).bind SavedState.ofJson? = some oddState ∧
    (read (ofList CodeMemory.toJson [oddMemory]).pretty).bind (list? CodeMemory.ofJson?) =
      some [oddMemory] ∧
    (read (ofList Dream.toJson [oddDream]).pretty).bind (list? Dream.ofJson?) = some [oddDream] ∧
    Settings.load? (some oddSettings.text) = some oddSettings := by
  have ⟨hs, hm, hd, ht⟩ := documents_read_back
  refine ⟨hs _ ?state, hm _ ?memory, hd _ ?dream, ht _ ?settings⟩
  case state =>
    exact {
      x := by decide
      y := by decide
      steps := by decide
      width := by decide
      height := by decide
      scale := by decide +kernel
      skips := by decide
      delay := by decide
      schedule := ⟨isStorable_inserted, isStorable_longAgo, isStorable_farAhead⟩
      timestamp := ⟨by decide, by decide⟩ }
  case memory =>
    simp only [List.mem_singleton, forall_eq]
    exact ⟨⟨by decide, by decide, by decide⟩, isStorable_inserted⟩
  case dream =>
    simp only [List.mem_singleton, forall_eq]
    exact ⟨isStorable_farAhead⟩
  case settings =>
    exact {
      model := ⟨by decide⟩
      width := by decide
      height := by decide
      checkInInterval := by decide
      breakDuration := by decide
      restDuration := by decide
      chatFollowUp := by decide
      maxChoiceRetries := by decide
      fixedDelay := by simp [oddSettings]
      saveEverySteps := by decide
      retention := (by decide +kernel : (ofFloat 0.3).float? = some 0.3) }

namespace Store

variable {r : Raster} {s : SavedState} {ds : List Dream} {cs : List CodeMemory} {f g : Folder}

theorem loadState?_of_save (h : save r s ds cs f = .ok () g)
    (hs : (read s.toJson.pretty).bind SavedState.ofJson? = some s) : loadState? g = some s := by
  have ht : g.text? statePath = some s.toJson.pretty := by
    rw [Folder.text?, puts_state f () g h]
  rw [loadState?, document?, ht, Option.bind_some, hs]

theorem loadDreams_of_save (h : save r s ds cs f = .ok () g)
    (hd : (read (ofList Dream.toJson ds).pretty).bind (list? Dream.ofJson?) = some ds) :
    loadDreams g = ds := by
  have ht : g.text? dreamsPath = some (ofList Dream.toJson ds).pretty := by
    rw [Folder.text?, puts_dreams f () g h]
  rw [loadDreams, document?, ht, Option.bind_some, hd, Option.getD_some]

-- Of the codes, only the latest ones are loaded.
theorem loadCodes_of_save (h : save r s ds cs f = .ok () g)
    (hc : (read (ofList CodeMemory.toJson cs).pretty).bind (list? CodeMemory.ofJson?) = some cs) :
    loadCodes g = lastOf Memory.codeLimit cs := by
  have ht : g.text? codesPath = some (ofList CodeMemory.toJson cs).pretty := by
    rw [Folder.text?, puts_codes f () g h]
  simp only [loadCodes, document?, ht, Option.bind_some, hc, Option.getD_some]

end Store

end Atelier
