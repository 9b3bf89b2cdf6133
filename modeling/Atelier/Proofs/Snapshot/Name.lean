import Atelier.Proofs.Instant.Stamp
import Atelier.Snapshot

/-!
The names of snapshots: they tell the second and the mood apart, and nothing else.
-/

namespace Atelier

theorem Mood.word_mem (m : Mood) : m.word = "" ∨ ∃ c : Category, m.word ∈ c.words := by
  unfold word word?
  cases h : m.category.words[m.depth]?
  case none => exact .inl rfl
  case some w => exact .inr ⟨m.category, List.mem_of_getElem? h⟩

namespace Snapshot

theorem tag_of_mem_words {c : Category} {w : String} (h : w ∈ c.words) : tag w = w := by
  revert w
  cases c <;> decide +kernel

theorem tag_word (m : Mood) : tag m.word = m.word := by
  have h := m.word_mem
  cases h
  case inl h =>
    rw [h]
    decide +kernel
  case inr h =>
    have ⟨_, h⟩ := h
    exact tag_of_mem_words h

-- The files of a snapshot differ in what stands behind the word for the mood.
def fileName (t : Instant) (word ending : String) : String :=
  "aurora_" ++ t.stamp ++ "_" ++ word ++ ending

theorem targets_image (dir : Path) (t : Instant) (w : String) :
    (targets dir t w).image = dir ++ [fileName t (tag w) ".png"] := by
  rfl

theorem targets_sidecar (dir : Path) (t : Instant) (w : String) :
    (targets dir t w).sidecar = dir ++ [fileName t (tag w) "_meta.json"] := by
  rfl

theorem fileName_eq_iff {t u : Instant} {v w ending : String} :
    fileName t v ending = fileName u w ending ↔ t.SameSecond u ∧ v = w := by
  constructor
  case mp =>
    intro h
    have h := congrArg String.toList h
    simp only [fileName, String.toList_append, List.append_assoc, List.append_cancel_left_eq] at h
    obtain ⟨hs, hw⟩ := Instant.sameSecond_of_stamp_append h
    exact ⟨hs, String.toList_inj.mp (List.append_cancel_right hw)⟩
  case mpr =>
    rintro ⟨hs, hw⟩
    rw [fileName, Instant.stamp_eq_iff.mpr hs, hw]
    rfl

theorem image_eq_iff {dir : Path} {t u : Instant} {v w : String} :
    (targets dir t v).image = (targets dir u w).image ↔ t.SameSecond u ∧ tag v = tag w := by
  rw [targets_image, targets_image]
  simp [fileName_eq_iff]

theorem sidecar_eq_iff {dir : Path} {t u : Instant} {v w : String} :
    (targets dir t v).sidecar = (targets dir u w).sidecar ↔ t.SameSecond u ∧ tag v = tag w := by
  rw [targets_sidecar, targets_sidecar]
  simp [fileName_eq_iff]

-- The last letter of a picture's name is a different one.
theorem image_ne_sidecar {dir : Path} {t u : Instant} {v w : String} :
    (targets dir t v).image ≠ (targets dir u w).sidecar := by
  rw [targets_image, targets_sidecar]
  intro h
  have h := congrArg (fun n => n.toList.getLast?) (List.singleton_inj.mp (List.append_cancel_left h))
  simp only [fileName, String.toList_append, List.getLast?_append] at h
  simp at h

end Snapshot

end Atelier
