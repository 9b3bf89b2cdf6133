import Atelier.Proofs.Store.Untouched

/-!
What work on a folder that has succeeded leaves in it.
-/

namespace Atelier.Saving

variable {f g : Folder} {p : Path} {e : SaveError} {u : Unit}

@[simp]
theorem bind_eq_ok_iff {work : Saving α} {next : α → Saving β} {b : β} :
    (work >>= next) f = .ok b g ↔ ∃ a h, work f = .ok a h ∧ next a h = .ok b g := by
  simp only [Bind.bind, EStateM.bind]
  cases work f
  case ok a h =>
    constructor
    case mp => exact fun hn => ⟨a, h, rfl, hn⟩
    case mpr =>
      rintro ⟨_, _, hw, hn⟩
      cases hw
      exact hn
  case error => simp

@[simp]
theorem pure_eq_ok_iff {a b : α} : (pure a : Saving α) f = .ok b g ↔ a = b ∧ f = g := by
  simp [pure, EStateM.pure]

theorem change_eq_ok {make : Folder → Option Folder} (h : change e make f = .ok u g) :
    make f = some g := by
  rw [change_apply] at h
  split at h
  case h_1 hm =>
    cases h
    exact hm
  case h_2 => contradiction

theorem writeText_eq_ok {s : String} (h : writeText p e s f = .ok u g) (q : Path) :
    g.get? q = if q = p then some (.file (.text s)) else f.get? q :=
  Folder.get?_write? (change_eq_ok h) q

theorem writePicture_eq_ok {r : Raster} (h : writePicture p r f = .ok u g) :
    g.get? p = some (.file (.picture r)) := by
  rw [writePicture, bind_eq_ok_iff] at h
  obtain ⟨_, _, _, h⟩ := h
  split at h
  case isTrue =>
    obtain ⟨_, _, _, h⟩ := bind_eq_ok_iff.mp h
    contradiction
  case isFalse => rw [Folder.get?_write? (change_eq_ok h), if_pos rfl]

end Atelier.Saving
