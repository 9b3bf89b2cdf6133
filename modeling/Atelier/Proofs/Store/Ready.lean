import Atelier.Proofs.Store.Written

/-!
Folders that files can be written into: whether work on a data folder keeps them so, and that nothing else
stops it.
-/

namespace Atelier

namespace Folder

-- Nothing stands in the way of files in a folder: no file is in its place, and there are no folders in it.
def IsReady (f : Folder) (d : String) : Prop :=
  (f.get? [d] = none ∨ f.get? [d] = some .folder) ∧ ∀ n, f.get? [d, n] ≠ some .folder

-- The folder is there as well.
def IsOpen (f : Folder) (d : String) : Prop :=
  f.get? [d] = some .folder ∧ ∀ n, f.get? [d, n] ≠ some .folder

variable {f g : Folder} {d : String}

theorem IsOpen.isReady (h : f.IsOpen d) : f.IsReady d :=
  ⟨.inr h.left, h.right⟩

theorem isReady_empty (d : String) : empty.IsReady d :=
  ⟨.inl rfl, fun _ => by simp [get?, empty]⟩

theorem get?_put_folder (f : Folder) (d e : String) :
    (f.put [e] .folder).get? [d] = if d = e then some .folder else f.get? [d] := by
  rw [f.get?_put (by simp)]
  simp

theorem get?_put_folder_name (f : Folder) (d e n : String) :
    (f.put [e] .folder).get? [d, n] = f.get? [d, n] := by
  rw [f.get?_put (by simp), if_neg (by simp)]

theorem IsReady.put_folder (h : f.IsReady d) (e : String) : (f.put [e] .folder).IsReady d := by
  refine ⟨?_, fun n => f.get?_put_folder_name d e n ▸ h.right n⟩
  rw [get?_put_folder]
  split
  case isTrue => exact .inr rfl
  case isFalse => exact h.left

theorem IsReady.isOpen_put_folder (h : f.IsReady d) : (f.put [d] .folder).IsOpen d :=
  ⟨by rw [get?_put_folder, if_pos rfl], (h.put_folder d).right⟩

theorem get?_put_file (f : Folder) (d e n : String) (file : File) :
    (f.put [e, n] (.file file)).get? [d] = f.get? [d] := by
  rw [f.get?_put (by simp), if_neg (by simp)]

theorem get?_put_file_name (f : Folder) (d e m n : String) (file : File) (h : f.get? [d, m] ≠ some .folder) :
    (f.put [e, n] (.file file)).get? [d, m] ≠ some .folder := by
  rw [f.get?_put (by simp)]
  split
  case isTrue => simp
  case isFalse => exact h

theorem IsReady.put_file (h : f.IsReady d) (e n : String) (file : File) :
    (f.put [e, n] (.file file)).IsReady d :=
  ⟨f.get?_put_file d e n file ▸ h.left, fun m => f.get?_put_file_name d e m n file (h.right m)⟩

theorem IsOpen.put_file (h : f.IsOpen d) (e n : String) (file : File) :
    (f.put [e, n] (.file file)).IsOpen d :=
  ⟨f.get?_put_file d e n file ▸ h.left, (h.isReady.put_file e n file).right⟩

end Folder

namespace Saving

open Folder

variable {P Q R : Folder → Prop} {d e n : String} {err : SaveError}

/-! Work that keeps folders ready -/

def Preserves (work : Saving α) (P : Folder → Prop) : Prop :=
  ∀ f, P f → P (after work f)

theorem Preserves.bind {work : Saving α} {next : α → Saving β} (h₁ : Preserves work P)
    (h₂ : ∀ a, Preserves (next a) P) : Preserves (work >>= next) P := by
  intro f hf
  have h₁ := h₁ f hf
  simp only [after, Bind.bind, EStateM.bind] at h₁ ⊢
  cases hw : work f
  case ok a g => exact h₂ a g (by rwa [hw] at h₁)
  case error e g => rwa [hw] at h₁

theorem preserves_pure (a : α) : Preserves (pure a) P :=
  fun _ h => h

theorem preserves_throw : Preserves (throw err : Saving α) P :=
  fun _ h => h

theorem preserves_change {make : Folder → Option Folder} (h : ∀ f g, P f → make f = some g → P g) :
    Preserves (change err make) P := by
  intro f hf
  rw [after, change_apply]
  cases hm : make f
  case none => exact hf
  case some g => exact h f g hf hm

theorem isReady_makeFolders : Preserves (makeFolders [e] err) (·.IsReady d) := by
  apply preserves_change
  intro f g hf hm
  rw [makeFolders?_singleton] at hm
  split at hm
  case h_1 => exact Option.some.inj hm ▸ hf
  case h_2 => contradiction
  case h_3 => exact Option.some.inj hm ▸ hf.put_folder e

theorem isReady_write {file : File} : Preserves (change err (·.write? [e, n] file)) (·.IsReady d) := by
  apply preserves_change
  intro f g hf hm
  unfold write? at hm
  split at hm
  case isTrue => contradiction
  case isFalse => exact Option.some.inj hm ▸ hf.put_file e n file

theorem isReady_writePicture (r : Raster) : Preserves (writePicture [e, n] r) (·.IsReady d) := by
  apply Preserves.bind isReady_makeFolders
  intro
  split
  case isTrue => exact isReady_write.bind fun _ => preserves_throw
  case isFalse => exact isReady_write

/-! Work that succeeds -/

def Achieves (work : Saving α) (P Q : Folder → Prop) : Prop :=
  ∀ f, P f → ∃ a g, work f = .ok a g ∧ Q g

theorem Achieves.bind {work : Saving α} {next : α → Saving β} (h₁ : Achieves work P Q)
    (h₂ : ∀ a, Achieves (next a) Q R) : Achieves (work >>= next) P R := by
  intro f hf
  have ⟨a, g, hw, hg⟩ := h₁ f hf
  have ⟨b, h, hn, hh⟩ := h₂ a g hg
  exact ⟨b, h, by rw [bind_apply_of_ok hw, hn], hh⟩

theorem Achieves.mono {work : Saving α} {P' Q' : Folder → Prop} (h : Achieves work P Q)
    (hp : ∀ f, P' f → P f) (hq : ∀ f, Q f → Q' f) : Achieves work P' Q' := by
  intro f hf
  have ⟨a, g, hw, hg⟩ := h f (hp f hf)
  exact ⟨a, g, hw, hq g hg⟩

theorem achieves_pure (a : α) : Achieves (pure a) P P :=
  fun f h => ⟨a, f, rfl, h⟩

theorem achieves_makeFolders : Achieves (makeFolders [d] err) (·.IsReady d) (·.IsOpen d) := by
  intro f hf
  rw [makeFolders, change_apply, makeFolders?_singleton]
  cases hf.left
  case inl h =>
    rw [h]
    exact ⟨(), _, rfl, hf.isOpen_put_folder⟩
  case inr h =>
    rw [h]
    exact ⟨(), f, rfl, h, hf.right⟩

theorem achieves_write {file : File} :
    Achieves (change err (·.write? [d, n] file)) (·.IsOpen d) (·.IsOpen d) := by
  intro f hf
  rw [change_apply, write?_eq_some (hf.right n) hf.left]
  exact ⟨(), _, rfl, hf.put_file d n file⟩

theorem achieves_writePicture {r : Raster} (hw : 0 < r.width) (hh : 0 < r.height) :
    Achieves (writePicture [d, n] r) (·.IsReady d) (·.IsOpen d) := by
  apply achieves_makeFolders.bind
  intro
  rw [if_neg (by omega)]
  exact achieves_write

end Saving

end Atelier
