import Atelier.Snapshot

/-!
What work on a folder leaves untouched: all but the files that it writes and the folders around them.
-/

namespace Atelier

namespace Folder

variable {f g : Folder} {p q : Path}

theorem get?_write? (h : f.write? p file = some g) (q : Path) :
    g.get? q = if q = p then some (.file file) else f.get? q := by
  unfold write? at h
  split at h
  case isTrue => contradiction
  case isFalse hp =>
    have hn : p ≠ [] := fun hn => hp (by simp [hn, isFolder, get?])
    cases h
    exact get?_put f hn _ q

theorem write?_eq_some (hp : f.get? p ≠ some .folder) (hd : f.get? p.dropLast = some .folder)
    (file : File) : f.write? p file = some (f.put p (.file file)) := by
  simp [write?, isFolder, hp, hd]

theorem makeFolders?_singleton (f : Folder) (n : String) :
    f.makeFolders? [n] =
      match f.get? [n] with
      | some .folder => some f
      | some (.file _) => none
      | none => some (f.put [n] .folder) :=
  bind_pure _

theorem get?_foldlM_makeFolder {ps : List Path} (hn : [] ∉ ps) (hq : q ∉ ps)
    (h : ps.foldlM (fun f p =>
      match f.get? p with
      | some .folder => some f
      | some (.file _) => none
      | none => some (f.put p .folder)) f = some g) :
    g.get? q = f.get? q := by
  induction ps generalizing f
  case nil =>
    cases h
    rfl
  case cons p ps ih =>
    simp only [List.mem_cons, not_or] at hn hq
    simp only [List.foldlM_cons, Option.bind_eq_bind, Option.bind_eq_some_iff] at h
    obtain ⟨f₁, h₁, h₂⟩ := h
    rw [ih hn.right hq.right h₂]
    split at h₁
    case h_1 => cases h₁; rfl
    case h_2 => contradiction
    case h_3 =>
      cases h₁
      rw [get?_put f (Ne.symm hn.left), if_neg hq.left]

theorem get?_makeFolders? (h : f.makeFolders? p = some g) (hq : ¬q <+: p) :
    g.get? q = f.get? q := by
  apply get?_foldlM_makeFolder ?_ ?_ h
  case _ =>
    simp only [ways, List.mem_map, List.mem_range, not_exists, not_and]
    intro n hn he
    have := congrArg List.length he
    simp only [List.length_take, List.length_nil] at this
    omega
  case _ =>
    simp only [ways, List.mem_map, not_exists, not_and]
    intro n _ he
    exact hq (he ▸ List.take_prefix _ _)

end Folder

namespace Saving

def after (work : Saving α) (f : Folder) : Folder :=
  match work f with
  | .ok _ g => g
  | .error _ g => g

def Leaves (work : Saving α) (q : Path) : Prop :=
  ∀ f, (after work f).get? q = f.get? q

variable {q : Path}

theorem bind_apply_of_ok {work : Saving α} {next : α → Saving β} {a : α} {f g : Folder}
    (h : work f = .ok a g) : (work >>= next) f = next a g := by
  simp only [Bind.bind, EStateM.bind, h]

theorem Leaves.bind {work : Saving α} {next : α → Saving β} (h₁ : Leaves work q)
    (h₂ : ∀ a, Leaves (next a) q) : Leaves (work >>= next) q := by
  intro f
  rw [← h₁ f]
  simp only [after, Bind.bind, EStateM.bind]
  cases work f
  case ok a g => exact h₂ a g
  case error e g => rfl

theorem leaves_pure (a : α) : Leaves (pure a) q :=
  fun _ => rfl

theorem leaves_throw (e : SaveError) : Leaves (throw e : Saving α) q :=
  fun _ => rfl

theorem change_apply (e : SaveError) (make : Folder → Option Folder) (f : Folder) :
    change e make f =
      match make f with
      | some g => .ok () g
      | none => .error e f := by
  have h : change e make f =
    (match make f with
      | some g => set g
      | none => throw e : Saving Unit) f := rfl
  rw [h]
  cases make f <;> rfl

theorem leaves_change {e : SaveError} {make : Folder → Option Folder}
    (h : ∀ f g, make f = some g → g.get? q = f.get? q) : Leaves (change e make) q := by
  intro f
  rw [after, change_apply]
  cases hm : make f
  case none => rfl
  case some g => exact h f g hm

theorem leaves_makeFolders {p : Path} (e : SaveError) (h : ¬q <+: p) : Leaves (makeFolders p e) q :=
  leaves_change fun _ _ hm => Folder.get?_makeFolders? hm h

theorem leaves_writeText {p : Path} (e : SaveError) (s : String) (h : q ≠ p) :
    Leaves (writeText p e s) q :=
  leaves_change fun _ _ hm => by rw [Folder.get?_write? hm, if_neg h]

theorem leaves_writePicture {p : Path} (r : Raster) (h : ¬q <+: p) : Leaves (writePicture p r) q := by
  have hp : q ≠ p := fun he => h (he ▸ List.prefix_rfl)
  have hd : ¬q <+: p.dropLast := fun hd => h (hd.trans (List.dropLast_prefix p))
  apply (leaves_makeFolders _ hd).bind
  intro
  split
  case isTrue => exact (leaves_writeText _ _ hp).bind fun _ => leaves_throw _
  case isFalse => exact leaves_change fun _ _ hm => by rw [Folder.get?_write? hm, if_neg hp]

end Saving

end Atelier
