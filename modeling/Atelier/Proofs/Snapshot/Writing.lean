import Atelier.Proofs.Snapshot.Name
import Atelier.Proofs.Store.Saved

/-!
Writing snapshots. Nothing else is written into their folder, and a snapshot leaves those with other
names alone.
-/

namespace Atelier

open Saving

-- Nothing stands in the way of snapshots: no file where their folder belongs, and no folders in it.
def Snapshot.Ready (f : Folder) : Prop :=
  (f.get? folder = none ∨ f.get? folder = some .folder) ∧
    ∀ n, f.get? (folder ++ [n]) ≠ some .folder

namespace Snapshot

variable {f : Folder} {q : Path} {d : String} {r : Raster} {s : SavedState} {ds : List Dream}
variable {cs : List CodeMemory}

theorem ready_empty : Ready .empty :=
  Folder.isReady_empty "snapshots"

-- Two folders with the same snapshots.
def Agree (f g : Folder) : Prop :=
  ∀ q, folder <+: q → f.get? q = g.get? q

theorem Agree.refl (f : Folder) : Agree f f :=
  fun _ _ => rfl

theorem Agree.trans {g h : Folder} (h₁ : Agree f g) (h₂ : Agree g h) : Agree f h :=
  fun q hq => (h₁ q hq).trans (h₂ q hq)

theorem agree_after {work : Saving α} (h : ∀ q, folder <+: q → Leaves work q) (f : Folder) :
    Agree f (after work f) :=
  fun q hq => (h q hq f).symm

theorem Ready.of_agree {g : Folder} (h : Agree f g) (hr : Ready f) : Ready g := by
  unfold Ready
  rw [← h folder List.prefix_rfl]
  exact ⟨hr.left, fun n => h _ (List.prefix_append folder [n]) ▸ hr.right n⟩

/-! Work in the other folder -/

theorem not_isPrefix (hq : folder <+: q) (n : String) : ¬q <+: Store.folder ++ [n] := by
  intro h
  have := hq.trans h
  simp [folder, Store.folder] at this

theorem not_isPrefix_folder (hq : folder <+: q) : ¬q <+: Store.folder :=
  fun h => not_isPrefix hq "" (h.trans (List.prefix_append Store.folder [""]))

theorem ne_path (hq : folder <+: q) (n : String) : q ≠ Store.folder ++ [n] :=
  fun h => not_isPrefix hq n (h ▸ List.prefix_rfl)

theorem leaves_saveMemories (hq : folder <+: q) : Leaves (Store.saveMemories ds cs) q :=
  Store.leaves_saveMemories (not_isPrefix_folder hq) (ne_path hq _) (ne_path hq _)

theorem leaves_save (hq : folder <+: q) : Leaves (Store.save r s ds cs) q :=
  (Store.leaves_saveCanvas (not_isPrefix hq _)).bind fun _ =>
    (Store.leaves_saveState (not_isPrefix_folder hq) (ne_path hq _)).bind fun _ =>
      leaves_saveMemories hq

theorem isReady_write {m : Sidecar} : Preserves (write r m) (·.IsReady d) :=
  isReady_makeFolders.bind fun _ => (isReady_writePicture r).bind fun _ =>
    Saving.isReady_write.bind fun _ => preserves_pure _

end Snapshot

-- A picture that is kept for good, and what there is to say about it.
structure Shot where
  picture : Raster
  canvas : Canvas
  mood : Mood
  steps : Nat
  time : LocalTime

namespace Shot

def sidecar (a : Shot) : Sidecar :=
  .ofCanvas a.canvas a.mood.word a.steps a.time

def targets (a : Shot) : SnapshotTargets :=
  Snapshot.targets Snapshot.folder a.time.shown a.mood.word

def write (a : Shot) : Saving SnapshotTargets :=
  Snapshot.write a.picture a.sidecar

def IsIn (a : Shot) (f : Folder) : Prop :=
  f.picture? a.targets.image = some a.picture ∧
    f.text? a.targets.sidecar = some a.sidecar.toJson.pretty

-- Names tell what the clocks show, not when they show it.
def SameName (a b : Shot) : Prop :=
  a.time.shown.SameSecond b.time.shown ∧ a.mood.word = b.mood.word

instance (a b : Shot) : Decidable (a.SameName b) := by
  unfold SameName
  infer_instance

variable {a b c : Shot} {f g : Folder}

theorem SameName.refl (a : Shot) : a.SameName a :=
  ⟨.refl _, rfl⟩

theorem SameName.trans (h₁ : a.SameName b) (h₂ : b.SameName c) : a.SameName c :=
  ⟨⟨h₁.left.left.trans h₂.left.left, h₁.left.right.trans h₂.left.right⟩, h₁.right.trans h₂.right⟩

theorem image_eq_iff : a.targets.image = b.targets.image ↔ a.SameName b := by
  rw [targets, targets, Snapshot.image_eq_iff, Snapshot.tag_word, Snapshot.tag_word, SameName]

theorem sidecar_eq_iff : a.targets.sidecar = b.targets.sidecar ↔ a.SameName b := by
  rw [targets, targets, Snapshot.sidecar_eq_iff, Snapshot.tag_word, Snapshot.tag_word, SameName]

theorem SameName.targets_eq (h : a.SameName b) : a.targets = b.targets := by
  rw [targets, targets, Snapshot.targets, Snapshot.targets, Instant.stamp_eq_iff.mpr h.left, h.right]

theorem image_ne_sidecar : a.targets.image ≠ b.targets.sidecar :=
  Snapshot.image_ne_sidecar

theorem leaves_write {n : String} (hi : Snapshot.folder ++ [n] ≠ a.targets.image)
    (hs : Snapshot.folder ++ [n] ≠ a.targets.sidecar) :
    Leaves a.write (Snapshot.folder ++ [n]) := by
  have hf : ¬Snapshot.folder ++ [n] <+: Snapshot.folder := fun h => by
    have := h.length_le
    simp only [List.length_append, List.length_singleton] at this
    omega
  apply (leaves_makeFolders _ hf).bind
  intro
  apply (leaves_writePicture _ ?_).bind
  case _ =>
    intro
    exact (leaves_writeText _ _ hs).bind fun _ => leaves_pure _
  case _ =>
    intro h
    apply hi
    apply h.eq_of_length
    rfl

theorem isIn_congr (hi : g.get? a.targets.image = f.get? a.targets.image)
    (hs : g.get? a.targets.sidecar = f.get? a.targets.sidecar) : a.IsIn g ↔ a.IsIn f := by
  unfold IsIn Folder.picture? Folder.text?
  rw [hi, hs]

theorem isIn_iff_of_agree (h : Snapshot.Agree f g) : a.IsIn f ↔ a.IsIn g :=
  isIn_congr (h _ (List.prefix_append Snapshot.folder _)) (h _ (List.prefix_append Snapshot.folder _))

-- Other names are left alone.
theorem isIn_after_write (hn : ¬a.SameName b) : a.IsIn (after b.write f) ↔ a.IsIn f := by
  have ⟨_, hi⟩ : ∃ n, a.targets.image = Snapshot.folder ++ [n] := ⟨_, rfl⟩
  have ⟨_, hs⟩ : ∃ n, a.targets.sidecar = Snapshot.folder ++ [n] := ⟨_, rfl⟩
  apply isIn_congr
  case hi =>
    rw [hi]
    apply leaves_write
    case hi => exact hi ▸ fun h => hn (image_eq_iff.mp h)
    case hs => exact hi ▸ image_ne_sidecar
  case hs =>
    rw [hs]
    apply leaves_write
    case hi => exact hs ▸ image_ne_sidecar.symm
    case hs => exact hs ▸ fun h => hn (sidecar_eq_iff.mp h)

theorem puts_image : Puts a.write a.targets.image (.picture a.picture) :=
  puts_bind fun _ => (puts_writePicture _).bind fun _ =>
    (leaves_writeText _ _ image_ne_sidecar).bind fun _ => leaves_pure _

theorem puts_sidecar : Puts a.write a.targets.sidecar (.text a.sidecar.toJson.pretty) :=
  puts_bind fun _ => puts_bind fun _ => (puts_writeText _ _).bind fun _ => leaves_pure _

theorem isIn_of_write_eq_ok {t : SnapshotTargets} (h : a.write f = .ok t g) :
    t = a.targets ∧ a.IsIn g := by
  refine ⟨?targets, ?image, ?sidecar⟩
  case targets =>
    obtain ⟨_, _, _, h⟩ := bind_eq_ok_iff.mp h
    obtain ⟨_, _, _, h⟩ := bind_eq_ok_iff.mp h
    obtain ⟨_, _, _, h⟩ := bind_eq_ok_iff.mp h
    exact (pure_eq_ok_iff.mp h).left.symm
  case image => rw [Folder.picture?, puts_image _ _ _ h]
  case sidecar => rw [Folder.text?, puts_sidecar _ _ _ h]

theorem achieves_write (hw : 0 < a.picture.width) (hh : 0 < a.picture.height) :
    Achieves a.write Snapshot.Ready Snapshot.Ready :=
  achieves_makeFolders.bind fun _ =>
    ((achieves_writePicture hw hh).mono (fun _ h => h.isReady) fun _ h => h).bind fun _ =>
      Saving.achieves_write.bind fun _ => (achieves_pure _).mono (fun _ h => h) fun _ h => h.isReady

theorem write_of_ready (hr : Snapshot.Ready f) (hw : a.picture.width ≠ 0)
    (hh : a.picture.height ≠ 0) :
    ∃ g, a.write f = .ok a.targets g ∧ a.IsIn g ∧ Snapshot.Ready g := by
  have ⟨t, g, h, hg⟩ := achieves_write (Nat.pos_of_ne_zero hw) (Nat.pos_of_ne_zero hh) f hr
  obtain ⟨ht, hi⟩ := isIn_of_write_eq_ok h
  exact ⟨g, ht ▸ h, hi, hg⟩

end Shot

end Atelier
