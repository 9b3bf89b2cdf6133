import Atelier.Proofs.Store.Ready

/-!
What is in the data folder after a save: the picture, the state document and the two histories, each as it
was given.
-/

namespace Atelier

namespace Saving

-- If the work succeeds, the file is there.
def Puts (work : Saving α) (p : Path) (file : File) : Prop :=
  ∀ f a g, work f = .ok a g → g.get? p = some (.file file)

variable {p : Path} {file : File} {work : Saving α} {next : α → Saving β}

theorem Leaves.get?_of_ok (h : Leaves work p) {f g : Folder} {a : α} (hw : work f = .ok a g) :
    g.get? p = f.get? p := by
  have h := h f
  rwa [after, hw] at h

theorem Puts.bind (h : Puts work p file) (hn : ∀ a, Leaves (next a) p) : Puts (work >>= next) p file := by
  intro f b g hg
  obtain ⟨a, f₁, hw, hg⟩ := bind_eq_ok_iff.mp hg
  rw [(hn a).get?_of_ok hg, h f a f₁ hw]

theorem puts_bind (h : ∀ a, Puts (next a) p file) : Puts (work >>= next) p file := by
  intro f b g hg
  obtain ⟨a, f₁, _, hg⟩ := bind_eq_ok_iff.mp hg
  exact h a f₁ b g hg

theorem puts_writeText (e : SaveError) (s : String) : Puts (writeText p e s) p (.text s) := by
  intro f _ g h
  rw [writeText_eq_ok h, if_pos rfl]

theorem puts_writePicture (r : Raster) : Puts (writePicture p r) p (.picture r) :=
  fun _ _ _ => writePicture_eq_ok

end Saving

namespace Store

open Saving

variable {r : Raster} {s : SavedState} {ds : List Dream} {cs : List CodeMemory} {d : String} {q : Path}

def save (r : Raster) (s : SavedState) (ds : List Dream) (cs : List CodeMemory) : Saving Unit := do
  saveCanvas r
  saveState s
  saveMemories ds cs

/-! Files -/

theorem leaves_saveCanvas (hp : ¬q <+: canvasPath) : Leaves (saveCanvas r) q :=
  (leaves_makeFolders _ fun h => hp (h.trans (List.prefix_append folder _))).bind fun _ =>
    leaves_writePicture r hp

theorem leaves_saveState (hf : ¬q <+: folder) (hs : q ≠ statePath) : Leaves (saveState s) q :=
  (leaves_makeFolders _ hf).bind fun _ => leaves_writeText _ _ hs

theorem leaves_saveMemories (hf : ¬q <+: folder) (hd : q ≠ dreamsPath) (hc : q ≠ codesPath) :
    Leaves (saveMemories ds cs) q :=
  (leaves_makeFolders _ hf).bind fun _ =>
    (leaves_writeText _ _ hd).bind fun _ => leaves_writeText _ _ hc

theorem puts_canvas : Puts (save r s ds cs) canvasPath (.picture r) :=
  (puts_bind fun _ => puts_writePicture r).bind fun _ =>
    (leaves_saveState (by decide) (by decide)).bind fun _ =>
      leaves_saveMemories (by decide) (by decide) (by decide)

theorem puts_state : Puts (save r s ds cs) statePath (.text s.toJson.pretty) :=
  puts_bind fun _ => (puts_bind fun _ => puts_writeText _ _).bind fun _ =>
    leaves_saveMemories (by decide) (by decide) (by decide)

theorem puts_dreams : Puts (save r s ds cs) dreamsPath (.text (Json.ofList Dream.toJson ds).pretty) :=
  puts_bind fun _ => puts_bind fun _ => puts_bind fun _ =>
    (puts_writeText _ _).bind fun _ => leaves_writeText _ _ (by decide)

theorem puts_codes : Puts (save r s ds cs) codesPath (.text (Json.ofList CodeMemory.toJson cs).pretty) :=
  puts_bind fun _ => puts_bind fun _ => puts_bind fun _ => puts_bind fun _ => puts_writeText _ _

/-! Success -/

-- Nothing stands in the way of the files of a session.
def Ready (f : Folder) : Prop :=
  f.IsReady "canvas"

theorem isReady_saveMemories : Preserves (saveMemories ds cs) (·.IsReady d) :=
  isReady_makeFolders.bind fun _ => isReady_write.bind fun _ => isReady_write

theorem isReady_save : Preserves (save r s ds cs) (·.IsReady d) :=
  (isReady_makeFolders.bind fun _ => isReady_writePicture r).bind fun _ =>
    (isReady_makeFolders.bind fun _ => isReady_write).bind fun _ => isReady_saveMemories

theorem achieves_saveCanvas (hw : 0 < r.width) (hh : 0 < r.height) :
    Achieves (saveCanvas r) Ready Ready :=
  achieves_makeFolders.bind fun _ =>
    (achieves_writePicture hw hh).mono (fun _ h => h.isReady) fun _ h => h.isReady

theorem achieves_saveState : Achieves (saveState s) Ready Ready :=
  achieves_makeFolders.bind fun _ => achieves_write.mono (fun _ h => h) fun _ h => h.isReady

theorem achieves_saveMemories : Achieves (saveMemories ds cs) Ready Ready :=
  achieves_makeFolders.bind fun _ => achieves_write.bind fun _ =>
    achieves_write.mono (fun _ h => h) fun _ h => h.isReady

theorem achieves_save (hw : 0 < r.width) (hh : 0 < r.height) : Achieves (save r s ds cs) Ready Ready :=
  (achieves_saveCanvas hw hh).bind fun _ => achieves_saveState.bind fun _ => achieves_saveMemories

end Store

end Atelier
