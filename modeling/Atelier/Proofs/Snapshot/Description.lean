import Atelier.Proofs.Session.Archiving

/-!
Whether a sidecar describes the picture that it stands beside. One that is kept on request does. For a
picture that a cycle has cleared away, the sidecar tells what is on the canvas after the whole cycle.
-/

namespace Atelier

open Saving

namespace Overview

theorem toList_drawn (n : Nat) (coverage : String) :
    s!"Canvas Overview: {n} pixels drawn ({coverage}% coverage)".toList =
      "Canvas Overview: ".toList ++ (n.repr.toList ++
        ' ' :: ("pixels drawn (".toList ++ coverage.toList ++ "% coverage)".toList)) := by
  simp [toString]

theorem exists_text_eq (o : Overview) :
    ∃ cs, o.text.toList = "Canvas Overview: ".toList ++ (o.filled.repr.toList ++ ' ' :: cs) := by
  unfold text
  extract_lets drawn _ parts
  have hd : drawn.toList = _ := toList_drawn o.filled _
  split
  case isTrue => exact ⟨_, hd⟩
  case isFalse =>
    rw [String.toList_append, String.toList_append, hd, List.append_assoc, List.append_assoc,
      List.append_assoc, List.cons_append]
    exact ⟨_, rfl⟩

-- The number of painted cells can be read off the text.
theorem filled_eq_of_text_eq {o p : Overview} (h : o.text = p.text) : o.filled = p.filled := by
  have ⟨_, ho⟩ := o.exists_text_eq
  have ⟨_, hp⟩ := p.exists_text_eq
  rw [h, hp] at ho
  have ⟨hr, _⟩ := append_cons_inj (Decimal.not_mem_repr (by decide) _) (Decimal.not_mem_repr (by decide) _)
    (List.append_cancel_left ho)
  rw [Nat.toList_repr, Nat.toList_repr] at hr
  rw [← Nat.ofDigitChars_ten_toDigits (n := o.filled), ← hr, Nat.ofDigitChars_ten_toDigits]

theorem filled_ofRaster_eq_zero_iff {r : Raster} : (ofRaster r).filled = 0 ↔ r.IsBlank := by
  simp [ofRaster, Raster.IsBlank, Rgb.isBlack_iff]

end Overview

-- What a sidecar says about the picture alone: its size and what is on it.
def Sidecar.Describes (m : Sidecar) (r : Raster) : Prop :=
  m.size = ⟨r.width, r.height⟩ ∧ m.overview = (Overview.ofRaster r).text

namespace Shot

variable {a : Shot}

theorem describes_iff :
    a.sidecar.Describes a.picture ↔
      (a.canvas.width = a.picture.width ∧ a.canvas.height = a.picture.height) ∧
        (Overview.ofRaster a.canvas.raster).text = (Overview.ofRaster a.picture).text := by
  simp [Sidecar.Describes, sidecar, Sidecar.ofCanvas]

-- Nothing on the canvas means nothing in the overview, whatever the picture was.
theorem not_describes_of_isBlank (hc : a.canvas.raster.IsBlank) (hp : ¬a.picture.IsBlank) :
    ¬a.sidecar.Describes a.picture := by
  intro h
  have hf := Overview.filled_eq_of_text_eq h.right
  have hz := Overview.filled_ofRaster_eq_zero_iff.mpr hc
  exact hp (Overview.filled_ofRaster_eq_zero_iff.mp (hf.symm.trans hz))

end Shot

namespace Session

-- The picture that is kept on request.
def currentShot (s : Session) (now : Instant) : Shot :=
  ⟨s.canvas.raster, s.canvas, s.mood, s.steps, s.zone.localTime now⟩

variable {s s' : Session} {now : Instant}

theorem isIn_of_snapshot {t : SnapshotTargets} (h : s.snapshot now = (.ok t, s')) :
    t = (s.currentShot now).targets ∧ (s.currentShot now).IsIn s'.folder := by
  have hw : s.snapshot now = s.perform (s.currentShot now).write := rfl
  rw [hw, perform] at h
  split at h
  all_goals cases h
  case h_1 hf => exact Shot.isIn_of_write_eq_ok hf

theorem exists_snapshot_of_ready (hr : Snapshot.Ready s.folder) (hw : s.canvas.raster.width ≠ 0)
    (hh : s.canvas.raster.height ≠ 0) (now : Instant) : ∃ t s', s.snapshot now = (.ok t, s') := by
  have ⟨g, hg, _⟩ := Shot.write_of_ready (a := s.currentShot now) hr hw hh
  have hs : s.snapshot now = s.perform (s.currentShot now).write := rfl
  rw [hs, perform, hg]
  exact ⟨_, _, rfl⟩

-- On request, the sidecar describes the picture. After a clearing it does exactly when the canvas that
-- the cycle leaves behind has the size of the picture that was cleared away and the same overview.
theorem sidecars_describe_iff (s : Session) (now : Instant) :
    (∀ t s', s.snapshot now = (.ok t, s') →
      s'.folder.picture? t.image = some s.canvas.raster ∧
      ∃ m : Sidecar, s'.folder.text? t.sidecar = some m.toJson.pretty ∧ m.Describes s.canvas.raster) ∧
    ∀ s' e a, s.tick now = .ok (s', e) → s.shot? now e s' = some a →
      ∃ f, Snapshot.Agree s.folder f ∧ ∀ t g, a.write f = .ok t g →
        s'.folder.picture? t.image = some a.picture ∧
        ∃ m : Sidecar, s'.folder.text? t.sidecar = some m.toJson.pretty ∧
          (m.Describes a.picture ↔
            (s'.canvas.width = a.picture.width ∧ s'.canvas.height = a.picture.height) ∧
              (Overview.ofRaster s'.canvas.raster).text = (Overview.ofRaster a.picture).text) := by
  refine ⟨fun t s' h => ?request, fun s' e a h ha => ?clearing⟩
  case request =>
    obtain ⟨ht, hi⟩ := isIn_of_snapshot h
    exact ht ▸ ⟨hi.left, s.sidecar now, hi.right, rfl, rfl⟩
  case clearing =>
    have ⟨f, hf, hs⟩ := tick_snapshots h
    refine ⟨f, hf, fun t g hw => ?_⟩
    rw [ha, afterShot, after, hw] at hs
    obtain ⟨ht, hi⟩ := Shot.isIn_of_write_eq_ok hw
    have hi := (Shot.isIn_iff_of_agree hs).mp hi
    obtain ⟨_, _, rfl, _, rfl⟩ := shot?_eq_some ha
    exact ht ▸ ⟨hi.left, _, hi.right, Shot.describes_iff⟩

-- The blank canvas is cleared.
def clearingBlank : Session :=
  { clearing with model := .ofSource (.scripted [.ok "clear_all"]) }

theorem sidecars_describe_blank :
    ∃ t s₁ s' e a, clearingBlank.snapshot ⟨0, 0⟩ = (.ok t, s₁) ∧
      (∃ m : Sidecar, s₁.folder.text? t.sidecar = some m.toJson.pretty ∧
        m.Describes clearingBlank.canvas.raster) ∧
      clearingBlank.tick ⟨0, 0⟩ = .ok (s', e) ∧ clearingBlank.shot? ⟨0, 0⟩ e s' = some a ∧
      ∃ m : Sidecar, s'.folder.text? a.targets.sidecar = some m.toJson.pretty ∧
        m.Describes a.picture := by
  have hd : (clearingBlank.drawn? ⟨0, 0⟩).any fun p =>
      p.2.archived = some (.filled 8 8 Rgb.black) ∧ p.1.canvas.raster = .filled 8 8 Rgb.black := by
    decide +kernel
  obtain ⟨⟨s', c⟩, ht, hd⟩ := (Option.any_eq_true _ _).mp hd
  obtain ⟨hc, hr⟩ := of_decide_eq_true hd
  have ht := tick_of_drawn?_eq_some ht
  have ⟨a, ha, hp, _⟩ := exists_shot clearingBlank s' ⟨0, 0⟩ hc
  have ⟨hreq, hcl⟩ := sidecars_describe_iff clearingBlank ⟨0, 0⟩
  have ⟨t, s₁, hs⟩ := exists_snapshot_of_ready (s := clearingBlank) Snapshot.ready_empty (by decide)
    (by decide) ⟨0, 0⟩
  obtain ⟨f, hf, hcl⟩ := hcl s' _ a ht ha
  have ⟨g, hw, _⟩ := Shot.write_of_ready (a := a) (Snapshot.ready_empty.of_agree hf)
    (hp ▸ by decide) (hp ▸ by decide)
  obtain ⟨_, m, hm, hi⟩ := hcl _ _ hw
  have he : s'.canvas.raster = a.picture := hr.trans hp.symm
  refine ⟨t, s₁, s', _, a, hs, (hreq t s₁ hs).right, ht, ha, m, hm, hi.mpr ⟨⟨?_, ?_⟩, ?_⟩⟩
  case refine_1 => exact congrArg Raster.width he
  case refine_2 => exact congrArg Raster.height he
  case refine_3 => rw [he]

-- The cleared picture is white, and the sidecar tells of a canvas on which nothing is drawn.
theorem sidecar_of_white_picture :
    ∃ s' e a, clearing.tick ⟨0, 0⟩ = .ok (s', e) ∧ clearing.shot? ⟨0, 0⟩ e s' = some a ∧
      a.IsIn s'.folder ∧ a.picture = .filled 8 8 Color.white.rgb ∧ ¬a.sidecar.Describes a.picture := by
  have hd : (clearing.drawn? ⟨0, 0⟩).any fun p =>
      p.2.archived = some (.filled 8 8 Color.white.rgb) ∧ p.1.canvas.raster.IsBlank := by
    decide +kernel
  obtain ⟨⟨s', c⟩, ht, hd⟩ := (Option.any_eq_true _ _).mp hd
  obtain ⟨hc, hb⟩ := of_decide_eq_true hd
  have ht := tick_of_drawn?_eq_some ht
  have ⟨a, ha, hp, _⟩ := exists_shot clearing s' ⟨0, 0⟩ hc
  have hw := (tick_writes_of_ready ht Snapshot.ready_empty fun b h => by
    cases ha.symm.trans h
    rw [hp]
    decide).right
  have hb : a.canvas.raster.IsBlank := by
    obtain ⟨_, _, _, _, rfl⟩ := shot?_eq_some ha
    exact hb
  refine ⟨s', _, a, ht, ha, hw a ha, hp, Shot.not_describes_of_isBlank hb ?_⟩
  rw [hp]
  decide +kernel

end Session

end Atelier
