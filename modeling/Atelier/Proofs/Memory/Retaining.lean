import Atelier.Memory
import Atelier.Proofs.History
import Atelier.Proofs.Random.Shuffle

/-!
The end of a rest. Of its dreams, a sample that is drawn without replacement joins the long-term ones.
-/

namespace Atelier.Memory

open List

variable {m : Memory} {size : Nat} {pairs : List (Nat × Nat)} {moved : List Dream}

-- The dreams that a shuffle has moved to the last `size` positions, in this order.
structure Moves (m : Memory) (size : Nat) (pairs : List (Nat × Nat)) (moved : List Dream) : Prop where
  shuffle : Random.IsShuffle (m.tonight.length - size) m.tonight.length pairs
  moved_eq : moved = (Random.exchange pairs m.tonight.toArray).toList.drop (m.tonight.length - size)

theorem Moves.subperm (h : m.Moves size pairs moved) : moved <+~ m.tonight := by
  rw [h.moved_eq]
  exact (drop_sublist ..).subperm.trans (Random.perm_exchange pairs m.tonight.toArray).subperm

theorem Moves.length_eq (h : m.Moves size pairs moved) : moved.length = min size m.tonight.length := by
  rw [h.moved_eq, length_drop, (Random.perm_exchange pairs m.tonight.toArray).length_eq,
    List.toList_toArray]
  omega

theorem Moves.perm (h : m.Moves size pairs moved) (hs : m.tonight.length ≤ size) :
    moved ~ m.tonight :=
  h.subperm.perm_of_length_le (Nat.le_of_eq (h.length_eq.trans (Nat.min_eq_right hs)).symm)

theorem exists_retain_eq (m : Memory) (policy : Retention) (r : Random) :
    ∃ pairs moved r',
      r.Draws (m.tonight.length - policy.sampleSize m.tonight.length) m.tonight.length pairs r' ∧
      m.Moves (policy.sampleSize m.tonight.length) pairs moved ∧ m.retain policy r =
        ({ m with dreams := m.dreams.extend moved, tonight := [] }, moved.length, r') := by
  have ⟨pairs, r', hp, he⟩ := r.exists_sample_eq (policy.sampleSize m.tonight.length) m.tonight
  exact ⟨pairs, _, r', hp, ⟨hp.isShuffle, rfl⟩, by simp only [retain, he]⟩

-- A source can have any words ready, so nothing is assumed of what it draws.
theorem retain_samples (hm : m.dreams.IsCapped dreamLimit) (policy : Retention) (r : Random) :
    ∃ pairs moved r',
      r.Draws (m.tonight.length - policy.sampleSize m.tonight.length) m.tonight.length pairs r' ∧
      Random.IsShuffle (m.tonight.length - policy.sampleSize m.tonight.length) m.tonight.length pairs ∧
      moved = (Random.exchange pairs m.tonight.toArray).toList.drop
        (m.tonight.length - policy.sampleSize m.tonight.length) ∧
      moved <+~ m.tonight ∧
      moved.length = min (policy.sampleSize m.tonight.length) m.tonight.length ∧
      (policy = .retainAll → moved ~ m.tonight) ∧
      m.retain policy r =
        ({ m with dreams := ⟨lastOf dreamLimit (m.dreams.items ++ moved), dreamLimit⟩, tonight := [] },
          moved.length, r') := by
  have ⟨pairs, moved, r', hd, hv, hr⟩ := m.exists_retain_eq policy r
  rw [History.extend_eq hm] at hr
  have hall : policy = .retainAll → moved ~ m.tonight := by
    rintro rfl
    exact hv.perm (Nat.le_refl _)
  exact ⟨pairs, moved, r', hd, hv.shuffle, hv.moved_eq, hv.subperm, hv.length_eq, hall, hr⟩

def staircase : Dream :=
  ⟨"a staircase of light", .light, ⟨0, 0⟩, ""⟩

-- One dream less than there is room for, and three dreams of a night, two of them the same.
def restless : Memory :=
  { restore [] (replicate 99 staircase) with
    tonight := [staircase, ⟨"the sea was red", .rem, ⟨600, 0⟩, ""⟩, staircase] }

theorem dreams_restless : restless.dreams = ⟨replicate 99 staircase, dreamLimit⟩ := by
  have hl : (replicate 99 staircase).length ≤ dreamLimit := by simp [dreamLimit]
  simp only [restless, restore, History.ofList_eq, lastOf_of_length_le hl]

theorem retain_samples_of_restless :
    restless.dreams.IsCapped dreamLimit ∧
    ∃ pairs moved r',
      Random.Draws 0 3 (.ofSeed 9) pairs r' ∧
      Random.IsShuffle 0 3 pairs ∧
      moved = (Random.exchange pairs restless.tonight.toArray).toList ∧
      moved <+~ restless.tonight ∧
      moved.length = 3 ∧
      moved ~ restless.tonight ∧
      restless.retain .retainAll (.ofSeed 9) =
        (⟨.empty codeLimit, ⟨replicate 97 staircase ++ moved, dreamLimit⟩, []⟩, 3, r') := by
  have hc := History.isCapped_ofList dreamLimit (replicate 99 staircase)
  have ⟨pairs, moved, r', hd, hs, hm, hsub, hl, hall, hr⟩ :=
    retain_samples (m := restless) hc .retainAll (.ofSeed 9)
  have hl : moved.length = 3 := hl
  have hlast : lastOf dreamLimit (restless.dreams.items ++ moved) = replicate 97 staircase ++ moved := by
    have hn : (replicate 99 staircase ++ moved).length - dreamLimit = 2 := by simp [hl, dreamLimit]
    rw [dreams_restless, lastOf, hn, drop_append_of_le_length (by simp), drop_replicate]
  rw [hlast, hl] at hr
  exact ⟨hc, pairs, moved, r', hd, hs, hm, hsub, hl, hall rfl, hr⟩

end Atelier.Memory
