import Atelier.Random
import Mathlib.Data.List.Perm.Subperm

/-!
Shuffles and samples. A shuffle is a row of exchanges, which keep all elements whatever is drawn for them:
each position is drawn from the source as the draw before it has left it. A sample is what the shuffle leaves
at the end.
-/

namespace Atelier.Random

open List

theorem perm_swapIfInBounds (xs : Array α) (i j : Nat) : (xs.swapIfInBounds i j).toList ~ xs.toList := by
  unfold Array.swapIfInBounds
  split
  case isTrue hi =>
    split
    case isTrue hj => exact (Array.swap_perm hi hj).toList
    case isFalse => exact .rfl
  case isFalse => exact .rfl

-- Elements change places, one pair of positions after the other.
def exchange (pairs : List (Nat × Nat)) (xs : Array α) : Array α :=
  pairs.foldl (fun xs p => xs.swapIfInBounds p.1 p.2) xs

-- Each of the `n` positions from the last one down to `stop`, with a position at or before it.
structure IsShuffle (stop n : Nat) (pairs : List (Nat × Nat)) : Prop where
  positions : pairs.map (·.1) = (range' stop (n - stop)).reverse
  drawn : ∀ p ∈ pairs, p.2 ≤ p.1

theorem perm_exchange (pairs : List (Nat × Nat)) (xs : Array α) :
    (exchange pairs xs).toList ~ xs.toList := by
  induction pairs generalizing xs
  case nil => exact .rfl
  case cons p _ hi => exact (hi _).trans (perm_swapIfInBounds xs p.1 p.2)

theorem IsShuffle.nil {stop n : Nat} (h : n ≤ stop) : IsShuffle stop n [] where
  positions := by rw [Nat.sub_eq_zero_of_le h, range'_zero, reverse_nil, map_nil]
  drawn := nofun

theorem IsShuffle.cons {stop i j : Nat} {pairs : List (Nat × Nat)} (h : IsShuffle stop i pairs)
    (hi : stop ≤ i) (hj : j ≤ i) : IsShuffle stop (i + 1) ((i, j) :: pairs) where
  positions := by
    rw [map_cons, h.positions, Nat.succ_sub hi, range'_1_concat, reverse_append, reverse_singleton,
      singleton_append, Nat.add_sub_cancel' hi]
  drawn := forall_mem_cons.mpr ⟨hj, h.drawn⟩

-- The positions that a source draws for those from the last one down to `stop`, and the source that it is then.
inductive Draws (stop : Nat) : Nat → Random → List (Nat × Nat) → Random → Prop
  | nil {n : Nat} {r : Random} : n ≤ stop → Draws stop n r [] r
  | cons {i j : Nat} {r r₁ r' : Random} {pairs : List (Nat × Nat)} : stop ≤ i → r.below (i + 1) = (j, r₁) →
      Draws stop i r₁ pairs r' → Draws stop (i + 1) r ((i, j) :: pairs) r'

theorem Draws.isShuffle {stop n : Nat} {r r' : Random} {pairs : List (Nat × Nat)}
    (h : Draws stop n r pairs r') : IsShuffle stop n pairs := by
  induction h
  case nil h => exact .nil h
  case cons i j r _ _ _ hi hd _ ih =>
    have hj : (r.below (i + 1)).1 < i + 1 := below_lt (Nat.succ_pos i)
    rw [hd] at hj
    exact ih.cons hi (Nat.le_of_lt_succ hj)

-- What is exchanged is drawn without a look at the elements.
theorem exists_shuffleDown_eq (stop n : Nat) (r : Random) :
    ∃ pairs r', Draws stop n r pairs r' ∧
      ∀ xs : Array α, shuffleDown stop n xs r = (exchange pairs xs, r') := by
  induction n generalizing r
  case zero => exact ⟨[], r, .nil (Nat.zero_le _), fun _ => rfl⟩
  case succ i hi =>
    by_cases h : i < stop
    case pos => exact ⟨[], r, .nil h, fun _ => if_pos h⟩
    case neg =>
      simp only [shuffleDown, if_neg h]
      -- The number that is drawn does not matter, so it is not to be looked into.
      generalize hd : r.below (i + 1) = drawn
      have ⟨pairs, r', hp, he⟩ := hi drawn.2
      exact ⟨_, r', .cons (Nat.le_of_not_lt h) hd hp, fun xs => he _⟩

theorem exists_sample_eq (amount : Nat) (xs : List α) (r : Random) :
    ∃ pairs r', Draws (xs.length - amount) xs.length r pairs r' ∧
      r.sample amount xs = ((exchange pairs xs.toArray).toList.drop (xs.length - amount), r') := by
  have ⟨pairs, r', hp, he⟩ := exists_shuffleDown_eq (α := α) (xs.length - amount) xs.length r
  exact ⟨pairs, r', hp, by rw [sample, he]⟩

end Atelier.Random
