/-!
Histories that forget. A history keeps the latest entries up to a limit, oldest first.
-/

namespace Atelier

/-- The last `n` entries of a list. -/
def lastOf (n : Nat) (xs : List α) : List α :=
  xs.drop (xs.length - n)

theorem length_lastOf (n : Nat) (xs : List α) : (lastOf n xs).length = min n xs.length := by
  simp [lastOf]
  omega

theorem lastOf_of_length_le {n : Nat} {xs : List α} (h : xs.length ≤ n) : lastOf n xs = xs := by
  simp [lastOf, Nat.sub_eq_zero_of_le h]

/-- Drops entries at the front until there are at most `n`. -/
def evict (n : Nat) : List α → List α
  | [] => []
  | x :: xs => if n < (x :: xs).length then evict n xs else x :: xs

theorem evict_eq_lastOf (n : Nat) (xs : List α) : evict n xs = lastOf n xs := by
  induction xs with
  | nil => exact (lastOf_of_length_le (Nat.zero_le n)).symm
  | cons x xs ih =>
    rw [evict]
    split
    case isTrue h =>
      have hn : n ≤ xs.length := Nat.le_of_lt_succ h
      rw [ih, lastOf, lastOf, List.length_cons, Nat.succ_sub hn, List.drop_succ_cons]
    case isFalse h => exact (lastOf_of_length_le (Nat.le_of_not_lt h)).symm

structure History (α : Type) where
  items : List α
  limit : Nat
deriving DecidableEq

namespace History

def empty (limit : Nat) : History α := ⟨[], limit⟩

def push (h : History α) (a : α) : History α :=
  { h with items := evict h.limit (h.items ++ [a]) }

def extend (h : History α) (as : List α) : History α :=
  as.foldl push h

def ofList (limit : Nat) (as : List α) : History α :=
  (empty limit).extend as

def length (h : History α) : Nat := h.items.length

/-- The latest `n` entries, oldest first. -/
def recent (h : History α) (n : Nat) : List α :=
  lastOf n h.items

@[simp]
theorem limit_push (h : History α) (a : α) : (h.push a).limit = h.limit := rfl

@[simp]
theorem limit_extend (h : History α) (as : List α) : (h.extend as).limit = h.limit := by
  induction as generalizing h with
  | nil => rfl
  | cons a as ih => simpa [extend] using ih (h.push a)

theorem items_push (h : History α) (a : α) : (h.push a).items = lastOf h.limit (h.items ++ [a]) :=
  evict_eq_lastOf h.limit (h.items ++ [a])

theorem length_push_le (h : History α) (a : α) : (h.push a).length ≤ h.limit := by
  rw [length, items_push, length_lastOf]
  exact Nat.min_le_left ..

end History

end Atelier
