import Atelier.History

/-!
Histories as windows: what a history holds are the last of all entries that were ever added to it.
-/

namespace Atelier

theorem lastOf_suffix (n : Nat) (xs : List α) : lastOf n xs <:+ xs :=
  List.drop_suffix ..

theorem lastOf_append_of_length_eq {n : Nat} {xs ys : List α} (h : ys.length = n) :
    lastOf n (xs ++ ys) = ys := by
  rw [lastOf, List.length_append, h, Nat.add_sub_cancel, List.drop_left]

theorem lastOf_drop {n k : Nat} {xs : List α} (h : k ≤ xs.length - n) :
    lastOf n (xs.drop k) = lastOf n xs := by
  have hk : k + (xs.length - k - n) = xs.length - n := by omega
  rw [lastOf, List.drop_drop, List.length_drop, hk, lastOf]

theorem lastOf_lastOf_append (n : Nat) (xs ys : List α) :
    lastOf n (lastOf n xs ++ ys) = lastOf n (xs ++ ys) := by
  have hd : lastOf n xs ++ ys = (xs ++ ys).drop (xs.length - n) :=
    (List.drop_append_of_le_length (Nat.sub_le ..)).symm
  rw [hd]
  apply lastOf_drop
  rw [List.length_append]
  omega

namespace History

variable {h : History α} {n : Nat}

def IsCapped (h : History α) (n : Nat) : Prop :=
  h.limit = n ∧ h.length ≤ n

theorem isCapped_empty (n : Nat) : (empty n : History α).IsCapped n :=
  ⟨rfl, Nat.zero_le n⟩

theorem IsCapped.push (hc : h.IsCapped n) (a : α) : (h.push a).IsCapped n :=
  ⟨hc.left, hc.left ▸ h.length_push_le a⟩

theorem IsCapped.extend (hc : h.IsCapped n) (as : List α) : (h.extend as).IsCapped n := by
  induction as generalizing h
  case nil => exact hc
  case cons a as ih => exact ih (hc.push a)

theorem isCapped_ofList (n : Nat) (as : List α) : (ofList n as).IsCapped n :=
  (isCapped_empty n).extend as

theorem extend_append (h : History α) (as bs : List α) : h.extend (as ++ bs) = (h.extend as).extend bs :=
  List.foldl_append

theorem items_extend (hc : h.IsCapped n) (as : List α) :
    (h.extend as).items = lastOf n (h.items ++ as) := by
  induction as generalizing h
  case nil => rw [List.append_nil, lastOf_of_length_le hc.right, extend, List.foldl_nil]
  case cons a as ih =>
    have hp : (h.push a).items = lastOf n (h.items ++ [a]) := hc.left ▸ items_push h a
    have ha : h.extend (a :: as) = (h.push a).extend as := rfl
    rw [ha, ih (hc.push a), hp, lastOf_lastOf_append, List.append_assoc, List.singleton_append]

theorem extend_eq (hc : h.IsCapped n) (as : List α) : h.extend as = ⟨lastOf n (h.items ++ as), n⟩ :=
  congr (congrArg mk (items_extend hc as)) ((h.limit_extend as).trans hc.left)

-- The latest entries, after one more, are that one and the latest before.
theorem recent_push_suffix (h : History α) (a : α) (n : Nat) :
    (h.push a).recent n <:+ h.recent n ++ [a] := by
  obtain ⟨front, hf⟩ := lastOf_suffix n h.items
  have hall : h.recent n ++ [a] <:+ h.items ++ [a] := by
    refine ⟨front, ?_⟩
    rw [← List.append_assoc]
    exact congrArg (· ++ [a]) hf
  have hnew : (h.push a).recent n <:+ h.items ++ [a] := by
    rw [recent, items_push]
    exact (lastOf_suffix ..).trans (lastOf_suffix ..)
  refine List.suffix_of_suffix_length_le hnew hall ?_
  simp only [recent, items_push, length_lastOf, List.length_append, List.length_singleton]
  omega

theorem ofList_eq (n : Nat) (as : List α) : ofList n as = ⟨lastOf n as, n⟩ :=
  extend_eq (isCapped_empty n) as

theorem ofList_items (hc : h.IsCapped n) : ofList n h.items = h := by
  have ⟨items, limit⟩ := h
  obtain ⟨rfl, hl⟩ := hc
  rw [ofList_eq, lastOf_of_length_le hl]

/-! Windows -/

-- Histories, with all entries that were ever added to them, oldest first.
inductive Grown (limit : Nat) : History α → List α → Prop
  | empty : Grown limit (.empty limit) []
  | ofList (as : List α) : Grown limit (.ofList limit as) as
  | push {h : History α} {as : List α} (g : Grown limit h as) (a : α) :
    Grown limit (h.push a) (as ++ [a])
  | extend {h : History α} {as : List α} (g : Grown limit h as) (bs : List α) :
    Grown limit (h.extend bs) (as ++ bs)

theorem extend_window (n : Nat) (as bs : List α) :
    (mk (lastOf n as) n).extend bs = ⟨lastOf n (as ++ bs), n⟩ := by
  have hc : (mk (lastOf n as) n).IsCapped n :=
    ⟨rfl, Nat.le_trans (Nat.le_of_eq (length_lastOf n as)) (Nat.min_le_left ..)⟩
  rw [extend_eq hc, lastOf_lastOf_append]

theorem Grown.eq_window {as : List α} (g : Grown n h as) : h = ⟨lastOf n as, n⟩ := by
  induction g
  case empty => exact ofList_eq n []
  case ofList as => exact ofList_eq n as
  case push a ih => exact ih ▸ extend_window n _ [a]
  case extend bs ih => exact ih ▸ extend_window n _ bs

theorem recent_suffix (h : History α) (k : Nat) : h.recent k <:+ h.items :=
  lastOf_suffix k h.items

theorem length_recent (h : History α) (k : Nat) : (h.recent k).length = min k h.length :=
  length_lastOf k h.items

end History

end Atelier
