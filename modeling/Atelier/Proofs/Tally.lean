import Mathlib.Algebra.Ring.Nat
import Atelier.Tally

/-!
Sums of tallies. A tally that is counted on from another one is the sum of the two. Whatever is added to a
tally, its total grows by just that.
-/

namespace Atelier.Tally

-- The sum lists a colour if one of the two does.
def merge (t u : Tally) : Tally :=
  .ofFunction fun c => (t.get? c).merge (· + ·) (u.get? c)

-- The entries are in the order of the palette, so they follow from the numbers.
def IsOrdered (t : Tally) : Prop :=
  .ofFunction t.get? = t

variable {t u : Tally}

@[simp]
theorem get?_merge (t u : Tally) (c : Color) :
    (t.merge u).get? c = (t.get? c).merge (· + ·) (u.get? c) :=
  get?_ofFunction ..

theorem isOrdered_empty : IsOrdered .empty :=
  rfl

theorem isOrdered_ofFunction (f : Color → Option Nat) : (ofFunction f).IsOrdered :=
  congrArg ofFunction (funext (get?_ofFunction f))

theorem isOrdered_add (t : Tally) (c : Color) (n : Nat) : (t.add c n).IsOrdered :=
  isOrdered_ofFunction _

theorem IsOrdered.merge_empty (h : t.IsOrdered) : t.merge .empty = t := by
  simp only [merge, get?_empty, Option.merge_none_right]
  exact h

theorem add_merge (t u : Tally) (c : Color) (n : Nat) : (t.merge u).add c n = t.merge (u.add c n) := by
  apply congrArg ofFunction
  funext d
  rw [get?_add, get?_merge, get?_merge]
  split
  case isTrue hd =>
    subst hd
    cases t.get? d <;> cases u.get? d <;> simp [Option.merge, Nat.add_assoc]
  case isFalse => rfl

theorem entries_ne_nil_of_get? {c : Color} {n : Nat} (h : t.get? c = some n) : t.entries ≠ [] := by
  intro he
  rw [get?, he] at h
  contradiction

theorem mem_ofFunction_iff {f : Color → Option Nat} {k : Color} {n : Nat} :
    (k, n) ∈ (ofFunction f).entries ↔ f k = some n := by
  simp [ofFunction, Color.mem_all]

theorem keys_ofFunction_sublist (f : Color → Option Nat) :
    ((ofFunction f).entries.map Prod.fst).Sublist Color.all := by
  rw [ofFunction]
  induction Color.all
  case nil => exact .slnil
  case cons c cs ih =>
    cases hf : f c
    case none => simpa [hf] using ih.cons c
    case some n => simpa [hf] using ih.cons_cons c

/-! Totals -/

theorem total_eq_sum (t : Tally) : t.total = (t.entries.map Prod.snd).sum := by
  rw [total, List.sum_eq_foldl, List.foldl_map]

theorem total_ofFunction (f : Color → Option Nat) :
    (ofFunction f).total = (Color.all.map fun c => (f c).getD 0).sum := by
  rw [total_eq_sum, ofFunction]
  induction Color.all
  case nil => rfl
  case cons c cs ih =>
    cases hf : f c
    case none => simpa [hf] using ih
    case some n => simpa [hf] using ih

theorem IsOrdered.total_eq (h : t.IsOrdered) :
    t.total = (Color.all.map fun c => (t.get? c).getD 0).sum := by
  rw [← total_ofFunction, h]

-- More of one colour of a list is as much more of all its colours.
theorem sum_map_raise {cs : List Color} {c : Color} (hn : cs.Nodup) (hc : c ∈ cs) (f : Color → Nat) (n : Nat) :
    (cs.map fun d => if d = c then f c + n else f d).sum = (cs.map f).sum + n := by
  induction cs
  case nil => contradiction
  case cons d cs ih =>
    obtain ⟨hd, hn⟩ := List.nodup_cons.mp hn
    rw [List.map_cons, List.sum_cons, List.map_cons, List.sum_cons]
    by_cases he : d = c
    case pos =>
      subst he
      have hs : (cs.map fun e => if e = d then f d + n else f e) = cs.map f :=
        List.map_congr_left fun e hm => if_neg fun h : e = d => hd (h ▸ hm)
      rw [if_pos rfl, hs, Nat.add_right_comm]
    case neg =>
      rw [if_neg he, ih hn ((List.mem_cons.mp hc).resolve_left (Ne.symm he)), Nat.add_assoc]

theorem IsOrdered.total_add (h : t.IsOrdered) (c : Color) (n : Nat) : (t.add c n).total = t.total + n := by
  have hg : ∀ d, ((if d = c then some ((t.get? c).getD 0 + n) else t.get? d).getD 0) =
      if d = c then (t.get? c).getD 0 + n else (t.get? d).getD 0 := by
    intro d
    split <;> rfl
  simp only [add, total_ofFunction, hg, h.total_eq]
  exact sum_map_raise (by decide) (Color.mem_all c) (fun d => (t.get? d).getD 0) n

end Atelier.Tally
