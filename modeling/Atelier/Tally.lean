import Atelier.Palette

/-!
Tallies: how many cells of each colour. A tally lists its colours in the order of the palette, each
at most once; a colour may be listed with zero cells.
-/

namespace Atelier

structure Tally where
  entries : List (Color × Nat)
deriving DecidableEq

namespace Tally

def empty : Tally := ⟨[]⟩

def get? (t : Tally) (c : Color) : Option Nat :=
  t.entries.lookup c

/-- The tally that gives each colour the number that a function gives it. -/
def ofFunction (f : Color → Option Nat) : Tally :=
  ⟨Color.all.filterMap fun c => (f c).map (c, ·)⟩

/-- Adds cells of one colour. -/
def add (t : Tally) (c : Color) (n : Nat) : Tally :=
  .ofFunction fun d => if d = c then some ((t.get? c).getD 0 + n) else t.get? d

def length (t : Tally) : Nat := t.entries.length

def total (t : Tally) : Nat := t.entries.foldl (fun n e => n + e.2) 0

theorem lookup_filterMap (f : Color → Option Nat) (c : Color) (cs : List Color) (h : c ∈ cs) :
    (cs.filterMap fun d => (f d).map (d, ·)).lookup c = f c := by
  induction cs with
  | nil => cases h
  | cons d cs ih =>
    by_cases hd : d = c
    · subst hd
      cases hf : f d with
      | some n => simp [hf]
      | none =>
        simp only [List.filterMap_cons, hf, Option.map_none]
        by_cases hm : d ∈ cs
        · rw [ih hm, hf]
        · rw [List.lookup_eq_none_iff]
          simp only [List.mem_filterMap, Option.map_eq_some_iff]
          rintro p ⟨e, he, n, _, rfl⟩
          simp only [bne_iff_ne, ne_eq]
          rintro rfl
          exact hm he
    · have hc : c ∈ cs := by simpa [Ne.symm hd] using h
      have hb : (c == d) = false := by simpa using Ne.symm hd
      cases hf : f d with
      | some n => simpa [List.filterMap_cons, hf, List.lookup_cons, hb] using ih hc
      | none => simpa [List.filterMap_cons, hf] using ih hc

@[simp]
theorem get?_ofFunction (f : Color → Option Nat) (c : Color) : (ofFunction f).get? c = f c :=
  lookup_filterMap f c Color.all (Color.mem_all c)

@[simp]
theorem get?_empty (c : Color) : empty.get? c = none := rfl

theorem get?_add (t : Tally) (c d : Color) (n : Nat) :
    (t.add c n).get? d = if d = c then some ((t.get? c).getD 0 + n) else t.get? d := by
  simp [add]

end Tally

end Atelier
