import Atelier.Instant

/-!
The order of points in time, and how the time since a fixed point grows along it.
-/

namespace Atelier.Instant

instance : LE Instant :=
  ⟨fun t u => t.seconds < u.seconds ∨ t.seconds = u.seconds ∧ t.nanos ≤ u.nanos⟩

instance (t u : Instant) : Decidable (t ≤ u) :=
  inferInstanceAs (Decidable (_ ∨ _))

-- Clocks show no inserted seconds. The time across such a second is counted from one of its ends only,
-- so it would not grow steadily.
def OnClock (t : Instant) : Prop :=
  t.nanos < 1000000000

instance (t : Instant) : Decidable t.OnClock :=
  inferInstanceAs (Decidable (_ < _))

variable {t u v : Instant}

theorem le_def : t ≤ u ↔ t.seconds < u.seconds ∨ t.seconds = u.seconds ∧ t.nanos ≤ u.nanos :=
  .rfl

theorem since_eq (ht : t.OnClock) (hu : u.OnClock) :
    u.since t = (u.seconds - t.seconds) * 1000000000 + (u.nanos - t.nanos : Int) := by
  have hn : ¬t.nanos ≥ 1000000000 := Nat.not_le.mpr ht
  have hm : ¬u.nanos ≥ 1000000000 := Nat.not_le.mpr hu
  simp only [since, hn, hm, and_false, if_false]

theorem since_mono (ht : t.OnClock) (hu : u.OnClock) (hv : v.OnClock) (h : u ≤ v) :
    u.since t ≤ v.since t := by
  have hn : u.nanos < 1000000000 := hu
  have hs : (u.seconds - t.seconds) * 1000000000 + (u.nanos - t.nanos : Int) ≤
      (v.seconds - t.seconds) * 1000000000 + (v.nanos - t.nanos : Int) := by
    cases le_def.mp h <;> omega
  rwa [since_eq ht hu, since_eq ht hv]

theorem since_anti (ht : t.OnClock) (hu : u.OnClock) (hv : v.OnClock) (h : t ≤ u) :
    v.since u ≤ v.since t := by
  have hn : t.nanos < 1000000000 := ht
  have hs : (v.seconds - u.seconds) * 1000000000 + (v.nanos - u.nanos : Int) ≤
      (v.seconds - t.seconds) * 1000000000 + (v.nanos - t.nanos : Int) := by
    cases le_def.mp h <;> omega
  rwa [since_eq hu hv, since_eq ht hv]

theorem since_self (t : Instant) : t.since t = 0 := by
  have hn : ¬t.timeOfDay < t.timeOfDay := Int.lt_irrefl _
  simp only [since, hn, false_and, if_false, Int.sub_self, Int.zero_mul, Int.add_zero]

-- Times that a clock shows one after another.
structure Pass (ts : List Instant) : Prop where
  onClock : ∀ t ∈ ts, t.OnClock
  ordered : ts.Pairwise (· ≤ ·)

theorem pass_cons_iff {ts : List Instant} :
    Pass (t :: ts) ↔ t.OnClock ∧ (∀ u ∈ ts, t ≤ u) ∧ Pass ts := by
  constructor
  case mp =>
    intro ⟨hc, ho⟩
    obtain ⟨ht, hc⟩ := List.forall_mem_cons.mp hc
    obtain ⟨hl, ho⟩ := List.pairwise_cons.mp ho
    exact ⟨ht, hl, hc, ho⟩
  case mpr =>
    intro ⟨ht, hl, hc, ho⟩
    exact ⟨List.forall_mem_cons.mpr ⟨ht, hc⟩, List.pairwise_cons.mpr ⟨hl, ho⟩⟩

end Atelier.Instant
