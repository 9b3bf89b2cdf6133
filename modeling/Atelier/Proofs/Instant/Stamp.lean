import Atelier.Proofs.Decimal.Padded
import Atelier.Proofs.Instant.Calendar

/-!
The stamp of an instant tells its second, and nothing finer.
-/

namespace Atelier

theorem append_cons_inj {x : α} {as bs cs ds : List α} (ha : x ∉ as) (hb : x ∉ bs)
    (h : as ++ x :: cs = bs ++ x :: ds) : as = bs ∧ cs = ds := by
  induction as generalizing bs
  case nil =>
    cases bs
    case nil => exact ⟨rfl, (List.cons.inj h).right⟩
    case cons b bs => exact absurd (List.cons.inj h).left fun he => hb (he ▸ List.mem_cons_self)
  case cons a as ih =>
    cases bs
    case nil => exact absurd (List.cons.inj h).left fun he => ha (he ▸ List.mem_cons_self)
    case cons b bs =>
      simp only [List.cons_append, List.cons.injEq, List.mem_cons, not_or] at h ha hb
      obtain ⟨he, hr⟩ := ih ha.right hb.right h.right
      exact ⟨by rw [h.left, he], hr⟩

namespace Instant

open Decimal

-- An inserted second is the sixtieth of its minute, and so is not the same as the second before it.
def SameSecond (t u : Instant) : Prop :=
  t.seconds / 60 = u.seconds / 60 ∧
    t.seconds % 60 + (t.nanos / 1000000000 : Nat) = u.seconds % 60 + (u.nanos / 1000000000 : Nat)

instance (t u : Instant) : Decidable (SameSecond t u) := by
  unfold SameSecond
  infer_instance

theorem SameSecond.refl (t : Instant) : t.SameSecond t :=
  ⟨rfl, rfl⟩

theorem sameSecond_iff {t u : Instant} (ht : t.nanos < 1000000000) (hu : u.nanos < 1000000000) :
    t.SameSecond u ↔ t.seconds = u.seconds := by
  unfold SameSecond
  rw [Nat.div_eq_of_lt ht, Nat.div_eq_of_lt hu]
  omega

-- A year without a sign begins with a digit.
theorem yearText_injective {y z : Int} (h : yearText y = yearText z) : y = z := by
  have hs : ∀ {n : Nat} {c : Char} {cs : List Char}, padded 4 n = c :: cs → c.isDigit = true :=
    fun h => isDigit_of_mem_padded (h ▸ List.mem_cons_self)
  unfold yearText at h
  by_cases hy : 0 ≤ y ∧ y ≤ 9999
  case pos =>
    rw [if_pos hy] at h
    split at h
    case isTrue =>
      have := padded_injective h
      omega
    case isFalse =>
      have := hs h
      split at this <;> contradiction
  case neg =>
    rw [if_neg hy] at h
    by_cases hz : 0 ≤ z ∧ z ≤ 9999
    case pos =>
      rw [if_pos hz] at h
      have := hs h.symm
      split at this <;> contradiction
    case neg =>
      rw [if_neg hz] at h
      have ⟨hc, hp⟩ := List.cons.inj h
      have := padded_injective hp
      split at hc <;> split at hc <;> first | contradiction | omega

theorem dateText_injective {a b : Int}
    (h : dateText [] (.ofDays a) = dateText [] (.ofDays b)) : a = b := by
  have hm : ∀ days, (padded 2 (Date.ofDays days).month).length = 2 :=
    fun days => length_padded (Nat.lt_of_le_of_lt (Date.month_ofDays_le days) (by decide))
  have hd : ∀ days, (padded 2 (Date.ofDays days).day).length = 2 :=
    fun days => length_padded (Nat.lt_of_le_of_lt (Date.day_ofDays_le days) (by decide))
  simp only [dateText, List.append_nil] at h
  obtain ⟨h, hday⟩ := List.append_inj' h (by rw [hd, hd])
  obtain ⟨hyear, hmonth⟩ := List.append_inj' h (by rw [hm, hm])
  apply Date.ofDays_injective
  rw [Date.mk.injEq]
  exact ⟨yearText_injective hyear, padded_injective hmonth, padded_injective hday⟩

theorem clockText_injective {s t i j : Nat} (hs : s < 86400) (ht : t < 86400)
    (h : clockText [] s i = clockText [] t j) : s / 60 = t / 60 ∧ s % 60 + i = t % 60 + j := by
  have hh : ∀ n < 86400, (padded 2 (n / 3600)).length = 2 :=
    fun n hn => length_padded (Nat.lt_of_lt_of_le (Nat.div_lt_of_lt_mul hn) (by decide : 24 ≤ _))
  have hm : ∀ n, (padded 2 (n / 60 % 60)).length = 2 :=
    fun n => length_padded (Nat.lt_of_lt_of_le (Nat.mod_lt _ (by decide)) (by decide : 60 ≤ _))
  simp only [clockText, List.append_nil] at h
  obtain ⟨h, hsecond⟩ := List.append_inj h (by simp [hh s hs, hh t ht, hm])
  obtain ⟨hhour, hminute⟩ := List.append_inj h (by rw [hh s hs, hh t ht])
  have := padded_injective hhour
  have := padded_injective hminute
  exact ⟨by omega, padded_injective hsecond⟩

theorem underscore_not_mem_dateText (d : Date) : '_' ∉ dateText [] d := by
  have hp : ∀ w n, '_' ∉ padded w n := fun w n h => by simpa using isDigit_of_mem_padded h
  simp only [dateText, yearText]
  split
  case isTrue => simp [hp]
  case isFalse => split <;> simp [hp]

theorem underscore_not_mem_clockText (s i : Nat) : '_' ∉ clockText [] s i := by
  have hp : ∀ w n, '_' ∉ padded w n := fun w n h => by simpa using isDigit_of_mem_padded h
  simp [clockText, hp]

-- Whatever follows the stamp after a mark, the stamp can be read off.
theorem sameSecond_of_stamp_append {t u : Instant} {cs ds : List Char}
    (h : t.stamp.toList ++ '_' :: cs = u.stamp.toList ++ '_' :: ds) : t.SameSecond u ∧ cs = ds := by
  simp only [stamp, String.toList_ofList, List.append_assoc, List.cons_append] at h
  obtain ⟨hdate, h⟩ :=
    append_cons_inj (underscore_not_mem_dateText _) (underscore_not_mem_dateText _) h
  obtain ⟨hclock, h⟩ :=
    append_cons_inj (underscore_not_mem_clockText _ _) (underscore_not_mem_clockText _ _) h
  have hdays := dateText_injective hdate
  have hr : ∀ v : Instant, v.timeOfDay.toNat < 86400 := fun v => by
    simp only [timeOfDay, secondsPerDay]
    omega
  obtain ⟨hminute, hsecond⟩ := clockText_injective (hr t) (hr u) hclock
  simp only [timeOfDay, secondsPerDay] at hdays hminute hsecond
  refine ⟨⟨by omega, ?_⟩, h⟩
  omega

theorem stamp_eq_iff {t u : Instant} : t.stamp = u.stamp ↔ t.SameSecond u := by
  constructor
  case mp =>
    intro h
    have h : t.stamp.toList ++ ['_'] = u.stamp.toList ++ ['_'] := by rw [h]
    exact (sameSecond_of_stamp_append h).left
  case mpr =>
    intro ⟨hm, hs⟩
    simp only [stamp, date, timeOfDay, secondsPerDay, clockText]
    rw [show t.seconds / 86400 = u.seconds / 86400 by omega,
      show (t.seconds % 86400).toNat / 3600 = (u.seconds % 86400).toNat / 3600 by omega,
      show (t.seconds % 86400).toNat / 60 % 60 = (u.seconds % 86400).toNat / 60 % 60 by omega,
      show (t.seconds % 86400).toNat % 60 + t.nanos / 1000000000 =
        (u.seconds % 86400).toNat % 60 + u.nanos / 1000000000 by omega]

end Instant

end Atelier
