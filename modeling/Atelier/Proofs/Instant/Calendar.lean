import Atelier.Instant

/-!
The calendar counts the days without a gap: the date of a day leads back to that day.
-/

namespace Atelier.Date

-- An era has four hundred years and 146097 days, and its years begin in March. The year of a day is
-- computed from the length of a common year, after the leap days before it are taken out.
def yearOf (day : Int) : Int :=
  (day - day / 1460 + day / 36524 - day / 146096) / 365

def yearStart (year : Int) : Int :=
  year * 365 + year / 4 - year / 100 + year / 400

-- At most one leap day is taken out for each day.
theorem yearOf_mono {a b : Int} (h : a ≤ b) : yearOf a ≤ yearOf b := by
  apply Int.ediv_le_ediv (by decide)
  have ha : a / 146096 = a / 36524 / 4 := by omega
  have hb : b / 146096 = b / 36524 / 4 := by omega
  have h₁ : a / 36524 ≤ b / 36524 := Int.ediv_le_ediv (by decide) h
  have h₂ : b / 1460 - a / 1460 ≤ b - a := by omega
  omega

theorem yearOf_first_and_last : ∀ y < 400,
    yearOf (yearStart (y : Nat)) = y ∧ yearOf (yearStart (y + 1 : Nat) - 1) = y := by
  decide +kernel

theorem yearStart_le_iff {day : Int} (h : 0 ≤ day) {y : Nat} (hy : y < 400) :
    yearStart y ≤ day ↔ y ≤ yearOf day := by
  constructor
  case mp =>
    intro hl
    have := yearOf_mono hl
    rwa [(yearOf_first_and_last y hy).left] at this
  case mpr =>
    intro hl
    by_cases hd : yearStart y ≤ day
    case pos => exact hd
    case neg =>
      cases y
      case zero => exact h
      case succ y =>
        have hm := yearOf_mono (by omega : day ≤ yearStart (y + 1 : Nat) - 1)
        rw [(yearOf_first_and_last y (by omega)).right] at hm
        omega

theorem yearOf_bounds {day : Int} (h₀ : 0 ≤ day) (h₁ : day < 146097) :
    0 ≤ yearOf day ∧ yearOf day < 400 := by
  have hl : yearOf day ≤ yearOf 146096 := yearOf_mono (by omega)
  have hs : yearOf 146096 = 399 := by decide +kernel
  exact ⟨yearOf_mono h₀, by omega⟩

-- A day lies in its year.
theorem yearStart_yearOf {day : Int} (h₀ : 0 ≤ day) (h₁ : day < 146097) :
    yearStart (yearOf day) ≤ day ∧ day < yearStart (yearOf day + 1) := by
  have ⟨hp, hl⟩ := yearOf_bounds h₀ h₁
  have ⟨y, hy⟩ := Int.eq_ofNat_of_zero_le hp
  have hn : y < 400 := by omega
  refine ⟨?_, ?_⟩
  case refine_1 => exact hy ▸ (yearStart_le_iff h₀ hn).mpr (Int.le_of_eq hy.symm)
  case refine_2 =>
    by_cases hy' : y + 1 < 400
    case pos =>
      rw [hy]
      exact Int.not_le.mp fun hl => by
        have := (yearStart_le_iff h₀ hy').mp hl
        omega
    case neg =>
      have he : yearOf day + 1 = 400 := by omega
      rw [he]
      exact h₁

-- A year that begins in March ends with the February of the year that is counted next.
theorem yearStart_succ (year : Int) :
    yearStart (year + 1) = yearStart year + if isLeap (year + 1) then 366 else 365 := by
  have hl : isLeap (year + 1) = true ↔
      (year + 1) % 4 = 0 ∧ ((year + 1) % 100 ≠ 0 ∨ (year + 1) % 400 = 0) := by
    simp [isLeap]
  simp only [yearStart, hl]
  split <;> omega

theorem yearStart_era (era year : Int) :
    yearStart (era * 400 + year) = era * 146097 + yearStart year := by
  simp only [yearStart]
  omega

theorem yearStart_succ_le (year : Int) : yearStart (year + 1) ≤ yearStart year + 366 := by
  rw [yearStart_succ]
  split <;> omega

-- The days up to a day of a year that begins in March, which is its month zero.
def marchDays (year month day : Int) : Int :=
  year / 400 * 146097 + (year % 400 * 365 + year % 400 / 4 - year % 400 / 100 +
    ((153 * month + 2) / 5 + day - 1)) - 719468

theorem toDays_march {year month day : Int} (hm : 0 ≤ month) (hd : 0 ≤ day) :
    toDays ⟨year, (month + 3).toNat, day.toNat⟩ = marchDays year month day := by
  have hl : ¬(month + 3).toNat ≤ 2 := by omega
  have hc : ((month + 3).toNat : Int) - 3 = month := by omega
  simp only [toDays, hl, if_false, hc, Int.toNat_of_nonneg hd, marchDays]

theorem toDays_january {year month day : Int} (hm : 10 ≤ month) (hm' : month < 12) (hd : 0 ≤ day) :
    toDays ⟨year + 1, (month - 9).toNat, day.toNat⟩ = marchDays year month day := by
  have hl : (month - 9).toNat ≤ 2 := by omega
  have hc : ((month - 9).toNat : Int) + 9 = month := by omega
  simp only [toDays, hl, if_true, hc, Int.toNat_of_nonneg hd, Int.add_sub_cancel, marchDays]

-- A day of a year that begins in March lies in its month, and in its year.
structure IsMarchDate (year month day : Int) : Prop where
  bounds : 0 ≤ month ∧ month < 12
  pos : 1 ≤ day
  inMonth : (153 * month + 2) / 5 + day ≤ (153 * (month + 1) + 2) / 5
  inYear : (153 * month + 2) / 5 + day ≤ yearStart (year + 1) - yearStart year

-- The parts of the date are those that the day of the era is taken apart into.
theorem ofDays_eq (days : Int) :
    ∃ year month day : Int, IsMarchDate year month day ∧ days = marchDays year month day ∧
      ofDays days = if month < 10 then ⟨year, (month + 3).toNat, day.toNat⟩
        else ⟨year + 1, (month - 9).toNat, day.toNat⟩ := by
  have h₀ : 0 ≤ (days + 719468) % 146097 := by omega
  have h₁ : (days + 719468) % 146097 < 146097 := by omega
  have ⟨hy₀, hy₁⟩ := yearOf_bounds h₀ h₁
  have ⟨hs₀, hs₁⟩ := yearStart_yearOf h₀ h₁
  have hs₂ := yearStart_succ_le (yearOf ((days + 719468) % 146097))
  have he := Int.mul_ediv_add_emod (days + 719468) 146097
  have hyear : ∀ day, (day - day / 1460 + day / 36524 - day / 146096) / 365 = yearOf day :=
    fun _ => rfl
  simp only [ofDays, hyear]
  generalize (days + 719468) / 146097 = era at *
  generalize (days + 719468) % 146097 = day at *
  generalize yearOf day = year at *
  have hst : yearStart year = 365 * year + year / 4 - year / 100 := by
    simp only [yearStart]
    omega
  have hera : (era * 400 + year) / 400 = era := by omega
  have hrest : (era * 400 + year) % 400 = year := by omega
  rw [← hst]
  generalize hd : day - yearStart year = dayOfYear
  refine ⟨era * 400 + year, (5 * dayOfYear + 2) / 153, _, ⟨by omega, by omega, by omega, ?_⟩, ?_, rfl⟩
  case refine_1 =>
    rw [Int.add_assoc, yearStart_era, yearStart_era]
    omega
  case refine_2 =>
    simp only [marchDays, hera, hrest]
    omega

-- The date of a day leads back to that day.
theorem toDays_ofDays (days : Int) : toDays (ofDays days) = days := by
  have ⟨_, _, _, ⟨⟨hm₀, hm₁⟩, hd₀, _, _⟩, hd, he⟩ := ofDays_eq days
  rw [he, hd]
  split
  case isTrue => exact toDays_march hm₀ (by omega)
  case isFalse => exact toDays_january (by omega) hm₁ (by omega)

theorem ofDays_injective {a b : Int} (h : ofDays a = ofDays b) : a = b := by
  rw [← toDays_ofDays a, h, toDays_ofDays]

-- The last month is February. It ends with its year, the others before that.
theorem IsMarchDate.isValid {year month day : Int} (h : IsMarchDate year month day) :
    IsValid (if month < 10 then ⟨year, (month + 3).toNat, day.toNat⟩
      else ⟨year + 1, (month - 9).toNat, day.toNat⟩) := by
  have ⟨⟨hm₀, hm₁⟩, hd, hi, hy⟩ := h
  have ⟨m, hm⟩ := Int.eq_ofNat_of_zero_le hm₀
  have hc : m = 0 ∨ m = 1 ∨ m = 2 ∨ m = 3 ∨ m = 4 ∨ m = 5 ∨ m = 6 ∨ m = 7 ∨ m = 8 ∨ m = 9 ∨
    m = 10 ∨ m = 11 := by omega
  rw [yearStart_succ] at hy
  cases hl : isLeap (year + 1) <;> rw [hl] at hy <;>
    rcases hc with rfl | rfl | rfl | rfl | rfl | rfl | rfl | rfl | rfl | rfl | rfl | rfl <;>
    subst hm <;> simp [IsValid, monthLength, hl] <;> simp at hi hy <;> omega

-- Every day has a date of the calendar.
theorem isValid_ofDays (days : Int) : (ofDays days).IsValid := by
  have ⟨_, _, _, hv, _, he⟩ := ofDays_eq days
  exact he ▸ hv.isValid

theorem month_ofDays_le (days : Int) : (ofDays days).month ≤ 12 :=
  (isValid_ofDays days).left.right

theorem day_ofDays_le (days : Int) : (ofDays days).day ≤ 31 := by
  have ⟨_, _, _, ⟨_, _, hd, _⟩, _, he⟩ := ofDays_eq days
  rw [he]
  split <;> simp only <;> omega

end Atelier.Date
