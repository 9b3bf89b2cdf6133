import Atelier.Proofs.Instant.Reading
import Atelier.Zone

/-!
Local times. Their texts tell the instant. What the clocks show does not: they show the same once more when
they are turned back.
-/

namespace Atelier

open Decimal

namespace Instant

theorem twoDigits_padded {n : Nat} (h : n < 100) (cs : List Char) :
    twoDigits (padded 2 n ++ cs) = some (n, cs) := by
  have hl : (padded 2 n).length = 2 := length_padded h
  have ⟨a, as, hp⟩ := List.exists_cons_of_length_eq_add_one hl
  have ⟨b, hb⟩ : ∃ b, as = [b] := List.length_eq_one_iff.mp (by simpa [hp] using hl)
  have hd := (areDigits_padded 2 n).right
  have hv := value_padded 2 n
  rw [hp, hb] at hd hv ⊢
  simp [twoDigits, hd, hv]

theorem dropWhile_padded (n : Nat) :
    (padded 2 n).dropWhile (fun c => c = ':' || Text.isBlank c) = padded 2 n := by
  have hd := areDigits_padded 2 n
  have ⟨d, ds, hp⟩ := List.exists_cons_of_ne_nil hd.left
  have hd := hd.right d (hp ▸ List.mem_cons_self)
  have hc : d ≠ ':' := by
    rintro rfl
    contradiction
  simp [hp, hc, isBlank_eq_false hd]

theorem readZone_signed {n : Nat} (h : n < 1440) :
    readZone ('-' :: (padded 2 (n / 60) ++ ':' :: padded 2 (n % 60))) = some (-(n * 60 : Int), []) ∧
      readZone ('+' :: (padded 2 (n / 60) ++ ':' :: padded 2 (n % 60))) = some ((n * 60 : Int), []) := by
  have hh (cs) : twoDigits (padded 2 (n / 60) ++ cs) = some (n / 60, cs) :=
    twoDigits_padded (by omega) cs
  have hm : twoDigits (padded 2 (n % 60)) = some (n % 60, []) := by
    have := twoDigits_padded (n := n % 60) (by omega) []
    rwa [List.append_nil] at this
  have hb : n % 60 < 60 ∧ n / 60 < 24 := by omega
  constructor
  all_goals
    simp [readZone, hh, dropWhile_padded, hm, hb]
    omega

end Instant

namespace LocalTime

open Instant

theorem readZone_aheadText {ahead : Int} (hm : ahead % 60 = 0) (h : ahead.natAbs < 86400) :
    readZone (aheadText ahead) = some (ahead, []) := by
  have ⟨hbehind, hahead⟩ := readZone_signed (n := (ahead.natAbs + 30) / 60) (by omega)
  unfold aheadText
  split
  case isTrue hz =>
    rw [hz]
    decide
  case isFalse =>
    simp only
    split
    case isTrue hn =>
      rw [hbehind]
      exact congrArg (fun z => some (z, [])) (by omega)
    case isFalse hn =>
      rw [hahead]
      exact congrArg (fun z => some (z, [])) (by omega)

theorem endsTime_aheadText (ahead : Int) : EndsTime (aheadText ahead) := by
  unfold aheadText
  split
  case isTrue => exact endsTime_cons (by decide) (by decide) (by decide) _
  case isFalse =>
    simp only
    split
    all_goals exact endsTime_cons (by decide) (by decide) (by decide) _

-- Zones are ahead by whole minutes nowadays. Seconds beyond them are lost in the text.
theorem read_text {t : LocalTime} (hs : t.shown.IsStorable) (hi : t.instant.InCalendar)
    (hm : t.ahead % 60 = 0) : Instant.read t.text = some t.instant := by
  have ht : (⟨t.shown.seconds - t.ahead, t.shown.nanos⟩ : Instant) = t.instant := by
    simp [shown]
  rw [Instant.read, text, String.toList_ofList, readChars_dateTime hs (endsTime_aheadText _)
    (readZone_aheadText hm t.natAbs_ahead_lt) (ht.symm ▸ hi), ht]

end LocalTime

namespace Zone

theorem shown_utc (t : Instant) : (utc.localTime t).shown = t := by
  simp [utc, localTime, LocalTime.shown]

theorem text_utc (t : Instant) : (utc.localTime t).text = t.text := by
  rw [LocalTime.text, shown_utc, Instant.text, Instant.chars]
  rfl

-- Clocks that are turned back by as much as has passed show the same once more.
theorem shown_eq_of_turned_back {z : Zone} {t u : Instant} (hn : t.nanos = u.nanos)
    (h : z.ahead t = z.ahead u + (u.seconds - t.seconds)) :
    (z.localTime t).shown = (z.localTime u).shown := by
  simp only [localTime, LocalTime.shown, h, hn]
  congr 1
  omega

-- The clocks of New York in 2026.
def newYork : Zone where
  ahead t := if 1772953200 ≤ t.seconds ∧ t.seconds < 1793512800 then -14400 else -18000
  natAbs_ahead_lt t := by split <;> decide

example :
    (newYork.localTime ⟨1793511000, 0⟩).shown.stamp = "20261101_013000" ∧
    (newYork.localTime ⟨1793514600, 0⟩).shown.stamp = "20261101_013000" ∧
    (newYork.localTime ⟨1793511000, 0⟩).text = "2026-11-01T01:30:00-04:00" ∧
    (newYork.localTime ⟨1793514600, 0⟩).text = "2026-11-01T01:30:00-05:00" := by
  decide +kernel

end Zone

end Atelier
