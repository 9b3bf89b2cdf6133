import Atelier.Proofs.Decimal.Reading
import Atelier.Proofs.Instant.Calendar

/-!
The text of an instant reads back as that instant, whatever the zone that it is written for.
-/

namespace Atelier.Instant

open Decimal

/-! Fields of digits -/

theorem isBlank_eq_false {c : Char} (h : c.isDigit = true) : Text.isBlank c = false := by
  simp only [Char.isDigit, Bool.and_eq_true, decide_eq_true_eq, ge_iff_le, UInt32.le_iff_toNat_le] at h
  have h₀ : 48 ≤ c.toNat := h.left
  have h₉ : c.toNat ≤ 57 := h.right
  simp [Text.isBlank, Text.blanks]
  omega

variable {ds cs : List Char}

theorem dropWhile_isBlank_append (h : AreDigits ds) (cs : List Char) :
    (ds ++ cs).dropWhile Text.isBlank = ds ++ cs := by
  obtain ⟨d, ds, rfl⟩ := List.exists_cons_of_ne_nil h.left
  simp [isBlank_eq_false (h.right d List.mem_cons_self)]

-- As many digits are read as the field has places, whatever comes next.
theorem readNumber_padded {k n : Nat} (h : n < ten (k + 1)) (cs : List Char) :
    readNumber (k + 1) (padded (k + 1) n ++ cs) = some (n, cs) := by
  have hd := areDigits_padded (k + 1) n
  have hl := length_padded h
  have ht : (padded (k + 1) n ++ cs).take (k + 1) = padded (k + 1) n := by
    rw [List.take_append_of_le_length (by omega), List.take_of_length_le (by omega)]
  have hw := takeWhile_isDigit_append hd.right (fun _ h => by contradiction : EndsDigits [])
  rw [List.append_nil] at hw
  simp [readNumber, dropWhile_isBlank_append hd, ht, hw, hd.left, value_padded]

-- A year without a sign has four digits, one with a sign all that there are.
theorem readYear_padded {n : Nat} (h : n ≤ 9999) (cs : List Char) :
    readYear (padded 4 n ++ cs) = some ((n : Int), cs) := by
  have hd := areDigits_padded 4 n
  have hn := readNumber_padded (k := 3) (Nat.lt_succ_of_le h) cs
  have hb := dropWhile_isBlank_append hd cs
  obtain ⟨d, ds, hp⟩ := List.exists_cons_of_ne_nil hd.left
  have hs : d ≠ '-' ∧ d ≠ '+' := by
    have := hd.right d (hp ▸ List.mem_cons_self)
    constructor <;> rintro rfl <;> contradiction
  rw [hp, List.cons_append] at hb hn ⊢
  simp [readYear, hb, hs, hn]

theorem readYear_signed (n : Nat) (hc : EndsDigits cs) :
    readYear ('-' :: (padded 4 n ++ cs)) = some (-(n : Int), cs) ∧
      readYear ('+' :: (padded 4 n ++ cs)) = some ((n : Int), cs) := by
  have hd := areDigits_padded 4 n
  have ht := takeWhile_isDigit_append hd.right hc
  have hm : Text.isBlank '-' = false := rfl
  have hp : Text.isBlank '+' = false := rfl
  simp [readYear, hm, hp, ht, hd.left, value_padded]

theorem readYear_yearText (y : Int) (hc : EndsDigits cs) :
    readYear (yearText y ++ cs) = some (y, cs) := by
  have ⟨hm, hp⟩ := readYear_signed y.natAbs hc
  unfold yearText
  split
  case isTrue hy => rw [readYear_padded (by omega), Int.natAbs_of_nonneg hy.left]
  case isFalse =>
    split
    case isTrue hn =>
      rw [List.cons_append, hm]
      exact congrArg (fun z => some (z, cs)) (by omega)
    case isFalse hn =>
      rw [List.cons_append, hp]
      exact congrArg (fun z => some (z, cs)) (by omega)

theorem expect_cons {c : Char} (h : Text.isBlank c = false) (cs : List Char) :
    expect c (c :: cs) = some cs := by
  simp [expect, h]

theorem readFraction_padded {k n : Nat} (hk : k < 9) (h : n < ten (k + 1)) (hc : EndsDigits cs) :
    readFraction ('.' :: (padded (k + 1) n ++ cs)) = some (n * ten (8 - k), cs) := by
  have hd := areDigits_padded (k + 1) n
  have ht := takeWhile_isDigit_append hd.right hc
  have hn : (padded (k + 1) n).take 9 = padded (k + 1) n :=
    List.take_of_length_le (by rw [length_padded h]; omega)
  have hl : 9 - (k + 1) = 8 - k := by omega
  simp [readFraction, ht, hn, hd.left, value_padded, length_padded h, hl]

-- What may stand behind the time of day.
structure EndsTime (cs : List Char) : Prop where
  digits : EndsDigits cs
  point : ∀ rest, cs ≠ '.' :: rest
  blank : cs.dropWhile Text.isBlank = cs

theorem endsTime_cons {c : Char} (hd : c.isDigit = false) (hp : c ≠ '.') (hb : Text.isBlank c = false)
    (cs : List Char) : EndsTime (c :: cs) where
  digits _ h := by
    cases h
    exact hd
  point _ h := hp (List.cons.inj h).left
  blank := by rw [List.dropWhile_cons_of_neg (by rw [hb]; decide)]

theorem readFraction_fractionText {nanos : Nat} (h : nanos < 1000000000) (he : EndsTime cs) :
    readFraction (fractionText nanos ++ cs) = some (nanos, cs) := by
  have hc := he.digits
  unfold fractionText
  split
  case isTrue hn =>
    rw [hn, List.nil_append, readFraction]
    exact he.point
  case isFalse =>
    split
    case isTrue =>
      rw [List.cons_append, readFraction_padded (k := 2) (by decide) (by simp [ten]; omega) hc]
      simp [ten]
      omega
    case isFalse =>
      split
      case isTrue =>
        rw [List.cons_append, readFraction_padded (k := 5) (by decide) (by simp [ten]; omega) hc]
        simp [ten]
        omega
      case isFalse =>
        rw [List.cons_append, readFraction_padded (k := 8) (by decide) h hc]
        simp [ten]

/-! Instants -/

-- An inserted second is the sixtieth of its minute.
structure IsStorable (t : Instant) : Prop where
  inCalendar : t.InCalendar
  inserted : 1000000000 ≤ t.nanos → t.nanos < 2000000000 ∧ t.seconds % 60 = 59

-- The second that is written, which counts an inserted one.
def second (t : Instant) : Nat :=
  t.timeOfDay.toNat % 60 + t.nanos / 1000000000

theorem dateTime_append (t : Instant) (cs : List Char) :
    t.dateTime ++ cs = yearText t.date.year ++ '-' :: (padded 2 t.date.month ++ '-' ::
      (padded 2 t.date.day ++ 'T' :: (padded 2 (t.timeOfDay.toNat / 3600) ++ ':' ::
        (padded 2 (t.timeOfDay.toNat / 60 % 60) ++ ':' ::
          (padded 2 t.second ++ (fractionText (t.nanos % 1000000000) ++ cs)))))) := by
  simp [dateTime, dateText, clockText, second]

theorem timeOfDay_lt (t : Instant) : t.timeOfDay.toNat < 86400 := by
  simp only [timeOfDay, secondsPerDay]
  omega

theorem toDays_date (t : Instant) :
    t.date.toDays = t.seconds / secondsPerDay ∧
      t.date.toDays * secondsPerDay + t.timeOfDay.toNat = t.seconds := by
  have hd : t.date.toDays = t.seconds / secondsPerDay := Date.toDays_ofDays _
  rw [hd]
  simp only [timeOfDay, secondsPerDay, true_and]
  omega

variable {t : Instant}

-- The sixtieth second of a minute can only be an inserted one.
theorem second_bounds (h : t.IsStorable) :
    t.second ≤ 60 ∧ t.second / 60 = t.nanos / 1000000000 := by
  have hi := h.inserted
  simp only [second, timeOfDay, secondsPerDay]
  omega

theorem fields_inRange (h : t.IsStorable) :
    ¬(¬t.date.IsValid ∨ t.date.toDays < minDay ∨ maxDay < t.date.toDays ∨
      t.timeOfDay.toNat / 3600 > 23 ∨ t.timeOfDay.toNat / 60 % 60 > 59 ∨ t.second > 60) := by
  have hv : t.date.IsValid := Date.isValid_ofDays _
  have ⟨hfirst, hlast⟩ := h.inCalendar
  have ht := t.timeOfDay_lt
  have hs := (second_bounds h).left
  simp only [hv, not_true_eq_false, false_or, t.toDays_date.left]
  omega

-- The fields, added up, are the instant, and what the clocks are ahead is taken off.
theorem ofFields_eq (h : t.IsStorable) (ahead : Int) :
    (⟨t.date.toDays * secondsPerDay + (t.timeOfDay.toNat / 3600 * 3600 +
        t.timeOfDay.toNat / 60 % 60 * 60 + (t.second - t.second / 60) : Nat) - ahead,
      t.nanos % 1000000000 + t.second / 60 * 1000000000⟩ : Instant) = ⟨t.seconds - ahead, t.nanos⟩ := by
  have hd := t.toDays_date.right
  rw [(second_bounds h).right]
  simp only [second]
  exact congr (congrArg Instant.mk (by omega)) (by omega)

theorem bind_eq_some {o : Option α} {f : α → Option β} {a : α} {b : β} (ho : o = some a)
    (hf : f a = some b) : o >>= f = some b := by
  rw [ho]
  exact hf

theorem readChars_dateTime (h : t.IsStorable) {ahead : Int} (he : EndsTime cs)
    (hz : readZone cs = some (ahead, [])) (hi : InCalendar ⟨t.seconds - ahead, t.nanos⟩) :
    readChars (t.dateTime ++ cs) = some ⟨t.seconds - ahead, t.nanos⟩ := by
  have hyear (cs) : readYear (yearText t.date.year ++ '-' :: cs) = some (t.date.year, '-' :: cs) :=
    readYear_yearText _ fun _ h => by
      cases h
      rfl
  have htwo {n : Nat} (h : n < 100) (cs) : readNumber 2 (padded 2 n ++ cs) = some (n, cs) :=
    readNumber_padded (k := 1) h cs
  have hdash (cs) : expect '-' ('-' :: cs) = some cs := expect_cons rfl cs
  have hcolon (cs) : expect ':' (':' :: cs) = some cs := expect_cons rfl cs
  have hfraction := readFraction_fractionText (Nat.mod_lt t.nanos (by decide : 0 < 1000000000)) he
  have hzone : readZone (cs.dropWhile Text.isBlank) = some (ahead, []) := by rw [he.blank, hz]
  have hmonth : t.date.month < 100 := Nat.lt_of_le_of_lt (Date.month_ofDays_le _) (by decide)
  have hday : t.date.day < 100 := Nat.lt_of_le_of_lt (Date.day_ofDays_le _) (by decide)
  have htime := t.timeOfDay_lt
  have hsecond : t.second < 100 := Nat.lt_of_le_of_lt (second_bounds h).left (by decide)
  have hend {u v : Instant} (hv : v.InCalendar) (hu : u = v) :
      (if u.InCalendar then some u else none) = some v := by
    rw [hu, if_pos hv]
  rw [dateTime_append]
  -- The fields are read one after the other, each up to the mark behind it.
  refine bind_eq_some (hyear _) ?_
  refine bind_eq_some (hdash _) (bind_eq_some (htwo hmonth _) ?_)
  refine bind_eq_some (hdash _) (bind_eq_some (htwo hday _) ?_)
  refine bind_eq_some rfl (bind_eq_some (htwo (by omega) _) ?_)
  refine bind_eq_some (hcolon _) (bind_eq_some (htwo (by omega) _) ?_)
  refine bind_eq_some (hcolon _) (bind_eq_some (htwo hsecond _) ?_)
  refine bind_eq_some hfraction (bind_eq_some hzone ?_)
  exact (if_neg (by decide)).trans ((if_neg (fields_inRange h)).trans (hend hi (ofFields_eq h ahead)))

theorem read_text (h : t.IsStorable) : read t.text = some t := by
  have ht : (⟨t.seconds - 0, t.nanos⟩ : Instant) = t := by rw [Int.sub_zero]
  have hz : EndsTime ['Z'] := endsTime_cons (by decide) (by decide) (by decide) []
  rw [read, text, String.toList_ofList, chars,
    readChars_dateTime h hz (by decide : readZone ['Z'] = some (0, [])) (ht.symm ▸ h.inCalendar), ht]

end Atelier.Instant
