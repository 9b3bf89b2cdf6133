import Atelier.Decimal.Dyadic
import Atelier.Proofs.Decimal.Padded

/-!
Literals are read from each of their spellings, up to a character that cannot go on with them. All
integers and all numbers are written as such literals.
-/

namespace Atelier.Decimal

/-! Rows of digits -/

-- No digit comes next.
def EndsDigits (cs : List Char) : Prop :=
  ∀ c ∈ cs.head?, c.isDigit = false

theorem takeWhile_isDigit_append {ds cs : List Char} (hd : ∀ c ∈ ds, c.isDigit = true)
    (hc : EndsDigits cs) : (ds ++ cs).takeWhile Char.isDigit = ds := by
  rw [List.takeWhile_append_of_pos hd]
  cases cs
  case nil => simp
  case cons c cs => simp [hc c rfl]

theorem dropWhile_isDigit_append {ds cs : List Char} (hd : ∀ c ∈ ds, c.isDigit = true)
    (hc : EndsDigits cs) : (ds ++ cs).dropWhile Char.isDigit = cs := by
  rw [List.dropWhile_append_of_pos hd]
  cases cs
  case nil => rfl
  case cons c cs => simp [hc c rfl]

def AreDigits (cs : List Char) : Prop :=
  cs ≠ [] ∧ ∀ c ∈ cs, c.isDigit = true

theorem areDigits_zero : AreDigits ['0'] :=
  ⟨List.cons_ne_nil _ _, fun _ hc => List.mem_singleton.mp hc ▸ rfl⟩

theorem areDigits_digits (n : Nat) : AreDigits (digits n) :=
  ⟨digits_ne_nil n, fun _ => isDigit_of_mem_digits⟩

-- Only zero begins with a zero.
theorem head?_digits {n : Nat} (h : n ≠ 0) : (digits n).head? ≠ some '0' := by
  induction n using Nat.strongRecOn with
  | ind n ih =>
    unfold digits
    split
    case isTrue hn =>
      intro hz
      have hv : digitValue (digitChar n) = 0 := congrArg digitValue (by simpa using hz : _ = '0')
      exact h (digitValue_digitChar hn ▸ hv)
    case isFalse hn =>
      rw [List.head?_append, Option.or_of_isSome (by simp [digits_ne_nil])]
      exact ih (n / 10) (by omega) (by omega)

theorem digits_zero : digits 0 = ['0'] := by
  unfold digits
  rfl

theorem digits_eq_of_head? (n : Nat) (h : (digits n).head? = some '0') : digits n = ['0'] := by
  cases n
  case zero => exact digits_zero
  case succ n => exact absurd h (head?_digits (by omega))

namespace Literal

/-! The parts of a literal -/

-- A literal in the strict form.
structure IsWritten (l : Literal) : Prop where
  whole : AreDigits l.whole
  noLeadingZero : l.whole.head? = some '0' → l.whole = ['0']
  fraction : ∀ ds ∈ l.fraction, AreDigits ds
  exponent : ∀ e ∈ l.exponent, AreDigits e.2

-- What comes next cannot be a part of the literal.
def Ends (cs : List Char) : Prop :=
  ∀ c ∈ cs.head?, c.isDigit = false ∧ c ≠ '.' ∧ c ≠ 'e' ∧ c ≠ 'E'

def fractionText : Option (List Char) → List Char
  | some ds => '.' :: ds
  | none => []

-- The mark of an exponent has either case, and a plus sign may be left out.
inductive IsExponent : Option (Bool × List Char) → List Char → Prop
  | none : IsExponent none []
  | plain {m : Char} {ds : List Char} (hm : m = 'e' ∨ m = 'E') : IsExponent (some (false, ds)) (m :: ds)
  | signed {m : Char} {negative : Bool} {ds : List Char} (hm : m = 'e' ∨ m = 'E') :
    IsExponent (some (negative, ds)) (m :: (if negative then '-' else '+') :: ds)

-- The spellings of a literal only differ in the exponent.
inductive Spells (l : Literal) : List Char → Prop
  | intro {es : List Char} (h : IsExponent l.exponent es) :
    Spells l (sign l.negative ++ (l.whole ++ (fractionText l.fraction ++ es)))

theorem spells_text (l : Literal) : l.Spells l.text := by
  simp only [text, List.append_assoc]
  refine .intro ?_
  cases l.exponent
  case none => exact .none
  case some => exact .signed (.inl rfl)

variable {ds cs : List Char}

theorem spanDigits_append (hd : AreDigits ds) (hc : EndsDigits cs) :
    spanDigits (ds ++ cs) = (ds, cs) := by
  rw [spanDigits, takeWhile_isDigit_append hd.right hc, dropWhile_isDigit_append hd.right hc]

theorem readWhole_append (hd : AreDigits ds) (hz : ds.head? = some '0' → ds = ['0'])
    (hc : EndsDigits cs) : readWhole (ds ++ cs) = some (ds, cs) := by
  by_cases h : ds.head? = some '0'
  case pos =>
    rw [hz h]
    cases cs
    case nil => rfl
    case cons c cs => simp [readWhole, hc c rfl]
  case neg =>
    have hs := spanDigits_append hd hc
    cases ds
    case nil => exact absurd rfl hd.left
    case cons d ds =>
      have hd : d ≠ '0' := by simpa using h
      rw [List.cons_append] at hs ⊢
      simp [readWhole, hd, hs]

theorem readFraction_append {f : Option (List Char)} (hf : ∀ ds ∈ f, AreDigits ds)
    (hc : EndsDigits cs) (hp : cs.head? ≠ some '.') :
    readFraction (fractionText f ++ cs) = some (f, cs) := by
  cases f
  case none =>
    cases cs
    case nil => rfl
    case cons c cs => simp_all [fractionText, readFraction]
  case some ds =>
    have hs := spanDigits_append (hf ds rfl) hc
    have := (hf ds rfl).left
    simp [fractionText, readFraction, hs]

variable {e : Option (Bool × List Char)} {es : List Char}

theorem readExponent_append (h : IsExponent e es) (he : ∀ p ∈ e, AreDigits p.2) (hc : Ends cs) :
    readExponent (es ++ cs) = some (e, cs) := by
  have hd : EndsDigits cs := fun c h => (hc c h).left
  cases h
  case none =>
    cases cs
    case nil => rfl
    case cons c cs =>
      have ⟨_, _, hs, hl⟩ := hc c rfl
      simp [readExponent, hs, hl]
  case plain m ds hm =>
    obtain ⟨hn, hds⟩ := he _ rfl
    have hs := spanDigits_append ⟨hn, hds⟩ hd
    -- The first digit is not a sign.
    cases ds
    case nil => contradiction
    case cons d ds =>
      have hp : d ≠ '+' := fun h => by simpa [h] using hds d List.mem_cons_self
      have hm' : d ≠ '-' := fun h => by simpa [h] using hds d List.mem_cons_self
      rw [List.cons_append] at hs
      simp [readExponent, hm, hp, hm', hs]
  case signed m negative ds hm =>
    have hs := spanDigits_append (he _ rfl) hd
    have := (he _ rfl).left
    cases negative <;> simp [readExponent, hm, hs]

theorem IsExponent.endsDigits (h : IsExponent e es) (hc : Ends cs) :
    EndsDigits (es ++ cs) ∧ (es ++ cs).head? ≠ some '.' := by
  cases h
  case none => exact ⟨fun c h => (hc c h).left, fun h => (hc _ h).right.left rfl⟩
  case plain hm => rcases hm with rfl | rfl <;> exact ⟨fun c h => by cases h; rfl, nofun⟩
  case signed hm => rcases hm with rfl | rfl <;> exact ⟨fun c h => by cases h; rfl, nofun⟩

theorem endsDigits_fractionText (f : Option (List Char)) (hc : EndsDigits cs) :
    EndsDigits (fractionText f ++ cs) := by
  cases f
  case none => exact hc
  case some ds =>
    intro c h
    cases h
    rfl

theorem read_append {l : Literal} (h : l.IsWritten) (hl : l.Spells ds) (hc : Ends cs) :
    read (ds ++ cs) = some (l, cs) := by
  obtain ⟨hs⟩ := hl
  have ⟨he, hp⟩ := hs.endsDigits hc
  have hw := readWhole_append h.whole h.noLeadingZero (endsDigits_fractionText l.fraction he)
  have hf := readFraction_append h.fraction he hp
  have hx := readExponent_append hs h.exponent hc
  obtain ⟨negative, whole, fraction, exponent⟩ := l
  simp only [List.append_assoc] at *
  cases negative
  case true => simp [sign, read, hw, hf, hx]
  case false =>
    cases whole
    case nil => exact absurd rfl h.whole.left
    case cons d ds =>
      have hd : d ≠ '-' := fun hd => by simpa [hd] using h.whole.right d List.mem_cons_self
      rw [List.cons_append] at hw
      simp [sign, read, hd, hw, hf, hx]

theorem Spells.eq_cons {l : Literal} (hl : l.Spells ds) (h : l.IsWritten) :
    ∃ c cs, ds = c :: cs ∧ (c = '-' ∨ c.isDigit = true) := by
  have ⟨hn, hd⟩ := h.whole
  obtain ⟨_⟩ := hl
  cases l.negative
  case true => exact ⟨_, _, rfl, .inl rfl⟩
  case false =>
    have ⟨c, cs, hw⟩ := List.exists_cons_of_ne_nil hn
    rw [hw]
    exact ⟨c, _, rfl, .inr (hd c (hw ▸ List.mem_cons_self))⟩

/-! Integers -/

theorem isWritten_ofInt (i : Int) : (ofInt i).IsWritten where
  whole := areDigits_digits i.natAbs
  noLeadingZero := digits_eq_of_head? _
  fraction _ h := by contradiction
  exponent _ h := by contradiction

theorem int?_ofInt (i : Int) : (ofInt i).int? = some i := by
  simp only [int?, ofInt, value_digits, decide_eq_true_eq]
  split
  case isTrue hn =>
    rw [if_neg (by omega)]
    exact congrArg some (by omega)
  case isFalse hn => exact congrArg some (by omega)

end Literal

/-! Shortest texts of numbers -/

open Literal

variable {ds : List Char}

theorem AreDigits.take (h : AreDigits ds) {k : Nat} (hk : k ≠ 0) : AreDigits (ds.take k) :=
  ⟨by simp [hk, h.left], fun _ hc => h.right _ (List.mem_of_mem_take hc)⟩

theorem AreDigits.drop (h : AreDigits ds) {k : Nat} (hk : k < ds.length) : AreDigits (ds.drop k) :=
  ⟨by simpa using hk, fun _ hc => h.right _ (List.mem_of_mem_drop hc)⟩

theorem AreDigits.append_zeros (h : AreDigits ds) (k : Nat) :
    AreDigits (ds ++ List.replicate k '0') := by
  refine ⟨by simp [h.left], fun c hc => ?_⟩
  rcases List.mem_append.mp hc with hc | hc
  case inl => exact h.right c hc
  case inr => exact List.eq_of_mem_replicate hc ▸ rfl

theorem areDigits_padded (width n : Nat) : AreDigits (padded width n) :=
  ⟨by simp [padded, digits_ne_nil], fun _ => isDigit_of_mem_padded⟩

theorem length_padded_eq_max (width n : Nat) :
    (padded width n).length = max width (digits n).length := by
  simp [padded]
  omega

theorem take_one_eq_of_head? {c : Char} (h : (ds.take 1).head? = some c) : ds.take 1 = [c] := by
  cases ds
  case nil => contradiction
  case cons => simpa using h

-- There are zeros in front only if a single digit stands before the point.
theorem take_padded_eq_of_head? {places n : Nat}
    (h : ((padded (places + 1) n).take ((padded (places + 1) n).length - places)).head? = some '0') :
    (padded (places + 1) n).take ((padded (places + 1) n).length - places) = ['0'] := by
  have hl := length_padded_eq_max (places + 1) n
  by_cases hd : (digits n).length ≤ places + 1
  case pos =>
    have h₁ : (padded (places + 1) n).length - places = 1 := by omega
    rw [h₁] at h ⊢
    exact take_one_eq_of_head? h
  case neg =>
    have hp : padded (places + 1) n = digits n := by
      rw [padded, Nat.sub_eq_zero_of_le (by omega)]
      rfl
    rw [hp, List.head?_take, if_neg (by omega)] at h
    simp [digits_eq_of_head? n h] at hd

/-! The three forms of a number: with zeros behind its digits, with a point among them, with an exponent -/

theorem isWritten_integral (negative : Bool) {n : Nat} (hn : n ≠ 0) (zeros : Nat) :
    Literal.IsWritten ⟨negative, digits n ++ List.replicate zeros '0', some ['0'], none⟩ where
  whole := (areDigits_digits n).append_zeros _
  noLeadingZero h := by
    rw [List.head?_append, Option.or_of_isSome (by simp [digits_ne_nil])] at h
    exact absurd h (head?_digits hn)
  fraction _ h := by
    cases h
    exact areDigits_zero
  exponent _ h := by contradiction

theorem isWritten_pointed (negative : Bool) (n : Nat) {places : Nat} (hp : places ≠ 0) :
    Literal.IsWritten ⟨negative,
      (padded (places + 1) n).take ((padded (places + 1) n).length - places),
      some ((padded (places + 1) n).drop ((padded (places + 1) n).length - places)), none⟩ where
  whole := by
    have hl := length_padded_eq_max (places + 1) n
    exact (areDigits_padded _ _).take (by omega)
  noLeadingZero := take_padded_eq_of_head?
  fraction _ h := by
    have hl := length_padded_eq_max (places + 1) n
    cases h
    exact (areDigits_padded _ _).drop (by omega)
  exponent _ h := by contradiction

theorem isWritten_powered (negative below : Bool) (n power : Nat) :
    Literal.IsWritten ⟨negative, (digits n).take 1,
      if (digits n).length = 1 then none else some ((digits n).drop 1),
      some (below, digits power)⟩ where
  whole := (areDigits_digits n).take (by decide)
  noLeadingZero := take_one_eq_of_head?
  fraction ds h := by
    split at h
    case isTrue => contradiction
    case isFalse hn =>
      cases h
      have := List.length_pos_iff.mpr (digits_ne_nil n)
      exact (areDigits_digits n).drop (by omega)
  exponent _ h := by
    cases h
    exact areDigits_digits _

theorem isWritten_scientific {range : PositionalRange} {negative : Bool} {n : Nat} {k : Int}
    (h : n ≠ 0 ∨ range.greatest < k) : (scientific range negative n k).IsWritten := by
  simp only [scientific]
  split
  case isTrue hr =>
    split
    case isTrue hk =>
      -- Zero has a single digit, so with such an exponent it is out of the range.
      have hn : n ≠ 0 := fun hn => by
        have hl : (digits n).length = 1 := by rw [hn, digits_zero, List.length_singleton]
        omega
      exact isWritten_integral negative hn _
    case isFalse hk => exact isWritten_pointed negative n (by omega)
  case isFalse => exact isWritten_powered negative _ n _

theorem stripZeros_ne_zero (fuel : Nat) {n : Nat} (h : n ≠ 0) (k : Int) :
    (stripZeros fuel n k).1 ≠ 0 := by
  induction fuel generalizing n k
  case zero => exact h
  case succ fuel ih =>
    rw [stripZeros]
    split
    case isTrue => exact ih (by omega) _
    case isFalse => exact h

theorem Interval.ne_zero_of_nearest? {i : Interval} {top : Int} {count : Nat} {p : Nat × Int}
    (h : i.nearest? top count = some p) : p.1 ≠ 0 := by
  obtain ⟨k, hk, hp⟩ := Option.map_eq_some_iff.mp h
  have hk := List.find?_some hk
  cases hp
  simp only [Bool.and_eq_true, bne_iff_ne] at hk
  exact hk.left

-- Were there no digits in the interval, the digit zero with all its zeros taken off would stand for it.
theorem Interval.shortest_cases (i : Interval) : i.shortest.1 ≠ 0 ∨ i.shortest = (0, 17) := by
  simp only [shortest]
  cases h : (List.range 17).findSome? fun j => i.nearest? (magnitude i.value i.denominator) (j + 1)
  case none => exact .inr rfl
  case some p =>
    obtain ⟨_, _, hp⟩ := List.exists_of_findSome?_eq_some h
    exact .inl (stripZeros_ne_zero 17 (ne_zero_of_nearest? hp) p.2)

theorem isWritten_of_shortest? {range : PositionalRange} (hr : range.greatest < 17) {x : Float}
    {l : Literal} (h : shortest? range x = some l) : l.IsWritten := by
  simp only [shortest?, shortestReading?] at h
  split at h
  case h_1 =>
    cases h
    exact {
      whole := areDigits_zero
      noLeadingZero := fun _ => rfl
      fraction := fun _ hf => by
        cases hf
        exact areDigits_zero
      exponent := fun _ he => by contradiction }
  case h_2 m e _ _ =>
    cases h
    apply isWritten_scientific
    rcases (Interval.of m e).shortest_cases with hn | hz
    case inl => exact .inl hn
    case inr => exact .inr (hz ▸ hr)
  case h_3 => contradiction

end Atelier.Decimal
