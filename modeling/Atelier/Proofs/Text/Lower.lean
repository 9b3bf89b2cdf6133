import Atelier.Text
import Mathlib.Data.List.Basic

/-!
Small letters. Capitals of ASCII become small, and only two other characters are replaced at all. So no capital
of ASCII is left, and a character of ASCII has been there before, as a capital at least, unless it comes from one of
those two.
-/

namespace Atelier.Text

theorem isUpper_iff {c : Char} : c.isUpper = true ↔ 65 ≤ c.toNat ∧ c.toNat ≤ 90 :=
  decide_eq_true_iff

-- There are so few capitals that they can be tried one after the other.
theorem of_isUpper {P : Char → Prop} (h : ∀ n < 26, P (Char.ofNat (65 + n))) {c : Char}
    (hc : c.isUpper = true) : P c := by
  have ⟨hl, hu⟩ := isUpper_iff.mp hc
  have hp := h (c.toNat - 65) (by omega)
  rwa [Nat.add_sub_cancel' hl, Char.ofNat_toNat] at hp

-- The sign of the kelvin and the capital i with a dot are the only characters outside ASCII whose small letters
-- have to do with it.
structure IsSmall (c : Char) : Prop where
  isUpper : c.isUpper = false
  kelvin  : c ≠ '\u212a'
  dotted  : c ≠ '\u0130'

inductive Lowers : Char → List Char → Prop
  | capital {c : Char} : c.isUpper = true → Lowers c [Char.ofNat (c.toNat + 32)]
  | small {c : Char} : IsSmall c → Lowers c [c]
  | kelvin : Lowers '\u212a' ['k']
  | dotted : Lowers '\u0130' ['i', '\u0307']

theorem lowerChar_of_isSmall {c : Char} (h : IsSmall c) : lowerChar c = [c] := by
  have hc : c.toLower = c := dif_neg (of_decide_eq_false h.isUpper)
  rw [lowerChar, if_neg h.kelvin, if_neg h.dotted, hc]

theorem lowerChar_of_isUpper {c : Char} (h : c.isUpper = true) : lowerChar c = [Char.ofNat (c.toNat + 32)] :=
  of_isUpper (P := fun c => lowerChar c = [Char.ofNat (c.toNat + 32)]) (by decide) h

theorem isSmall_of_isUpper {c : Char} (h : c.isUpper = true) : IsSmall (Char.ofNat (c.toNat + 32)) where
  isUpper := of_isUpper (P := fun c => (Char.ofNat (c.toNat + 32)).isUpper = false) (by decide) h
  kelvin  := of_isUpper (P := fun c => Char.ofNat (c.toNat + 32) ≠ '\u212a') (by decide) h
  dotted  := of_isUpper (P := fun c => Char.ofNat (c.toNat + 32) ≠ '\u0130') (by decide) h

theorem lowers_lowerChar (c : Char) : Lowers c (lowerChar c) := by
  by_cases hk : c = '\u212a'
  case pos => exact hk ▸ .kelvin
  case neg =>
    by_cases hd : c = '\u0130'
    case pos => exact hd ▸ .dotted
    case neg =>
      cases hu : c.isUpper
      case true => exact lowerChar_of_isUpper hu ▸ .capital hu
      case false =>
        have hs : IsSmall c := ⟨hu, hk, hd⟩
        exact lowerChar_of_isSmall hs ▸ .small hs

namespace Lowers

variable {c d : Char} {ds : List Char}

theorem isSmall (h : Lowers c ds) (hd : d ∈ ds) : IsSmall d := by
  cases h
  case capital hu => exact List.mem_singleton.mp hd ▸ isSmall_of_isUpper hu
  case small hs => exact List.mem_singleton.mp hd ▸ hs
  case kelvin => exact List.mem_singleton.mp hd ▸ ⟨by decide, by decide, by decide⟩
  case dotted =>
    cases List.mem_pair.mp hd
    all_goals
      subst d
      exact ⟨by decide, by decide, by decide⟩

theorem length_eq (h : Lowers c ds) : ds.length = 1 + if c = '\u0130' then 1 else 0 := by
  cases h
  case capital hu =>
    have hd : c ≠ '\u0130' := by
      rintro rfl
      contradiction
    rw [if_neg hd]
    rfl
  case small hs =>
    rw [if_neg hs.dotted]
    rfl
  all_goals rfl

end Lowers

/-! Texts -/

variable {d : Char} {cs : List Char}

theorem lower_cons (c : Char) (cs : List Char) : lower (c :: cs) = lowerChar c ++ lower cs :=
  List.flatMap_cons

theorem lower_eq_self (h : ∀ c ∈ cs, IsSmall c) : lower cs = cs := by
  induction cs
  case nil => rfl
  case cons c cs hi =>
    have ⟨hc, hcs⟩ := List.forall_mem_cons.mp h
    rw [lower_cons, lowerChar_of_isSmall hc, hi hcs]
    rfl

theorem isSmall_of_mem_lower (h : d ∈ lower cs) : IsSmall d :=
  have ⟨c, _, hd⟩ := List.mem_flatMap.mp h
  (lowers_lowerChar c).isSmall hd

theorem lower_lower (cs : List Char) : lower (lower cs) = lower cs :=
  lower_eq_self fun _ => isSmall_of_mem_lower

-- A capital i with a dot is the only character that becomes longer.
theorem length_lower (cs : List Char) : (lower cs).length = cs.length + cs.count '\u0130' := by
  induction cs
  case nil => rfl
  case cons c cs hi =>
    rw [lower_cons, List.length_append, (lowers_lowerChar c).length_eq, hi, List.length_cons, List.count_cons]
    simp only [beq_iff_eq]
    omega

theorem origin_of_mem_lower (h : d ∈ lower cs) (ha : d.toNat < 128) :
    d ∈ cs ∨ (∃ c ∈ cs, c.isUpper = true ∧ d = Char.ofNat (c.toNat + 32)) ∨
      '\u212a' ∈ cs ∧ d = 'k' ∨ '\u0130' ∈ cs ∧ d = 'i' := by
  have ⟨c, hc, hd⟩ := List.mem_flatMap.mp h
  have hl := lowers_lowerChar c
  generalize lowerChar c = ds at hd hl
  cases hl
  case capital hu => exact .inr (.inl ⟨c, hc, hu, List.mem_singleton.mp hd⟩)
  case small => exact .inl (List.mem_singleton.mp hd ▸ hc)
  case kelvin => exact .inr (.inr (.inl ⟨hc, List.mem_singleton.mp hd⟩))
  case dotted =>
    cases List.mem_pair.mp hd
    case inl hi => exact .inr (.inr (.inr ⟨hc, hi⟩))
    case inr ht =>
      -- The dot itself is outside ASCII.
      subst d
      contradiction

end Atelier.Text
