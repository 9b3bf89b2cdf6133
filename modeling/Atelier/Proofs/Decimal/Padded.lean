import Atelier.Decimal.Digits

/-!
The digits of numbers. In a fixed number of digits, numbers can be told apart by them.
-/

namespace Atelier.Decimal

theorem not_mem_toDigits {k : Char} (h : ¬k.isDigit) (n : Nat) : k ∉ Nat.toDigits 10 n :=
  fun hk => h (Nat.isDigit_of_mem_toDigits (by decide) (by decide) hk)

theorem not_mem_repr {k : Char} (h : ¬k.isDigit) (n : Nat) : k ∉ n.repr.toList := by
  rw [Nat.toList_repr]
  exact not_mem_toDigits h n

theorem value_cons_zero (cs : List Char) : value ('0' :: cs) = value cs := by
  simp [value, valueFrom, digitValue]

theorem value_padded (width n : Nat) : value (padded width n) = n := by
  simp only [padded]
  induction width - (digits n).length
  case zero => exact value_digits n
  case succ k ih => rwa [List.replicate_succ, List.cons_append, value_cons_zero]

theorem padded_injective {width m n : Nat} (h : padded width m = padded width n) : m = n := by
  rw [← value_padded width m, h, value_padded]

theorem isDigit_of_mem_padded {width n : Nat} {c : Char} (h : c ∈ padded width n) :
    c.isDigit = true := by
  simp only [padded, List.mem_append, List.mem_replicate] at h
  cases h
  case inl h =>
    rw [h.right]
    rfl
  case inr h => exact isDigit_of_mem_digits h

theorem length_digits_le {n k : Nat} (h : n < ten (k + 1)) : (digits n).length ≤ k + 1 := by
  induction k generalizing n
  case zero =>
    have h : n < 10 := h
    simp [digits, h]
  case succ k hi =>
    have ht : ten (k + 1 + 1) = ten (k + 1) * 10 := rfl
    have := hi (n := n / 10) (by omega)
    unfold digits
    split <;> simp [this]

theorem length_padded {n k : Nat} (h : n < ten (k + 1)) : (padded (k + 1) n).length = k + 1 := by
  have := length_digits_le h
  simp [padded]
  omega

end Atelier.Decimal
