/-!
Arithmetic in words of a fixed size. A number that leaves its word is not wrapped around: it stops
the computation with a `Fault`.
-/

namespace Atelier

/-- The ways in which a computation is stopped for good. -/
inductive Fault
  | overflow
  | spanTooLong
  | notAProbability
deriving DecidableEq, Repr

/-- A computation that may be stopped by a fault. -/
abbrev Checked := Except Fault

namespace Checked

/-- Signed words of 32 bits. -/
def Fits32 (i : Int) : Prop := -2147483648 ≤ i ∧ i ≤ 2147483647

instance (i : Int) : Decidable (Fits32 i) := by unfold Fits32; infer_instance

/-- Signed words of 64 bits. -/
def Fits64 (i : Int) : Prop := -9223372036854775808 ≤ i ∧ i ≤ 9223372036854775807

instance (i : Int) : Decidable (Fits64 i) := by unfold Fits64; infer_instance

def int32 (i : Int) : Checked Int :=
  if Fits32 i then .ok i else .error .overflow

def int64 (i : Int) : Checked Int :=
  if Fits64 i then .ok i else .error .overflow

def nat32 (n : Nat) : Checked Nat :=
  if n < 4294967296 then .ok n else .error .overflow

def nat64 (n : Nat) : Checked Nat :=
  if n < 18446744073709551616 then .ok n else .error .overflow

theorem int32_eq_ok_iff {i j : Int} : int32 i = .ok j ↔ Fits32 i ∧ i = j := by
  unfold int32
  split <;> simp_all

theorem nat64_eq_ok_iff {n m : Nat} : nat64 n = .ok m ↔ n < 18446744073709551616 ∧ n = m := by
  by_cases h : n < 18446744073709551616 <;> simp [nat64, h]

-- The sums `start + k` for `k < count` grow with `k`, so the first and the last of them decide
-- whether all of them fit.
def run32 (start : Int) (count : Nat) : Checked Unit := do
  if count = 0 then
    return ()
  discard <| int32 start
  discard <| int32 (start + count - 1)

def run64 (start : Int) (count : Nat) : Checked Unit := do
  if count = 0 then
    return ()
  discard <| int64 start
  discard <| int64 (start + count - 1)

end Checked

end Atelier
