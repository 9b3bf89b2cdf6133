import Atelier.Checked

/-!
Computations that were not stopped: each of their steps has a value. One that was stopped was stopped by the
first step that has none.
-/

namespace Atelier.Checked

@[simp]
theorem bind_eq_ok_iff {x : Checked α} {f : α → Checked β} {b : β} :
    x >>= f = .ok b ↔ ∃ a, x = .ok a ∧ f a = .ok b := by
  cases x <;> simp [bind, Except.bind]

@[simp]
theorem pure_eq_ok_iff {a b : α} : (pure a : Checked α) = .ok b ↔ a = b := by
  simp [pure, Except.pure]

-- The first of two values is kept.
theorem fst_eq_ok_iff {x : Checked (α × β)} {a : α} :
    (do
      let (a, _) ← x
      return a) = .ok a ↔ ∃ b, x = .ok (a, b) := by
  rw [bind_eq_ok_iff]
  constructor
  case mp =>
    rintro ⟨⟨_, b⟩, hx, h⟩
    cases h
    exact ⟨b, hx⟩
  case mpr =>
    rintro ⟨b, hx⟩
    exact ⟨(a, b), hx, rfl⟩

theorem ok_bind (a : α) (f : α → Checked β) : ((.ok a : Checked α) >>= f) = f a :=
  rfl

theorem int32_of_fits {i : Int} (h : Fits32 i) : int32 i = .ok i :=
  if_pos h

theorem int32_of_not_fits {i : Int} (h : ¬Fits32 i) : int32 i = .error .overflow :=
  if_neg h

theorem int64_of_fits {i : Int} (h : Fits64 i) : int64 i = .ok i :=
  if_pos h

theorem int64_of_not_fits {i : Int} (h : ¬Fits64 i) : int64 i = .error .overflow :=
  if_neg h

theorem discard_ok (a : α) : discard (.ok a : Checked α) = .ok () :=
  rfl

theorem forM_eq_ok {f : α → Checked PUnit} {as : List α} (h : ∀ a ∈ as, f a = .ok ()) :
    as.forM f = .ok () := by
  induction as
  case nil => rfl
  case cons a as ih =>
    show (f a >>= fun _ => as.forM f) = .ok ()
    rw [h a List.mem_cons_self, ok_bind]
    exact ih fun b hb => h b (List.mem_cons_of_mem a hb)

-- A list is gone through if each of its steps has a value, whatever else a step could have come to.
theorem mapM_eq_pure [Monad m] [LawfulMonad m] {f : α → m β} {g : α → β} {as : List α}
    (h : ∀ a ∈ as, f a = pure (g a)) : as.mapM f = pure (as.map g) := by
  induction as
  case nil => exact List.mapM_nil
  case cons a as ih =>
    obtain ⟨ha, has⟩ := List.forall_mem_cons.mp h
    rw [List.mapM_cons, ha, pure_bind, ih has, pure_bind, List.map_cons]

-- Values that are read back one by one.
theorem mapM_map_eq_pure [Monad m] [LawfulMonad m] {f : β → m α} {g : α → β} {as : List α}
    (h : ∀ a ∈ as, f (g a) = pure a) : (as.map g).mapM f = pure as := by
  rw [List.mapM_map, mapM_eq_pure (f := f ∘ g) (g := id) h, List.map_id]

theorem filterMapM_eq_pure [Monad m] [LawfulMonad m] {f : α → m (Option β)} {g : α → Option β} {as : List α}
    (h : ∀ a ∈ as, f a = pure (g a)) : as.filterMapM f = pure (as.filterMap g) := by
  induction as
  case nil => exact List.filterMapM_nil
  case cons a as ih =>
    obtain ⟨ha, has⟩ := List.forall_mem_cons.mp h
    rw [List.filterMapM_cons, ha, pure_bind, ih has, List.filterMap_cons]
    cases g a <;> simp

theorem run32_of_fits {start : Int} {count : Nat} (hs : Fits32 start) (he : Fits32 (start + count - 1)) :
    run32 start count = .ok () := by
  unfold run32
  split
  case isTrue => rfl
  case isFalse => rw [int32_of_fits hs, int32_of_fits he]; rfl

theorem run64_of_fits {start : Int} {count : Nat} (hs : Fits64 start) (he : Fits64 (start + count - 1)) :
    run64 start count = .ok () := by
  unfold run64
  split
  case isTrue => rfl
  case isFalse => rw [int64_of_fits hs, int64_of_fits he]; rfl

theorem nat32_of_fits {n : Nat} (h : n < 4294967296) : nat32 n = .ok n :=
  if_pos h

theorem nat32_of_overfull {n : Nat} (h : 4294967296 ≤ n) : nat32 n = .error .overflow :=
  if_neg (Nat.not_lt.mpr h)

theorem nat64_of_fits {n : Nat} (h : n < 18446744073709551616) : nat64 n = .ok n :=
  if_pos h

theorem nat64_of_overfull {n : Nat} (h : 18446744073709551616 ≤ n) : nat64 n = .error .overflow :=
  if_neg (Nat.not_lt.mpr h)

theorem exists_eq_ok_of_any {x : Checked α} {p : α → Bool} (h : x.toOption.any p) :
    ∃ a, x = .ok a ∧ p a := by
  cases x
  case error => contradiction
  case ok a => exact ⟨a, rfl, h⟩

theorem bind_eq_error_iff {x : Checked α} {f : α → Checked β} {e : Fault} :
    x >>= f = .error e ↔ x = .error e ∨ ∃ a, x = .ok a ∧ f a = .error e := by
  cases x <;> simp [bind, Except.bind]

theorem foldlM_eq_error_iff {f : β → α → Checked β} {as : List α} {b : β} {e : Fault} :
    as.foldlM f b = .error e ↔
      ∃ before a behind c, as = before ++ a :: behind ∧ before.foldlM f b = .ok c ∧ f c a = .error e := by
  induction as generalizing b
  case nil => simp [pure, Except.pure]
  case cons a as ih =>
    rw [List.foldlM_cons, bind_eq_error_iff]
    constructor
    case mp =>
      rintro (h | ⟨c, hc, h⟩)
      case inl => exact ⟨[], a, as, b, rfl, rfl, h⟩
      case inr =>
        obtain ⟨before, a', behind, c', rfl, hb, h⟩ := ih.mp h
        refine ⟨a :: before, a', behind, c', rfl, ?_, h⟩
        rw [List.foldlM_cons, hc]
        exact hb
    case mpr =>
      rintro ⟨before, a', behind, c, he, hb, h⟩
      cases before
      case nil =>
        cases hb
        cases he
        exact .inl h
      case cons a before =>
        cases he
        rw [List.foldlM_cons] at hb
        obtain ⟨c₁, hc, hb⟩ := bind_eq_ok_iff.mp hb
        exact .inr ⟨c₁, hc, ih.mpr ⟨before, a', behind, c, rfl, hb, h⟩⟩

end Atelier.Checked
