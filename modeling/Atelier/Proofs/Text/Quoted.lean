import Atelier.Text.Quoted

/-!
Quoted text reads back as it was written, whatever characters it has.
-/

namespace Atelier.Text.Quoted

theorem hex4?_hexDigit : ∀ n < 32, hex4? '0' '0' (hexDigit (n / 16)) (hexDigit (n % 16)) = some n := by
  decide

-- Every escape in use is one of the short ones or that of a control character.
theorem encodeChar_cases (c : Char) :
    (∃ e, e ≠ 'u' ∧ short.lookup e = some c ∧ encodeChar c = ['\\', e]) ∨
      (c.toNat < 32 ∧
        encodeChar c = ['\\', 'u', '0', '0', hexDigit (c.toNat / 16), hexDigit (c.toNat % 16)]) ∨
      (c ≠ '"' ∧ c ≠ '\\' ∧ 32 ≤ c.toNat ∧ encodeChar c = [c]) := by
  by_cases hs : c = '/'
  case pos =>
    subst hs
    exact .inr (.inr (by decide))
  case neg =>
    cases hf : short.find? (·.2 == c)
    case some p =>
      obtain ⟨e, d⟩ := p
      have hd : d = c := by simpa using List.find?_some hf
      have hm := List.mem_of_find?_eq_some hf
      subst hd
      refine .inl ⟨e, ?_⟩
      simp only [encodeChar, if_neg hs, hf]
      simp only [short, List.mem_cons, Prod.mk.injEq, List.not_mem_nil, or_false] at hm
      rcases hm with hm | hm | hm | hm | hm | hm | hm | hm <;> obtain ⟨rfl, rfl⟩ := hm <;>
        first | contradiction | decide
    case none =>
      have hn := List.find?_eq_none.mp hf
      simp only [short, List.mem_cons, List.not_mem_nil, or_false, forall_eq_or_imp, forall_eq,
        beq_iff_eq] at hn
      by_cases hc : c.toNat < 32
      case pos => exact .inr (.inl ⟨hc, by simp only [encodeChar, if_neg hs, hf, if_pos hc]⟩)
      case neg =>
        exact .inr (.inr ⟨Ne.symm hn.left, Ne.symm hn.right.left, by omega,
          by simp only [encodeChar, if_neg hs, hf, if_neg hc]⟩)

theorem decode?_encodeChar (c : Char) (cs : List Char) :
    decode? (encodeChar c ++ cs) = (decode? cs).map (c :: ·) := by
  rcases encodeChar_cases c with ⟨e, hu, hl, he⟩ | ⟨hc, he⟩ | ⟨_, hb, _, he⟩ <;> rw [he]
  case inl => simp [decode?, hu, hl]
  case inr.inl =>
    have ht : isTrailing c.toNat = false := by simp [isTrailing]; omega
    have hl : isLeading c.toNat = false := by simp [isLeading]; omega
    simp [decode?, hex4?_hexDigit _ hc, ht, hl]
  case inr.inr => simp [decode?, hb]

theorem decode?_encode (cs : List Char) : decode? (encode cs) = some cs := by
  induction cs
  case nil => rfl
  case cons c cs ih =>
    rw [encode, List.flatMap_cons, decode?_encodeChar]
    exact ih ▸ rfl

/-! What may stand between quotes: escapes need only be complete, they need not make a text. -/

inductive IsQuoted : List Char → Prop
  | nil : IsQuoted []
  | plain {c : Char} {cs : List Char} (hq : c ≠ '"') (hb : c ≠ '\\') (hc : 32 ≤ c.toNat) (h : IsQuoted cs) :
    IsQuoted (c :: cs)
  | short {e : Char} {cs : List Char} (he : (short.lookup e).isSome = true) (h : IsQuoted cs) :
    IsQuoted ('\\' :: e :: cs)
  | unit {a b c d : Char} {cs : List Char} (hx : (hex4? a b c d).isSome = true) (h : IsQuoted cs) :
    IsQuoted ('\\' :: 'u' :: a :: b :: c :: d :: cs)

-- The first quote that is not part of an escape is the closing one.
theorem IsQuoted.split?_append {cs : List Char} (h : IsQuoted cs) (rest : List Char) :
    split? (cs ++ '"' :: rest) = some (cs, rest) := by
  induction h
  case nil => rfl
  case plain hq hb hc _ ih => simp [split?, hb, Nat.not_lt.mpr hc, ih]
  case short e cs he _ ih =>
    have hu : e ≠ 'u' := fun hu => absurd (hu ▸ he) (by decide)
    simp [split?, hu, he, ih]
  case unit hx _ ih =>
    have ⟨_, hx⟩ := Option.isSome_iff_exists.mp hx
    simp [split?, hx, ih]

theorem isQuoted_encode (cs : List Char) : IsQuoted (encode cs) := by
  induction cs
  case nil => exact .nil
  case cons c cs ih =>
    rw [encode, List.flatMap_cons]
    rcases encodeChar_cases c with ⟨e, hu, hl, he⟩ | ⟨hc, he⟩ | ⟨hq, hb, hc, he⟩ <;> rw [he]
    case inl => exact .short (Option.isSome_of_eq_some hl) ih
    case inr.inl => exact .unit (Option.isSome_of_eq_some (hex4?_hexDigit _ hc)) ih
    case inr.inr => exact .plain hq hb hc ih

end Atelier.Text.Quoted
