import Atelier.Scan
import Mathlib.Data.List.Infix

/-!
Literals as a code. No literal is the beginning of another, and none stands inside another before that
one's end; they are small letters, and none holds a digit that every counting run needs.
-/

namespace Atelier

namespace Text

theorem contains_eq_true_iff {w cs : List Char} : contains w cs = true ↔ w <:+: cs := by
  induction cs
  case nil => simp [contains]
  case cons c cs hi => simp [contains, hi, List.infix_cons_iff]

theorem lower_append (cs ds : List Char) : lower (cs ++ ds) = lower cs ++ lower ds :=
  List.flatMap_append

end Text

namespace Token

-- What a code can hold. A pause for thinking has no literal of its own in a code, and a character
-- that is no sound would be passed over.
def IsPlain : Token → Prop
  | thinkPause => False
  | sound c => c ∈ soundChars
  | _ => True

theorem mem_vocabulary_iff {t : Token} : t ∈ vocabulary ↔ t.IsPlain := by
  cases t
  case pitch p => cases p <;> simp [vocabulary, IsPlain]
  all_goals simp [vocabulary, IsPlain, Directive.mem_all, Color.mem_all, Direction.mem_all]

instance (t : Token) : Decidable t.IsPlain :=
  decidable_of_iff _ mem_vocabulary_iff

-- What scanning rests on: facts about all literals, or all pairs of them. The pairs are many, so they are
-- left to the kernel.

theorem atFront?_literal_vocabulary : ∀ t ∈ vocabulary, atFront? t.literal = some t := by
  decide

theorem lower_literal_vocabulary : ∀ t ∈ vocabulary, Text.lower t.literal = t.literal := by
  decide

theorem six_not_mem_literal_vocabulary : ∀ t ∈ vocabulary, '6' ∉ t.literal := by
  decide

theorem not_contains_dropLast_vocabulary :
    ∀ t ∈ vocabulary, ∀ u ∈ vocabulary, Text.contains u.literal t.literal.dropLast = false := by
  decide +kernel

variable {t u : Token} {cs : List Char}

theorem literal_injective (ht : t.IsPlain) (hu : u.IsPlain) (h : t.literal = u.literal) : t = u := by
  have h₁ := atFront?_literal_vocabulary t (mem_vocabulary_iff.mpr ht)
  have h₂ := atFront?_literal_vocabulary u (mem_vocabulary_iff.mpr hu)
  rw [h] at h₁
  exact Option.some.inj (h₁.symm.trans h₂)

-- A literal that is cut short holds no literal any more.
theorem not_literal_infix_of_fragment (ht : t.IsPlain) (hu : u.IsPlain) (h : cs <+: t.literal)
    (hn : cs ≠ t.literal) : ¬u.literal <:+: cs := by
  intro hc
  have hl : cs.length < t.literal.length :=
    lt_of_le_of_ne h.length_le fun he => hn (h.eq_of_length he)
  have hd : cs <+: t.literal.dropLast :=
    List.prefix_of_prefix_length_le h (List.dropLast_prefix _) (by simp; omega)
  have hf := not_contains_dropLast_vocabulary t (mem_vocabulary_iff.mpr ht) u
    (mem_vocabulary_iff.mpr hu)
  have := Text.contains_eq_true_iff.mpr (hc.trans hd.isInfix)
  simp [hf] at this

-- If a literal were the beginning of another one, it would be that one cut short.
theorem eq_of_prefix_literal (ht : t.IsPlain) (hu : u.IsPlain) (h : t.literal <+: u.literal) :
    t = u := by
  by_contra hn
  have hl := mt (literal_injective ht hu) hn
  exact not_literal_infix_of_fragment hu ht h hl (List.infix_refl _)

-- Of two literals in front of one text, the shorter is a beginning of the longer.
theorem eq_of_literals_at_front (ht : t.IsPlain) (hu : u.IsPlain) (h₁ : t.literal <+: cs)
    (h₂ : u.literal <+: cs) : t = u := by
  cases List.prefix_or_prefix_of_prefix h₁ h₂
  case inl h => exact eq_of_prefix_literal ht hu h
  case inr h => exact (eq_of_prefix_literal hu ht h).symm

theorem lower_render {ts : List Token} (h : ∀ t ∈ ts, t.IsPlain) :
    Text.lower (render ts) = render ts := by
  induction ts
  case nil => rfl
  case cons t ts hi =>
    have ht := lower_literal_vocabulary t (mem_vocabulary_iff.mpr (h t List.mem_cons_self))
    have hi := hi fun u hu => h u (List.mem_cons_of_mem t hu)
    rw [render_cons, Text.lower_append, ht, hi]

theorem six_not_mem_render {ts : List Token} (h : ∀ t ∈ ts, t.IsPlain) : '6' ∉ render ts := by
  intro hm
  have ⟨t, ht, hm⟩ := List.mem_flatMap.mp hm
  exact six_not_mem_literal_vocabulary t (mem_vocabulary_iff.mpr (h t ht)) hm

end Token

end Atelier
