import Atelier.Proofs.Scan.Literal

/-!
Cuts of a text into literals and characters that are passed over. Every text has exactly one cut, and
scanning finds it.
-/

namespace Atelier

inductive Piece
  | word (t : Token)
  | noise (c : Char)

def Piece.token? : Piece → Option Token
  | word t => some t
  | noise _ => none

-- A character may only be passed over where no literal begins.
inductive Cut : List Char → List Piece → Prop
  | nil : Cut [] []
  | word {t : Token} {cs ps} : t.IsPlain → Cut cs ps → Cut (t.literal ++ cs) (.word t :: ps)
  | noise {c cs ps} :
    (∀ t : Token, t.IsPlain → ¬t.literal <+: c :: cs) → Cut cs ps → Cut (c :: cs) (.noise c :: ps)

namespace Token

variable {t : Token} {c : Char} {cs : List Char}

theorem atFront?_eq_none_iff :
    atFront? cs = none ↔ ∀ t : Token, t.IsPlain → ¬t.literal <+: cs := by
  simp [atFront?, mem_vocabulary_iff, List.isPrefixOf_iff_prefix]

theorem atFront?_eq_some_iff : atFront? cs = some t ↔ t.IsPlain ∧ t.literal <+: cs := by
  constructor
  case mp =>
    intro h
    have hm := mem_vocabulary_iff.mp (mem_vocabulary_of_atFront? h)
    exact ⟨hm, List.isPrefixOf_iff_prefix.mp (literal_isPrefixOf_of_atFront? h)⟩
  case mpr =>
    intro ⟨hp, h⟩
    cases hf : atFront? cs
    case none => exact absurd h (atFront?_eq_none_iff.mp hf t hp)
    case some u =>
      have hu := mem_vocabulary_iff.mp (mem_vocabulary_of_atFront? hf)
      have h' := List.isPrefixOf_iff_prefix.mp (literal_isPrefixOf_of_atFront? hf)
      rw [eq_of_literals_at_front hp hu h h']

-- The order in which the literals are tried does not matter. In particular it may be the words by
-- their lengths, the longest ones first, and then the single characters.
theorem find?_literal_of_perm {table : List Token} (h : table.Perm vocabulary) (cs : List Char) :
    table.find? (fun t => t.literal.isPrefixOf cs) = atFront? cs := by
  cases hf : table.find? fun t => t.literal.isPrefixOf cs
  case none =>
    refine (atFront?_eq_none_iff.mpr fun t ht hc => ?_).symm
    have hm := h.mem_iff.mpr (mem_vocabulary_iff.mpr ht)
    exact List.find?_eq_none.mp hf t hm (List.isPrefixOf_iff_prefix.mpr hc)
  case some t =>
    have ht := mem_vocabulary_iff.mp (h.mem_iff.mp (List.mem_of_find?_eq_some hf))
    have hc : t.literal.isPrefixOf cs = true := by simpa using List.find?_some hf
    exact (atFront?_eq_some_iff.mpr ⟨ht, List.isPrefixOf_iff_prefix.mp hc⟩).symm

theorem cut_literal_append (h : t.IsPlain) (cs : List Char) :
    cut (t.literal ++ cs) = t :: cut cs := by
  have hf := atFront?_eq_some_iff.mpr ⟨h, List.prefix_append t.literal cs⟩
  have ⟨c, ds, hl⟩ := List.exists_cons_of_ne_nil t.literal_ne_nil
  simp only [hl, List.cons_append] at hf ⊢
  rw [cut, hf]
  simp [hl]

theorem cut_cons_of_noise (h : ∀ t : Token, t.IsPlain → ¬t.literal <+: c :: cs) :
    cut (c :: cs) = cut cs := by
  rw [cut, atFront?_eq_none_iff.mpr h]

end Token

namespace Cut

variable {cs : List Char} {ps qs : List Piece}

theorem cut_eq (h : Cut cs ps) : Token.cut cs = ps.filterMap Piece.token? := by
  induction h
  case nil => simp [Token.cut]
  case word ht _ hi => simp [Token.cut_literal_append ht, hi, Piece.token?]
  case noise hn _ hi => rw [Token.cut_cons_of_noise hn, hi]; rfl

theorem unique (h₁ : Cut cs ps) (h₂ : Cut cs qs) : ps = qs := by
  induction h₁ generalizing qs
  case nil =>
    generalize he : [] = ds at h₂
    cases h₂
    case nil => rfl
    case word t _ _ _ _ => simp [t.literal_ne_nil] at he
    case noise => cases he
  case word t ds ps ht _ hi =>
    generalize he : t.literal ++ ds = es at h₂
    cases h₂
    case nil => simp [t.literal_ne_nil] at he
    case word u ds' qs hu h₂ =>
      have hu' : u.literal <+: t.literal ++ ds := ⟨ds', he.symm⟩
      have htu := Token.eq_of_literals_at_front ht hu (List.prefix_append ..) hu'
      subst htu
      rw [hi ((List.append_cancel_left he).symm ▸ h₂)]
    case noise hn _ => exact absurd ⟨ds, he⟩ (hn t ht)
  case noise c ds ps hn _ hi =>
    generalize he : c :: ds = es at h₂
    cases h₂
    case nil => cases he
    case word u ds' _ hu _ => exact absurd ⟨ds', he.symm⟩ (hn u hu)
    case noise hn' h₂ =>
      cases he
      rw [hi h₂]

-- The induction is on the length, since a literal takes any number of characters away.
theorem exists_cut (cs : List Char) : ∃ ps, Cut cs ps := by
  induction h : cs.length using Nat.strongRecOn generalizing cs
  case ind n hi =>
    cases cs
    case nil => exact ⟨[], nil⟩
    case cons c cs =>
      cases hf : Token.atFront? (c :: cs)
      case none =>
        have ⟨ps, hps⟩ := hi cs.length (by simp at h; omega) cs rfl
        exact ⟨_, noise (Token.atFront?_eq_none_iff.mp hf) hps⟩
      case some t =>
        obtain ⟨ht, rest, hr⟩ := Token.atFront?_eq_some_iff.mp hf
        have hl := List.length_pos_of_ne_nil t.literal_ne_nil
        have hn := congrArg List.length hr
        obtain ⟨ps, hps⟩ := hi rest.length (by simp at h hn; omega) rest rfl
        exact ⟨_, hr ▸ word ht hps⟩

end Cut

namespace Token

-- The counting runs, wherever they stand.
def Counts (cs : List Char) : Prop :=
  ∃ run ∈ ["0123456789", "123456789", "9876543210"], run.toList <:+: cs

theorem hasCountingRun_eq_true_iff {cs : List Char} : hasCountingRun cs = true ↔ Counts cs := by
  have h : countingRuns = ["0123456789", "123456789", "9876543210"].map String.toList := by
    decide
  simp only [hasCountingRun, h, Counts, List.any_map, List.any_eq_true, Function.comp_apply,
    Text.contains_eq_true_iff]

theorem scan_of_counts {raw : String} (h : Counts (Text.lower raw.toList)) :
    scan raw = [thinkPause] := by
  simp [scan, scanChars, hasCountingRun_eq_true_iff.mpr h]

theorem scan_of_not_counts {raw : String} (h : ¬Counts (Text.lower raw.toList)) :
    scan raw = cut ((Text.lower raw.toList).take 160) := by
  have hf := mt hasCountingRun_eq_true_iff.mp h
  simp [scan, scanChars, hf, scanLimit]

-- An answer that counts somewhere is a pause. Any other answer is cut, up to its 160th character in
-- small letters, in the only way there is.
theorem scan_eq_tokens_of_only_cut (raw : String) :
    (Counts (Text.lower raw.toList) → scan raw = [thinkPause]) ∧
    (¬Counts (Text.lower raw.toList) →
      ∃ ps, (∀ qs, Cut ((Text.lower raw.toList).take 160) qs ↔ qs = ps) ∧
        scan raw = ps.filterMap Piece.token?) := by
  refine ⟨scan_of_counts, fun h => ?_⟩
  have ⟨ps, hps⟩ := Cut.exists_cut ((Text.lower raw.toList).take 160)
  refine ⟨ps, fun qs => ⟨fun hqs => hqs.unique hps, fun he => he ▸ hps⟩, ?_⟩
  rw [scan_of_not_counts h, hps.cut_eq]

theorem only_cut_of_interrupted_word :
    ¬Counts (Text.lower "Zoom_ou3t +++ 12345678".toList) ∧
    ∃ ps, (∀ qs, Cut ((Text.lower "Zoom_ou3t +++ 12345678".toList).take 160) qs ↔ qs = ps) ∧
      scan "Zoom_ou3t +++ 12345678" = ps.filterMap Piece.token? := by
  have h : ¬Counts (Text.lower "Zoom_ou3t +++ 12345678".toList) :=
    mt hasCountingRun_eq_true_iff.mpr (by decide +kernel)
  exact ⟨h, (scan_eq_tokens_of_only_cut _).right h⟩

end Token

end Atelier
