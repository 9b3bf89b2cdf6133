import Atelier.Proofs.Checked
import Atelier.Proofs.Decimal.Padded
import Atelier.Proofs.Scan.Literal

/-!
Summaries of codes. A summary can be read part by part: every part tells a token and how often it stands
there, so the tokens can be had back from the text.
-/

namespace Atelier.Token

-- A sound that is none of the known ones could be a digit, a blank or a cross.
def IsClear : Token → Prop
  | sound c => c ∈ soundChars
  | _ => True

-- All tokens that are clear. A pause has a literal too, if not one that a code can hold.
def clear : List Token :=
  thinkPause :: vocabulary

-- The pieces of a text between the places where a character stands.
def pieces (c : Char) (s : String) : List String :=
  (s.split c).toList.map (·.copy)

def ofLiteral? (s : String) : Option Token :=
  clear.find? (·.literal == s.toList)

-- A number in decimal digits.
def count? (s : String) : Option Nat :=
  if s.toList.all (·.isDigit) then some (Nat.ofDigitChars 10 s.toList 0) else none

-- One part of a summary. A literal without a number stands for one token.
def run? (part : String) : Option (Token × Nat) :=
  match pieces '×' part with
  | [literal] => (ofLiteral? literal).map (·, 1)
  | [literal, count] => do return (← ofLiteral? literal, ← count? count)
  | _ => none

def runs? (summary : String) : Option (List (Token × Nat)) :=
  (pieces ' ' summary).mapM run?

def expand (rs : List (Token × Nat)) : List Token :=
  rs.flatMap fun r => List.replicate r.2 r.1

variable {t u : Token} {ts : List Token} {r : Token × Nat} {rs : List (Token × Nat)}

theorem mem_clear_iff : t ∈ clear ↔ t.IsClear := by
  rw [clear, List.mem_cons, mem_vocabulary_iff]
  cases t <;> simp [IsClear, IsPlain]

theorem IsClear.eq_or_isPlain (h : t.IsClear) : t = thinkPause ∨ t.IsPlain := by
  rw [← mem_vocabulary_iff]
  exact List.mem_cons.mp (mem_clear_iff.mpr h)

/-! Literals. No two clear tokens have the same one, and none has a character that separates them. -/

theorem countUp_ne_literal (h : t.IsPlain) : countUp ≠ t.literal := by
  have h6 := six_not_mem_literal_vocabulary t (mem_vocabulary_iff.mpr h)
  exact fun he => h6 (he ▸ by decide)

theorem literal_injective_of_isClear (ht : t.IsClear) (hu : u.IsClear) (h : t.literal = u.literal) : t = u := by
  obtain rfl | ht := ht.eq_or_isPlain
  case inl =>
    obtain rfl | hu := hu.eq_or_isPlain
    case inl => rfl
    case inr => exact absurd h (countUp_ne_literal hu)
  case inr =>
    obtain rfl | hu := hu.eq_or_isPlain
    case inl => exact absurd h.symm (countUp_ne_literal ht)
    case inr => exact literal_injective ht hu h

theorem ofLiteral?_literal (h : t.IsClear) : ofLiteral? (String.ofList t.literal) = some t := by
  have hs : (ofLiteral? (String.ofList t.literal)).isSome :=
    List.find?_isSome.mpr ⟨t, mem_clear_iff.mpr h, by simp⟩
  obtain ⟨u, hu⟩ := Option.isSome_iff_exists.mp hs
  have hc : u.IsClear := mem_clear_iff.mp (List.mem_of_find?_eq_some hu)
  have he : u.literal = t.literal := by simpa using List.find?_some hu
  rw [hu, literal_injective_of_isClear hc h he]

theorem separators_not_mem_literal_clear : ∀ t ∈ clear, ' ' ∉ t.literal ∧ '×' ∉ t.literal := by
  decide

/-! Runs -/

-- Runs that stand for a list of tokens, with no run that could be part of the next one.
structure Encodes (rs : List (Token × Nat)) (ts : List Token) : Prop where
  count_pos : ∀ r ∈ rs, 1 ≤ r.2
  isChain : rs.IsChain fun r s => r.1 ≠ s.1
  expand_eq : expand rs = ts

-- A further token in front either makes the first run longer or is a run of its own.
def inFront (t : Token) : List (Token × Nat) → List (Token × Nat)
  | [] => [(t, 1)]
  | r :: rs => if r.1 = t then (t, r.2 + 1) :: rs else (t, 1) :: r :: rs

theorem runs_cons (t : Token) (ts : List Token) : runs (t :: ts) = inFront t (runs ts) := by
  rw [runs]
  cases runs ts <;> rfl

theorem Encodes.inFront (h : Encodes rs ts) (t : Token) : Encodes (inFront t rs) (t :: ts) := by
  obtain ⟨hp, hc, rfl⟩ := h
  unfold Token.inFront
  split
  case h_1 => exact ⟨by simp, .singleton _, rfl⟩
  case h_2 r rs =>
    obtain ⟨_, hrs⟩ := List.forall_mem_cons.mp hp
    split
    case isTrue he =>
      subst he
      refine ⟨List.forall_mem_cons.mpr ⟨Nat.le_add_left 1 _, hrs⟩, ?_, rfl⟩
      cases hc
      case singleton => exact .singleton _
      case cons_cons hc hn => exact .cons_cons hn hc
    case isFalse hn =>
      exact ⟨List.forall_mem_cons.mpr ⟨Nat.le_refl 1, hp⟩, .cons_cons (Ne.symm hn) hc, rfl⟩

theorem encodes_runs (ts : List Token) : Encodes (runs ts) ts := by
  induction ts
  case nil => exact ⟨by simp [runs], .nil, rfl⟩
  case cons t ts ih => exact runs_cons t ts ▸ ih.inFront t

theorem Encodes.eq_nil_iff (h : Encodes rs ts) : rs = [] ↔ ts = [] := by
  obtain ⟨hp, -, rfl⟩ := h
  cases rs
  case nil => exact iff_of_true rfl rfl
  case cons r rs =>
    have hr : r.2 ≠ 0 := Nat.ne_of_gt (hp r List.mem_cons_self)
    simp [expand, hr]

theorem Encodes.mem_of_mem (h : Encodes rs ts) (hr : r ∈ rs) : r.1 ∈ ts := by
  obtain ⟨hp, -, rfl⟩ := h
  exact List.mem_flatMap.mpr ⟨r, hr, List.mem_replicate.mpr ⟨Nat.ne_of_gt (hp r hr), rfl⟩⟩

/-! Reading a summary -/

theorem pieces_intercalate {c : Char} (ss : List String) (h : ∀ s ∈ ss, c ∉ s.toList) (hn : ss ≠ []) :
    pieces c ((String.singleton c).intercalate ss) = ss := by
  have hs := String.toList_split_intercalate h
  rwa [if_neg hn] at hs

theorem runText_repeated {n : Nat} (h : 1 < n) (t : Token) :
    runText (t, n) = String.ofList t.literal ++ "×" ++ n.repr := by
  rw [runText, if_pos h]
  rfl

theorem count?_repr (n : Nat) : count? n.repr = some n := by
  have hd : n.repr.toList.all (·.isDigit) := by
    rw [List.all_eq_true, Nat.toList_repr]
    exact fun _ => Nat.isDigit_of_mem_toDigits (by decide) (by decide)
  rw [count?, if_pos hd, Nat.toList_repr, Nat.ofDigitChars_ten_toDigits]

theorem space_not_mem_runText (h : r.1.IsClear) : ' ' ∉ (runText r).toList := by
  have hl := (separators_not_mem_literal_clear r.1 (mem_clear_iff.mpr h)).left
  unfold runText
  split
  case isTrue =>
    have hn := Decimal.not_mem_toDigits (k := ' ') (by decide) r.2
    simp [toString, hl, hn]
  case isFalse => rwa [String.toList_ofList]

theorem run?_runText (h : r.1.IsClear) (hn : 1 ≤ r.2) : run? (runText r) = some r := by
  obtain ⟨t, n⟩ := r
  have hl := (separators_not_mem_literal_clear t (mem_clear_iff.mpr h)).right
  rw [← String.toList_ofList (l := t.literal)] at hl
  rcases Nat.eq_or_lt_of_le hn with rfl | hn
  case inl =>
    have hp : pieces '×' (runText (t, 1)) = [String.ofList t.literal] := by
      apply pieces_intercalate [String.ofList t.literal] _ (List.cons_ne_nil _ _)
      exact List.forall_mem_singleton.mpr hl
    rw [run?, hp]
    simp [ofLiteral?_literal h]
  case inr =>
    have hp : pieces '×' (runText (t, n)) = [String.ofList t.literal, n.repr] := by
      rw [runText_repeated hn]
      apply pieces_intercalate [String.ofList t.literal, n.repr] _ (List.cons_ne_nil _ _)
      exact List.forall_mem_cons.mpr ⟨hl, List.forall_mem_singleton.mpr (Decimal.not_mem_repr (by decide) n)⟩
    rw [run?, hp]
    simp [ofLiteral?_literal h, count?_repr]

theorem runs?_summary (hn : ts ≠ []) (h : ∀ t ∈ ts, t.IsClear) : runs? (summary ts) = some (runs ts) := by
  have he := encodes_runs ts
  have hr : ∀ r ∈ runs ts, r.1.IsClear ∧ 1 ≤ r.2 :=
    fun r hm => ⟨h r.1 (he.mem_of_mem hm), he.count_pos r hm⟩
  have hp : pieces ' ' (summary ts) = (runs ts).map runText := by
    apply pieces_intercalate
    case h =>
      intro s hs
      obtain ⟨r, hm, rfl⟩ := List.mem_map.mp hs
      exact space_not_mem_runText (hr r hm).left
    case hn => exact mt List.map_eq_nil_iff.mp (mt he.eq_nil_iff.mp hn)
  rw [runs?, hp]
  exact Checked.mapM_map_eq_pure fun r hm => run?_runText (hr r hm).left (hr r hm).right

example : summary (List.replicate 12 (move .right) ++ [thinkPause, sound '*']) = "3×12 0123456789 *" :=
  rfl

theorem runText_ne_empty (r : Token × Nat) : runText r ≠ "" := by
  have hl := literal_ne_nil r.1
  intro h
  have h := congrArg String.toList h
  unfold runText at h
  split at h <;> simp_all [toString]

theorem summary_eq_empty_iff : summary ts = "" ↔ ts = [] := by
  constructor
  case mp =>
    intro h
    cases hr : runs ts
    case nil => exact (encodes_runs ts).eq_nil_iff.mp hr
    case cons r rs =>
      have hne := runText_ne_empty r
      rw [summary, hr] at h
      cases rs <;> simp_all [String.intercalate_cons_cons]
  case mpr =>
    rintro rfl
    rfl

-- What can be read off a summary are the runs of the tokens, so no two lists of tokens have one summary.
theorem summary_lists_runs :
    (∀ ts, ts ≠ [] → (∀ t ∈ ts, t.IsClear) →
      ∃ rs, runs? (summary ts) = some rs ∧ Encodes rs ts ∧ ∀ r ∈ rs, r.1 ∈ ts) ∧
    (∀ ts, summary ts = "" ↔ ts = []) ∧
    ∀ ts us, (∀ t ∈ ts, t.IsClear) → (∀ u ∈ us, u.IsClear) → summary ts = summary us → ts = us := by
  refine ⟨?read, fun _ => summary_eq_empty_iff, ?injective⟩
  case read =>
    intro ts hn h
    have he := encodes_runs ts
    exact ⟨runs ts, runs?_summary hn h, he, fun _ => he.mem_of_mem⟩
  case injective =>
    intro ts us ht hu h
    by_cases hn : ts = []
    case pos =>
      have hs := summary_eq_empty_iff.mpr hn
      rw [h] at hs
      rw [hn, summary_eq_empty_iff.mp hs]
    case neg =>
      have hn' : us ≠ [] := fun hu => hn (summary_eq_empty_iff.mp (h ▸ summary_eq_empty_iff.mpr hu))
      have hr := runs?_summary hn ht
      rw [h, runs?_summary hn' hu] at hr
      rw [← (encodes_runs ts).expand_eq, ← (encodes_runs us).expand_eq, Option.some.inj hr]

-- Twelve moves, and eleven, before a pause that is written in digits itself.
theorem summary_lists_runs_of_moves :
    let ts := List.replicate 12 (move .right) ++ [thinkPause, sound '*']
    let us := List.replicate 11 (move .right) ++ [thinkPause, sound '*']
    (ts ≠ [] ∧ (∀ t ∈ ts, t.IsClear) ∧ ∀ u ∈ us, u.IsClear) ∧
    (∃ rs, runs? (summary ts) = some rs ∧ Encodes rs ts ∧ ∀ r ∈ rs, r.1 ∈ ts) ∧
    summary ts ≠ summary us := by
  intro ts us
  have hn : ts ≠ [] := by decide
  have ht : ∀ t ∈ ts, t.IsClear := by simp [ts, IsClear, soundChars]
  have hu : ∀ u ∈ us, u.IsClear := by simp [us, IsClear, soundChars]
  have ⟨hr, _, hi⟩ := summary_lists_runs
  exact ⟨⟨hn, ht, hu⟩, hr ts hn ht, fun h => absurd (hi ts us ht hu h) (by decide)⟩

end Atelier.Token
