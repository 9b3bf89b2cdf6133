import Atelier.Proofs.Scan.Cut

/-!
Rendering and scanning are inverse to each other, as far as the limit of characters lets them: what is
cut off are whole tokens, and nothing is read into what is left of a broken literal.
-/

namespace Atelier.Token

variable {t : Token} {ts : List Token} {cs : List Char}

theorem cut_eq_nil (h : ∀ t : Token, t.IsPlain → ¬t.literal <:+: cs) : cut cs = [] := by
  induction cs
  case nil => simp [cut]
  case cons c cs hi =>
    rw [cut_cons_of_noise fun t ht hc => h t ht hc.isInfix]
    exact hi fun t ht hc => h t ht (List.infix_cons hc)

theorem cut_fragment (ht : t.IsPlain) (h : cs <+: t.literal) (hn : cs ≠ t.literal) : cut cs = [] :=
  cut_eq_nil fun _ hu => not_literal_infix_of_fragment ht hu h hn

-- The first part of a rendering has room for some tokens, and then perhaps for a piece of the next
-- one, which is as good as nothing.
theorem cut_take_literal_append (ht : t.IsPlain) (n : Nat) (cs : List Char) :
    cut ((t.literal ++ cs).take n) =
      if t.literal.length ≤ n then t :: cut (cs.take (n - t.literal.length)) else [] := by
  rw [List.take_append]
  split
  case isTrue h => rw [List.take_of_length_le h, cut_literal_append ht]
  case isFalse h =>
    have hz : n - t.literal.length = 0 := by omega
    rw [hz, List.take_zero, List.append_nil]
    apply cut_fragment ht (List.take_prefix ..)
    intro he
    have := congrArg List.length he
    simp at this
    omega

theorem cut_take_render_isPrefix (h : ∀ t ∈ ts, t.IsPlain) (n : Nat) : cut ((render ts).take n) <+: ts := by
  induction ts generalizing n
  case nil => simp [cut]
  case cons t ts hi =>
    obtain ⟨ht, hts⟩ := List.forall_mem_cons.mp h
    rw [render_cons, cut_take_literal_append ht]
    split
    · exact (List.prefix_cons_inj t).mpr (hi hts _)
    · exact List.nil_prefix

theorem length_render_cut_take_le (h : ∀ t ∈ ts, t.IsPlain) (n : Nat) :
    (render (cut ((render ts).take n))).length ≤ n := by
  induction ts generalizing n
  case nil => simp [cut]
  case cons t ts hi =>
    obtain ⟨ht, hts⟩ := List.forall_mem_cons.mp h
    rw [render_cons, cut_take_literal_append ht]
    split
    case isTrue hl =>
      have := hi hts (n - t.literal.length)
      simp only [render_cons, List.length_append]
      omega
    case isFalse => simp

theorem prefix_cut_take_render (h : ∀ t ∈ ts, t.IsPlain) {us : List Token} (hu : us <+: ts) {n : Nat}
    (hn : (render us).length ≤ n) : us <+: cut ((render ts).take n) := by
  induction ts generalizing us n
  case nil => simp [List.prefix_nil.mp hu]
  case cons t ts hi =>
    obtain ⟨ht, hts⟩ := List.forall_mem_cons.mp h
    cases us
    case nil => exact List.nil_prefix
    case cons u us =>
      obtain ⟨he, hus⟩ := List.cons_prefix_cons.mp hu
      subst he
      simp only [render_cons, List.length_append] at hn
      rw [render_cons, cut_take_literal_append ht, if_pos (by omega)]
      exact (List.prefix_cons_inj u).mpr (hi hts hus (by omega))

theorem isPlain_of_mem_cut (h : t ∈ cut cs) : t.IsPlain := by
  have ⟨ps, hps⟩ := Cut.exists_cut cs
  rw [hps.cut_eq] at h
  induction hps
  case nil => simp at h
  case word ht _ hi =>
    cases List.mem_cons.mp h
    case inl he => exact he ▸ ht
    case inr h => exact hi h
  case noise hi => exact hi h

theorem render_cut_sublist (cs : List Char) : (render (cut cs)).Sublist cs := by
  have ⟨ps, hps⟩ := Cut.exists_cut cs
  induction hps
  case nil => simp [cut]
  case word t cs _ ht _ hi =>
    rw [cut_literal_append ht, render_cons]
    exact (List.Sublist.refl t.literal).append hi
  case noise c cs _ hn _ hi =>
    rw [cut_cons_of_noise hn]
    exact hi.cons c

-- A run that counts needs the digit six, which no token is written with.
theorem not_counts_render (h : ∀ t ∈ ts, t.IsPlain) : ¬Counts (render ts) := by
  intro ⟨run, hr, hc⟩
  have h6 : ∀ run ∈ ["0123456789", "123456789", "9876543210"], '6' ∈ run.toList := by
    decide
  exact six_not_mem_render h (hc.subset (h6 run hr))

-- The code of some tokens, as it is handed to a scan.
def text (ts : List Token) : String :=
  String.ofList (render ts)

theorem scan_text (h : ∀ t ∈ ts, t.IsPlain) : scan (text ts) = cut ((render ts).take 160) := by
  have hl : Text.lower (text ts).toList = render ts := by
    rw [text, String.toList_ofList, lower_render h]
  rw [scan_of_not_counts (hl ▸ not_counts_render h), hl]

theorem scan_eq_or (raw : String) :
    scan raw = [thinkPause] ∨ (∀ t ∈ scan raw, t.IsPlain) ∧ (render (scan raw)).length ≤ 160 := by
  by_cases h : Counts (Text.lower raw.toList)
  case pos => exact .inl (scan_of_counts h)
  case neg =>
    rw [scan_of_not_counts h]
    refine .inr ⟨fun t => isPlain_of_mem_cut, ?_⟩
    exact (render_cut_sublist _).length_le.trans (List.length_take_le ..)

theorem scan_text_of_length_le (h : ∀ t ∈ ts, t.IsPlain) (hn : (render ts).length ≤ 160) :
    scan (text ts) = ts := by
  rw [scan_text h]
  have hl := (prefix_cut_take_render h (List.prefix_refl ts) hn).length_le
  exact (cut_take_render_isPrefix h 160).eq_of_length_le hl

theorem scan_text_scan_eq (raw : String) : scan (text (scan raw)) = scan raw := by
  cases scan_eq_or raw
  case inl h =>
    rw [h]
    exact scan_of_counts (hasCountingRun_eq_true_iff.mp (by decide))
  case inr h => exact scan_text_of_length_le h.left h.right

-- Scanning a code gives back as many of its tokens as the limit leaves whole, and whatever comes out
-- of a scan is a pause or can be written and scanned again.
theorem scan_render_longest_fit :
    (∀ ts, (∀ t ∈ ts, t.IsPlain) →
      scan (text ts) <+: ts ∧ (render (scan (text ts))).length ≤ 160 ∧
      (∀ us, us <+: ts → (render us).length ≤ 160 → us <+: scan (text ts)) ∧
      ((render ts).length ≤ 160 → scan (text ts) = ts)) ∧
    (∀ raw, scan raw = [thinkPause] ∨
      (∀ t ∈ scan raw, t.IsPlain) ∧ (render (scan raw)).length ≤ 160) ∧
    ∀ raw, scan (text (scan raw)) = scan raw := by
  refine ⟨fun ts h => ⟨?_, ?_, ?_, scan_text_of_length_le h⟩, scan_eq_or, scan_text_scan_eq⟩
  case refine_1 => exact scan_text h ▸ cut_take_render_isPrefix h 160
  case refine_2 => exact scan_text h ▸ length_render_cut_take_le h 160
  case refine_3 => exact fun us hu hn => scan_text h ▸ prefix_cut_take_render h hu hn

-- Eleven words of fifteen characters: the last one is broken off after ten, and is lost as a whole.
theorem longest_fit_of_broken_word :
    let ts := List.replicate 11 (directive (.template .medium))
    (∀ t ∈ ts, t.IsPlain) ∧
    scan (text ts) <+: ts ∧ (render (scan (text ts))).length ≤ 160 ∧
    ∀ us, us <+: ts → (render us).length ≤ 160 → us <+: scan (text ts) := by
  intro ts
  have h : ∀ t ∈ ts, t.IsPlain := by
    decide +kernel
  have ⟨h₁, h₂, h₃, _⟩ := scan_render_longest_fit.left ts h
  exact ⟨h, h₁, h₂, h₃⟩

end Atelier.Token
