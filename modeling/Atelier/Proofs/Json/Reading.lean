import Atelier.Proofs.Json.Grammar

/-!
A tree whose literals are written as literals is spelled by its text, and so reads back from it.
-/

namespace Atelier.Json

open Decimal.Literal (Ends)

inductive IsWritten : Json → Prop
  | null : IsWritten null
  | bool (b : Bool) : IsWritten (bool b)
  | num {l : Decimal.Literal} (h : l.IsWritten) : IsWritten (num l)
  | str (cs : List Char) : IsWritten (str (Text.Quoted.encode cs))
  | arr {vs : List Json} (h : ∀ v ∈ vs, IsWritten v) : IsWritten (arr vs)
  | obj {ms : List (List Char × Json)} (hk : ∀ m ∈ ms, ∃ k, m.1 = Text.Quoted.encode k)
    (hv : ∀ m ∈ ms, IsWritten m.2) : IsWritten (obj ms)

variable {depth outer : Nat} {cs rest : List Char} {v : Json}

/-! Indents -/

theorem isSpace_of_mem_indent {c : Char} (h : c ∈ indent depth) : isSpace c = true := by
  simp only [indent, List.mem_cons, List.mem_replicate] at h
  rcases h with rfl | ⟨_, rfl⟩ <;> rfl

theorem Mark.blanks {c : Char} {bs : List Char} (hb : ∀ b ∈ bs, isSpace b = true)
    (h : Mark c cs rest) : Mark c (bs ++ cs) rest := by
  induction bs
  case nil => exact h
  case cons b bs ih =>
    rw [List.forall_mem_cons] at hb
    exact .blank hb.left (ih hb.right)

theorem Spells.blanks {bs : List Char} (hb : ∀ b ∈ bs, isSpace b = true) (h : Spells cs v rest) :
    Spells (bs ++ cs) v rest := by
  induction bs
  case nil => exact h
  case cons b bs ih =>
    rw [List.forall_mem_cons] at hb
    exact .blank hb.left (ih hb.right)

theorem mark_indent (c : Char) (depth : Nat) (cs : List Char) : Mark c (indent depth ++ c :: cs) cs :=
  .blanks (fun _ => isSpace_of_mem_indent) .here

theorem Spells.indent (h : Spells cs v rest) (depth : Nat) : Spells (indent depth ++ cs) v rest :=
  .blanks (fun _ => isSpace_of_mem_indent) h

/-! Values -/

theorem ends_indent (depth : Nat) (cs : List Char) : Ends (indent depth ++ cs) := by
  intro c hc
  cases hc
  decide

theorem ends_prettyItems (depth : Nat) (vs : List Json) (hc : Ends cs) :
    Ends (prettyItems depth vs ++ cs) := by
  cases vs
  case nil => exact hc
  case cons =>
    intro c hc
    cases hc
    decide

theorem ends_prettyMembers (depth : Nat) (ms : List (List Char × Json)) (hc : Ends cs) :
    Ends (prettyMembers depth ms ++ cs) := by
  cases ms
  case nil => exact hc
  case cons =>
    intro c hc
    cases hc
    decide

-- A value is spelled by its text, whatever stands behind it, if that does not go on with a number.
def IsSpelled (v : Json) : Prop :=
  ∀ (depth : Nat) (rest : List Char), Ends rest → Spells (prettyAt depth v ++ rest) v rest

theorem spellsItems_pretty {vs : List Json} (h : ∀ w ∈ v :: vs, IsSpelled w) :
    SpellsItems (indent depth ++ (prettyAt depth v ++ (prettyItems depth vs ++
      (indent outer ++ ']' :: rest)))) (v :: vs) rest := by
  have he (vs : List Json) := ends_prettyItems depth vs (ends_indent outer (']' :: rest))
  have hv : IsSpelled v := h v List.mem_cons_self
  induction vs generalizing v
  case nil => exact .last ((hv depth _ (he [])).indent depth) (mark_indent ..)
  case cons w ws ih =>
    have hs := (hv depth _ (he (w :: ws))).indent depth
    have hw := ih (fun u hu => h u (.tail _ hu)) (h w (by simp))
    simp only [prettyItems, List.cons_append, List.append_assoc] at hs ⊢
    exact .next hs .here hw

theorem spellsKey_quote (k : List Char) (depth : Nat) (cs : List Char) :
    SpellsKey (indent depth ++ (quote (Text.Quoted.encode k) ++ ':' :: cs)) (Text.Quoted.encode k) cs := by
  simp only [quote, List.cons_append, List.append_assoc, List.nil_append]
  exact .intro (mark_indent ..) (Text.Quoted.isQuoted_encode k) .here

theorem spellsMembers_pretty {k : List Char} {ms : List (List Char × Json)}
    (hk : ∀ m ∈ (k, v) :: ms, ∃ s, m.1 = Text.Quoted.encode s) (h : ∀ m ∈ (k, v) :: ms, IsSpelled m.2) :
    SpellsMembers (indent depth ++ (quote k ++ ':' :: ' ' :: (prettyAt depth v ++
      (prettyMembers depth ms ++ (indent outer ++ '\x7d' :: rest))))) ((k, v) :: ms) rest := by
  have he (ms : List (List Char × Json)) := ends_prettyMembers depth ms (ends_indent outer ('\x7d' :: rest))
  induction ms generalizing k v
  case nil =>
    obtain ⟨k, rfl⟩ := hk _ List.mem_cons_self
    have hv : IsSpelled v := h _ List.mem_cons_self
    exact .last (spellsKey_quote ..) (.blank rfl (hv depth _ (he []))) (mark_indent ..)
  case cons m ms ih =>
    obtain ⟨k, rfl⟩ := hk _ List.mem_cons_self
    have hv : IsSpelled v := h _ List.mem_cons_self
    have hs := Spells.blank (b := ' ') rfl (hv depth _ (he (m :: ms)))
    have hms := ih (fun m hm => hk m (.tail _ hm)) (fun m hm => h m (.tail _ hm))
    simp only [prettyMembers, List.cons_append, List.append_assoc, List.nil_append] at hs ⊢
    exact .next (spellsKey_quote ..) hs .here hms

theorem IsWritten.isSpelled (h : v.IsWritten) : IsSpelled v := by
  induction h <;> intro depth rest hr
  case null => exact .null
  case bool b =>
    cases b
    case true => exact .yes
    case false => exact .no
  case num l h => exact .num h l.spells_text hr
  case str s =>
    simp only [prettyAt, quote, List.cons_append, List.append_assoc, List.nil_append]
    exact .str (Text.Quoted.isQuoted_encode s)
  case arr vs _ ih =>
    cases vs
    case nil => exact .noItems .here
    case cons v vs =>
      simp only [prettyAt, List.cons_append, List.append_assoc, List.nil_append]
      exact .arr (spellsItems_pretty ih)
  case obj ms hk _ ih =>
    cases ms
    case nil => exact .noMembers .here
    case cons m ms =>
      simp only [prettyAt, List.cons_append, List.append_assoc, List.nil_append]
      exact .obj (spellsMembers_pretty hk ih)

theorem isTextOf_pretty (h : v.IsWritten) : IsTextOf v.pretty v := by
  have hs := h.isSpelled 0 [] fun _ hc => nomatch hc
  rw [List.append_nil] at hs
  rw [IsTextOf, pretty, String.toList_ofList]
  exact ⟨[], hs, fun _ hc => nomatch hc⟩

theorem read_pretty (h : v.IsWritten) : read v.pretty = some v :=
  (isTextOf_pretty h).read_eq

end Atelier.Json
