import Atelier.Json.Reader
import Atelier.Proofs.Decimal.Reading
import Atelier.Proofs.Text.Quoted
import Mathlib.Data.List.TakeWhile

/-!
The grammar of JSON text, and that a text is read as the tree that it spells: blanks may stand in front
of every sign, numbers may have an exponent in each of its forms, and texts any escapes that are
complete.
-/

namespace Atelier.Json

open Decimal.Literal (Ends)

/-! What is spelled at the front of a text, with what is left of the text behind it -/

inductive Mark (c : Char) : List Char → List Char → Prop
  | here {rest : List Char} : Mark c (c :: rest) rest
  | blank {b : Char} {cs rest : List Char} (hb : isSpace b = true) (h : Mark c cs rest) :
    Mark c (b :: cs) rest

inductive SpellsKey : List Char → List Char → List Char → Prop
  | intro {cs k ds rest : List Char} (hk : Mark '"' cs (k ++ '"' :: ds)) (hq : Text.Quoted.IsQuoted k)
    (hc : Mark ':' ds rest) : SpellsKey cs k rest

mutual

inductive Spells : List Char → Json → List Char → Prop
  | blank {b : Char} {cs : List Char} {v : Json} {rest : List Char} (hb : isSpace b = true)
    (h : Spells cs v rest) : Spells (b :: cs) v rest
  | null {rest : List Char} : Spells ('n' :: 'u' :: 'l' :: 'l' :: rest) null rest
  | yes {rest : List Char} : Spells ('t' :: 'r' :: 'u' :: 'e' :: rest) (bool true) rest
  | no {rest : List Char} : Spells ('f' :: 'a' :: 'l' :: 's' :: 'e' :: rest) (bool false) rest
  | num {l : Decimal.Literal} {cs rest : List Char} (h : l.IsWritten) (hl : l.Spells cs)
    (hr : Ends rest) : Spells (cs ++ rest) (num l) rest
  | str {cs rest : List Char} (h : Text.Quoted.IsQuoted cs) :
    Spells ('"' :: (cs ++ '"' :: rest)) (str cs) rest
  | noItems {cs rest : List Char} (h : Mark ']' cs rest) : Spells ('[' :: cs) (arr []) rest
  | arr {cs : List Char} {vs : List Json} {rest : List Char} (h : SpellsItems cs vs rest) :
    Spells ('[' :: cs) (arr vs) rest
  | noMembers {cs rest : List Char} (h : Mark '\x7d' cs rest) : Spells ('\x7b' :: cs) (obj []) rest
  | obj {cs : List Char} {ms : List (List Char × Json)} {rest : List Char}
    (h : SpellsMembers cs ms rest) : Spells ('\x7b' :: cs) (obj ms) rest

inductive SpellsItems : List Char → List Json → List Char → Prop
  | last {cs : List Char} {v : Json} {ds rest : List Char} (h : Spells cs v ds)
    (hm : Mark ']' ds rest) : SpellsItems cs [v] rest
  | next {cs : List Char} {v : Json} {ds es : List Char} {vs : List Json} {rest : List Char}
    (h : Spells cs v ds) (hm : Mark ',' ds es) (hs : SpellsItems es vs rest) :
    SpellsItems cs (v :: vs) rest

inductive SpellsMembers : List Char → List (List Char × Json) → List Char → Prop
  | last {cs k ds : List Char} {v : Json} {es rest : List Char} (hk : SpellsKey cs k ds)
    (h : Spells ds v es) (hm : Mark '\x7d' es rest) : SpellsMembers cs [(k, v)] rest
  | next {cs k ds : List Char} {v : Json} {es fs : List Char} {ms : List (List Char × Json)}
    {rest : List Char} (hk : SpellsKey cs k ds) (h : Spells ds v es) (hm : Mark ',' es fs)
    (hs : SpellsMembers fs ms rest) : SpellsMembers cs ((k, v) :: ms) rest

end

/-- A text that spells a tree, with nothing but blanks behind it. -/
def IsTextOf (s : String) (v : Json) : Prop :=
  ∃ rest, Spells s.toList v rest ∧ ∀ c ∈ rest, isSpace c = true

variable {c : Char} {cs ds k rest : List Char} {v : Json} {vs : List Json}
variable {ms : List (List Char × Json)} {n : Nat}

/-! Progress -/

theorem Mark.length_lt (h : Mark c cs rest) : rest.length < cs.length := by
  induction h
  case here => exact Nat.lt_succ_self _
  case blank ih => exact Nat.lt_succ_of_lt ih

theorem SpellsKey.length_lt (h : SpellsKey cs k rest) : rest.length < cs.length := by
  obtain ⟨hk, _, hc⟩ := h
  have hk := hk.length_lt
  have hc := hc.length_lt
  simp only [List.length_append, List.length_cons] at hk
  omega

theorem length_lt_of_isWritten {l : Decimal.Literal} (h : l.IsWritten) (hl : l.Spells cs) :
    rest.length < (cs ++ rest).length := by
  obtain ⟨_, _, rfl, _⟩ := hl.eq_cons h
  simp only [List.length_append, List.length_cons]
  omega

mutual

theorem Spells.length_lt {cs : List Char} {v : Json} {rest : List Char} :
    Spells cs v rest → rest.length < cs.length
  | .blank _ h => Nat.lt_succ_of_lt h.length_lt
  | .null | .yes | .no | .str _ => by simp; omega
  | .num h hl _ => length_lt_of_isWritten h hl
  | .noItems h | .arr h | .noMembers h | .obj h => Nat.lt_succ_of_lt h.length_lt

theorem SpellsItems.length_lt {cs : List Char} {vs : List Json} {rest : List Char} :
    SpellsItems cs vs rest → rest.length < cs.length
  | .last h hm => Nat.lt_trans hm.length_lt h.length_lt
  | .next h hm hs => Nat.lt_trans (Nat.lt_trans hs.length_lt hm.length_lt) h.length_lt

theorem SpellsMembers.length_lt {cs : List Char} {ms : List (List Char × Json)} {rest : List Char} :
    SpellsMembers cs ms rest → rest.length < cs.length
  | .last hk h hm => Nat.lt_trans (Nat.lt_trans hm.length_lt h.length_lt) hk.length_lt
  | .next hk h hm hs =>
    Nat.lt_trans (Nat.lt_trans (Nat.lt_trans hs.length_lt hm.length_lt) h.length_lt) hk.length_lt

end

/-! Blanks -/

theorem skipSpace_cons (h : isSpace c = false) (cs : List Char) : skipSpace (c :: cs) = c :: cs := by
  simp [skipSpace, h]

theorem skipSpace_blank (h : isSpace c = true) (cs : List Char) : skipSpace (c :: cs) = skipSpace cs := by
  simp [skipSpace, h]

theorem Mark.skipSpace_eq (h : Mark c cs rest) (hc : isSpace c = false) : skipSpace cs = c :: rest := by
  induction h
  case here => exact skipSpace_cons hc _
  case blank hb _ ih => rw [skipSpace_blank hb, ih]

-- Blanks in front do not count.
theorem readValue_congr (h : skipSpace cs = skipSpace ds) : readValue n cs = readValue n ds := by
  cases n
  case zero => rfl
  case succ n => simp only [readValue, h]

theorem readItems_congr (h : skipSpace cs = skipSpace ds) : readItems n cs = readItems n ds := by
  cases n
  case zero => rfl
  case succ n => simp only [readItems, readValue_congr h]

theorem readMembers_congr (h : skipSpace cs = skipSpace ds) :
    readMembers n cs = readMembers n ds := by
  cases n
  case zero => rfl
  case succ n => simp only [readMembers, readKey, h]

/-! Beginnings -/

-- A number begins in a way in which no other value does.
theorem eq_cons_of_isWritten {l : Decimal.Literal} (h : l.IsWritten) (hl : l.Spells cs) :
    ∃ c t, cs = c :: t ∧ isSpace c = false ∧ c ∉ ['n', 't', 'f', '"', '[', ']', '\x7b'] := by
  obtain ⟨c, t, ht, hc⟩ := hl.eq_cons h
  have hd : ∀ d : Char, d ≠ '-' → d.isDigit = false → c ≠ d := by
    rintro d hm hd rfl
    simp [hm, hd] at hc
  exact ⟨c, t, ht, by simp [isSpace, hd], by simp [hd]⟩

-- No value begins with a closing bracket.
theorem Spells.skipSpace_eq {cs : List Char} {v : Json} {rest : List Char} :
    Spells cs v rest → ∃ c t, skipSpace cs = c :: t ∧ isSpace c = false ∧ c ≠ ']'
  | .blank hb h => by
    rw [skipSpace_blank hb]
    exact h.skipSpace_eq
  | .num h hl _ =>
    have ⟨c, t, ht, hs, hc⟩ := eq_cons_of_isWritten h hl
    ⟨c, t ++ rest, ht ▸ skipSpace_cons hs _, hs, fun h => hc (by simp [h])⟩
  | .null | .yes | .no | .str _ | .noItems _ | .arr _ | .noMembers _ | .obj _ =>
    ⟨_, _, skipSpace_cons (by decide) _, by decide, by decide⟩

theorem Spells.mem_of_obj {cs : List Char} {ms : List (List Char × Json)} {rest : List Char} :
    Spells cs (Json.obj ms) rest → '\x7b' ∈ cs
  | .blank _ h => List.mem_cons_of_mem _ h.mem_of_obj
  | .noMembers _ | .obj _ => List.mem_cons_self

theorem SpellsItems.skipSpace_eq :
    SpellsItems cs vs rest → ∃ c t, skipSpace cs = c :: t ∧ isSpace c = false ∧ c ≠ ']'
  | .last h _ | .next h _ _ => h.skipSpace_eq

theorem SpellsMembers.skipSpace_eq : SpellsMembers cs ms rest → ∃ t, skipSpace cs = '"' :: t
  | .last ⟨hk, _, _⟩ _ _ | .next ⟨hk, _, _⟩ _ _ _ => ⟨_, hk.skipSpace_eq (by decide)⟩

/-! Reading, one step at a time -/

theorem readValue_num {l : Decimal.Literal} (h : l.IsWritten) (hl : l.Spells cs) (hr : Ends rest) :
    readValue (n + 1) (cs ++ rest) = some (num l, rest) := by
  have hread := Decimal.Literal.read_append h hl hr
  obtain ⟨c, t, rfl, hs, hn⟩ := eq_cons_of_isWritten h hl
  simp only [List.mem_cons, List.not_mem_nil, or_false, not_or] at hn
  rw [List.cons_append] at hread ⊢
  rw [readValue, skipSpace_cons hs]
  split <;> simp_all

theorem SpellsKey.readKey_eq (h : SpellsKey cs k rest) : readKey cs = some (k, rest) := by
  obtain ⟨hk, hq, hc⟩ := h
  simp [readKey, hk.skipSpace_eq (by decide), hq.split?_append, hc.skipSpace_eq (by decide)]

theorem readItems_last (hv : readValue n cs = some (v, ds)) (hm : Mark ']' ds rest) :
    readItems (n + 1) cs = some ([v], rest) := by
  simp [readItems, hv, hm.skipSpace_eq (by decide)]

theorem readItems_next {es : List Char} (hv : readValue n cs = some (v, ds)) (hm : Mark ',' ds es)
    (hs : readItems n es = some (vs, rest)) : readItems (n + 1) cs = some (v :: vs, rest) := by
  simp [readItems, hv, hm.skipSpace_eq (by decide), hs]

theorem readMembers_last {es : List Char} (hk : SpellsKey cs k ds) (hv : readValue n ds = some (v, es))
    (hm : Mark '\x7d' es rest) : readMembers (n + 1) cs = some ([(k, v)], rest) := by
  simp [readMembers, hk.readKey_eq, hv, hm.skipSpace_eq (by decide)]

theorem readMembers_next {es fs : List Char} (hk : SpellsKey cs k ds)
    (hv : readValue n ds = some (v, es)) (hm : Mark ',' es fs)
    (hs : readMembers n fs = some (ms, rest)) : readMembers (n + 1) cs = some ((k, v) :: ms, rest) := by
  simp [readMembers, hk.readKey_eq, hv, hm.skipSpace_eq (by decide), hs]

theorem readValue_arr (h : SpellsItems cs vs rest) (hi : readItems n cs = some (vs, rest)) :
    readValue (n + 1) ('[' :: cs) = some (arr vs, rest) := by
  obtain ⟨c, t, ht, hs, hc⟩ := h.skipSpace_eq
  have hi : readItems n (c :: t) = some (vs, rest) := by
    rw [← hi]
    exact readItems_congr (by rw [ht, skipSpace_cons hs])
  simp [readValue, skipSpace_cons (c := '[') rfl, ht, hc, hi]

theorem readValue_obj (h : SpellsMembers cs ms rest) (hm : readMembers n cs = some (ms, rest)) :
    readValue (n + 1) ('\x7b' :: cs) = some (obj ms, rest) := by
  obtain ⟨t, ht⟩ := h.skipSpace_eq
  have hm : readMembers n ('"' :: t) = some (ms, rest) := by
    rw [← hm]
    exact readMembers_congr (by rw [ht, skipSpace_cons rfl])
  simp [readValue, skipSpace_cons (c := '\x7b') rfl, ht, hm]

/-! Reading -/

-- A value takes at most two steps for each character that it is spelled with.
mutual

theorem Spells.readValue_eq {cs : List Char} {v : Json} {rest : List Char} {n : Nat}
    (h : Spells cs v rest) (hn : 2 * cs.length < n + 2 * rest.length) :
    readValue n cs = some (v, rest) := by
  have hp := h.length_lt
  cases n
  case zero => omega
  case succ n =>
    cases h with
    | blank hb h =>
      rw [readValue_congr (skipSpace_blank hb _)]
      exact h.readValue_eq (by simp at hn; omega)
    | num h hl hr => exact readValue_num h hl hr
    | arr h => exact readValue_arr h (h.readItems_eq (by simp at hn; omega))
    | obj h => exact readValue_obj h (h.readMembers_eq (by simp at hn; omega))
    | null => simp [readValue, skipSpace_cons (c := 'n') rfl]
    | yes => simp [readValue, skipSpace_cons (c := 't') rfl]
    | no => simp [readValue, skipSpace_cons (c := 'f') rfl]
    | str h => simp [readValue, skipSpace_cons (c := '"') rfl, h.split?_append]
    | noItems h => simp [readValue, skipSpace_cons (c := '[') rfl, h.skipSpace_eq (by decide)]
    | noMembers h => simp [readValue, skipSpace_cons (c := '\x7b') rfl, h.skipSpace_eq (by decide)]

theorem SpellsItems.readItems_eq {cs : List Char} {vs : List Json} {rest : List Char} {n : Nat}
    (h : SpellsItems cs vs rest) (hn : 2 * cs.length ≤ n + 2 * rest.length) :
    readItems n cs = some (vs, rest) := by
  have hl := h.length_lt
  cases n
  case zero => omega
  case succ n =>
    cases h with
    | last h hm =>
      have hm' := hm.length_lt
      exact readItems_last (h.readValue_eq (by omega)) hm
    | next h hm hs =>
      have hv := h.length_lt
      have hm' := hm.length_lt
      have hs' := hs.length_lt
      exact readItems_next (h.readValue_eq (by omega)) hm (hs.readItems_eq (by omega))

theorem SpellsMembers.readMembers_eq {cs : List Char} {ms : List (List Char × Json)} {rest : List Char}
    {n : Nat} (h : SpellsMembers cs ms rest) (hn : 2 * cs.length ≤ n + 2 * rest.length) :
    readMembers n cs = some (ms, rest) := by
  have hl := h.length_lt
  cases n
  case zero => omega
  case succ n =>
    cases h with
    | last hk h hm =>
      have hk' := hk.length_lt
      have hm' := hm.length_lt
      exact readMembers_last hk (h.readValue_eq (by omega)) hm
    | next hk h hm hs =>
      have hk' := hk.length_lt
      have hv := h.length_lt
      have hm' := hm.length_lt
      have hs' := hs.length_lt
      exact readMembers_next hk (h.readValue_eq (by omega)) hm (hs.readMembers_eq (by omega))

end

theorem IsTextOf.read_eq {s : String} (h : IsTextOf s v) : read s = some v := by
  obtain ⟨rest, hs, hr⟩ := h
  have hl := hs.length_lt
  have he : skipSpace rest = [] := List.dropWhile_eq_nil_iff.mpr hr
  simp [read, readChars, hs.readValue_eq (n := 2 * s.toList.length + 2) (by omega), he]

end Atelier.Json
