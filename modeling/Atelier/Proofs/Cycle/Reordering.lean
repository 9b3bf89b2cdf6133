import Atelier.Proofs.Cycle.Clearing

/-!
The two passes of a cycle. The first one sees only the directives of a code and the second one only its
other tokens, so it does not matter how the two kinds stand between each other.
-/

namespace Atelier

namespace Token

def directives (ts : List Token) : List Directive :=
  ts.filterMap directive?

-- The tokens of the second pass.
def deeds (ts : List Token) : List Token :=
  ts.filter fun t => !t.isDirective

variable {ts : List Token}

theorem thinkPause_mem_deeds_iff : .thinkPause ∈ deeds ts ↔ .thinkPause ∈ ts := by
  simp [deeds, isDirective, directive?]

theorem parts_eq_nil_iff : directives ts = [] ∧ deeds ts = [] ↔ ts = [] := by
  constructor
  case mp =>
    intro ⟨hd, hn⟩
    apply List.eq_nil_iff_forall_not_mem.mpr
    intro t ht
    have hd : t.directive? = none := List.filterMap_eq_nil_iff.mp hd t ht
    have hn := List.filter_eq_nil_iff.mp hn t ht
    simp [isDirective, hd] at hn
  case mpr =>
    rintro rfl
    exact ⟨rfl, rfl⟩

end Token

-- The record of the same cycle under another code.
def Cycle.retold (c : Cycle) (ts : List Token) : Cycle :=
  { c with tokens := ts }

namespace Studio

variable {s : Studio} {m : Marks} {t : Token} {ts us : List Token}

/-! The second pass -/

-- The tokens add to marks that are there already.
def actFrom (s : Studio) (m : Marks) (ts : List Token) : Checked (Studio × Marks) :=
  ts.foldlM (fun (s, m) t => s.act m t) (s, m)

theorem actFrom_cons (s : Studio) (m : Marks) (t : Token) (ts : List Token) :
    s.actFrom m (t :: ts) = s.act m t >>= fun r => r.1.actFrom r.2 ts :=
  List.foldlM_cons

theorem act_of_isDirective (h : t.isDirective) : s.act m t = .ok (s, m) := by
  cases t
  case directive => rfl
  all_goals contradiction

theorem actFrom_deeds (s : Studio) (m : Marks) (ts : List Token) :
    s.actFrom m (Token.deeds ts) = s.actFrom m ts := by
  induction ts generalizing s m
  case nil => rfl
  case cons t ts ih =>
    rw [actFrom_cons, Token.deeds]
    cases ht : t.isDirective
    case false =>
      rw [List.filter_cons_of_pos (by rw [ht]; rfl), actFrom_cons]
      exact bind_congr fun r => ih r.1 r.2
    case true =>
      rw [List.filter_cons_of_neg (by rw [ht]; nofun), act_of_isDirective ht]
      exact ih s m

/-! Both passes -/

-- What a cycle does after its directives.
def finish (d : Directed) (ts : List Token) : Checked (Studio × Cycle) :=
  match d.observed with
  | some (o, text) => .ok (d.studio, { Cycle.idle (.observation o text) ts with archived := d.archived })
  | none => (d.studio.actFrom .none ts).map fun r => (r.1, ⟨.completed, ts, r.2, d.archived⟩)

theorem run_of_thinkPause (h : .thinkPause ∈ ts) : s.run ts = .ok (s, .idle .thinkPause ts) := by
  have hn : ¬ts.isEmpty := fun hn => List.ne_nil_of_mem h (List.isEmpty_iff.mp hn)
  rw [run, if_neg hn, if_pos (List.contains_iff_mem.mpr h)]
  rfl

theorem run_eq_passes (hn : ts ≠ []) (hp : .thinkPause ∉ ts) :
    s.run ts = s.directAll none (Token.directives ts) >>= fun d => finish d ts := by
  rw [run, if_neg (mt List.isEmpty_iff.mp hn), if_neg (mt List.contains_iff_mem.mp hp)]
  apply bind_congr
  intro d
  cases ho : d.observed
  case some => simp only [finish, ho]; rfl
  case none =>
    simp only [finish, ho]
    show d.studio.actFrom .none ts >>= _ = _
    cases d.studio.actFrom .none ts <;> rfl

theorem finish_of_same_deeds {d : Directed} (h : Token.deeds ts = Token.deeds us) :
    finish d us = (finish d ts).map fun r => (r.1, r.2.retold us) := by
  have ha : d.studio.actFrom .none ts = d.studio.actFrom .none us := by
    rw [← actFrom_deeds, h, actFrom_deeds]
  unfold finish
  split
  case h_1 => rfl
  case h_2 =>
    rw [ha]
    cases d.studio.actFrom .none us <;> rfl

-- What a code does, and what is told of it but for the code itself, follows from its directives in their
-- order and its other tokens in theirs.
theorem run_of_same_parts (hd : Token.directives ts = Token.directives us)
    (hn : Token.deeds ts = Token.deeds us) :
    s.run us = (s.run ts).map fun (s', c) => (s', c.retold us) := by
  have he : ts = [] ↔ us = [] := by rw [← Token.parts_eq_nil_iff, hd, hn, Token.parts_eq_nil_iff]
  have hp : .thinkPause ∈ ts ↔ .thinkPause ∈ us := by
    rw [← Token.thinkPause_mem_deeds_iff, hn, Token.thinkPause_mem_deeds_iff]
  by_cases hts : ts = []
  case pos =>
    rw [hts, he.mp hts]
    rfl
  case neg =>
    by_cases htp : .thinkPause ∈ ts
    case pos =>
      rw [run_of_thinkPause htp, run_of_thinkPause (hp.mp htp)]
      rfl
    case neg =>
      rw [run_eq_passes hts htp, run_eq_passes (mt he.mpr hts) (mt hp.mpr htp), hd]
      cases s.directAll none (Token.directives us)
      case error => rfl
      case ok d => exact finish_of_same_deeds hn

-- The same directives before the other tokens, and among them.
def sorted : List Token :=
  [.directive .fillCanvas, .directive .clearAll, .color .red, .pitch .low, .move .right, .sound '!']

def scattered : List Token :=
  [.color .red, .directive .fillCanvas, .pitch .low, .move .right, .directive .clearAll, .sound '!']

theorem run_of_same_parts_of_scattered :
    Token.directives sorted = Token.directives scattered ∧ Token.deeds sorted = Token.deeds scattered ∧
    ∃ s' c, (fresh smallCanvas).run sorted = .ok (s', c) ∧ c.marks.tones.length = 1 ∧ c.marks.drew ∧
      (fresh smallCanvas).run scattered = .ok (s', c.retold scattered) := by
  have h : ((fresh smallCanvas).run sorted).toOption.any fun r =>
      r.2.marks.tones.length = 1 ∧ r.2.marks.drew := by
    decide +kernel
  obtain ⟨⟨s', c⟩, h, hm⟩ := Checked.exists_eq_ok_of_any h
  have ⟨ht, hd⟩ := of_decide_eq_true hm
  have hr := @run_of_same_parts (fresh smallCanvas) sorted scattered rfl rfl
  rw [h] at hr
  exact ⟨rfl, rfl, s', c, h, ht, hd, hr⟩

end Studio

end Atelier
