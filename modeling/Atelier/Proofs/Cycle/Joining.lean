import Atelier.Proofs.Cycle.Reordering
import Atelier.Proofs.Tally

/-!
Cycles one after another. Two codes do as two cycles what they do as one, if no observation ends the first
and the second has no directives: their marks are added up, and a pitch that the first one leaves is there
for the first sound of the second.
-/

namespace Atelier

def Marks.join (m n : Marks) : Marks :=
  ⟨m.painted + n.painted, m.tally.merge n.tally, m.drew || n.drew, m.tones ++ n.tones⟩

-- The record of one cycle that does what two have done, where only the first of them has directives.
def Cycle.followedBy (c d : Cycle) : Cycle where
  outcome := if c.tokens = [] then d.outcome else c.outcome
  tokens := c.tokens ++ d.tokens
  marks := c.marks.join d.marks
  archived := c.archived

namespace Token

variable {ts us : List Token} {p : Option Pitch}

-- The sounds of some tokens, with a pitch that is left from before.
def tones (p : Option Pitch) : List Token → List Tone
  | [] => []
  | .sound c :: ts => (Tone.ofChar? c p).toList ++ tones none ts
  | .pitch q :: ts => tones (some q) ts
  | _ :: ts => tones p ts

-- The pitch that some tokens leave.
def pitchAfter (p : Option Pitch) : List Token → Option Pitch
  | [] => p
  | .sound _ :: ts => pitchAfter none ts
  | .pitch q :: ts => pitchAfter (some q) ts
  | _ :: ts => pitchAfter p ts

-- Neither a sound nor the pitch of one.
def IsSilent : Token → Prop
  | .sound _ | .pitch _ => False
  | _ => True

instance (t : Token) : Decidable t.IsSilent := by
  cases t <;> unfold IsSilent <;> infer_instance

theorem tones_cons (p : Option Pitch) (t : Token) (ts : List Token) :
    tones p (t :: ts) = tones p [t] ++ tones (pitchAfter p [t]) ts := by
  cases t <;> simp [tones, pitchAfter]

theorem pitchAfter_cons (p : Option Pitch) (t : Token) (ts : List Token) :
    pitchAfter p (t :: ts) = pitchAfter (pitchAfter p [t]) ts := by
  cases t <;> rfl

theorem pitchAfter_append (p : Option Pitch) (ts us : List Token) :
    pitchAfter p (ts ++ us) = pitchAfter (pitchAfter p ts) us := by
  induction ts generalizing p
  case nil => rfl
  case cons t ts ih => rw [List.cons_append, pitchAfter_cons, ih, ← pitchAfter_cons]

theorem IsSilent.tones_singleton {t : Token} (h : t.IsSilent) : tones p [t] = [] := by
  cases t
  case sound => exact h.elim
  case pitch => exact h.elim
  all_goals rfl

theorem IsSilent.pitchAfter_singleton {t : Token} (h : t.IsSilent) : pitchAfter p [t] = p := by
  cases t
  case sound => exact h.elim
  case pitch => exact h.elim
  all_goals rfl

theorem pitchAfter_of_silent (h : ∀ t ∈ ts, t.IsSilent) : pitchAfter p ts = p := by
  induction ts
  case nil => rfl
  case cons t ts ih =>
    rw [pitchAfter_cons, (h t List.mem_cons_self).pitchAfter_singleton]
    exact ih fun u hu => h u (List.mem_cons_of_mem t hu)

theorem tones_silent_append (h : ∀ t ∈ ts, t.IsSilent) : tones p (ts ++ us) = tones p us := by
  induction ts
  case nil => rfl
  case cons t ts ih =>
    have ht := h t List.mem_cons_self
    rw [List.cons_append, tones_cons, ht.tones_singleton, ht.pitchAfter_singleton]
    exact ih fun u hu => h u (List.mem_cons_of_mem t hu)

-- The tokens of the second pass, if the cycle comes to it.
def acting (ts : List Token) : List Token :=
  if .thinkPause ∈ ts ∨ ∃ d ∈ directives ts, d.isObservation then [] else ts

theorem acting_of_plain (hp : .thinkPause ∉ ts) (ho : ∀ d ∈ directives ts, d.isObservation = false) :
    acting ts = ts := by
  apply if_neg
  rintro (h | ⟨d, hd, h⟩)
  case inl => exact hp h
  case inr =>
    rw [ho d hd] at h
    contradiction

theorem directives_append (ts us : List Token) :
    directives (ts ++ us) = directives ts ++ directives us :=
  List.filterMap_append

end Token

namespace Studio

variable {s s' : Studio} {m m' : Marks} {t : Token} {ts a b : List Token} {c : Cycle}

/-! Marks -/

theorem act_join (s : Studio) (m m' : Marks) (t : Token) :
    s.act (m.join m') t = (s.act m' t).map fun r => (r.1, m.join r.2) := by
  cases t
  case move d =>
    simp only [act]
    cases s.canvas.move d
    case error => rfl
    case ok r =>
      obtain ⟨canvas, o⟩ := r
      simp only [Checked.ok_bind]
      split
      case isTrue =>
        simp only [Marks.join, Tally.add_merge, Nat.add_assoc, pure, Except.pure, Except.map, Bool.or_true]
      case isFalse => rfl
  case sound c =>
    simp only [act, Marks.join, List.append_assoc]
    rfl
  all_goals rfl

theorem actFrom_join (s : Studio) (m m' : Marks) (ts : List Token) :
    s.actFrom (m.join m') ts = (s.actFrom m' ts).map fun r => (r.1, m.join r.2) := by
  induction ts generalizing s m'
  case nil => rfl
  case cons t ts ih =>
    rw [actFrom_cons, act_join, actFrom_cons]
    cases s.act m' t
    case error => rfl
    case ok r => exact ih r.1 r.2

theorem isOrdered_act (h : s.act m t = .ok (s', m')) (hm : m.tally.IsOrdered) : m'.tally.IsOrdered := by
  cases t
  case move d =>
    obtain ⟨⟨canvas, o⟩, _, h⟩ := Checked.bind_eq_ok_iff.mp h
    simp only at h
    split at h
    all_goals cases h
    case isTrue => exact Tally.isOrdered_add ..
    case isFalse => exact hm
  all_goals
    cases h
    exact hm

theorem isOrdered_actFrom (h : s.actFrom m ts = .ok (s', m')) (hm : m.tally.IsOrdered) :
    m'.tally.IsOrdered := by
  induction ts generalizing s m
  case nil =>
    cases h
    exact hm
  case cons t ts ih =>
    rw [actFrom_cons] at h
    obtain ⟨r, hr, h⟩ := Checked.bind_eq_ok_iff.mp h
    exact ih h (isOrdered_act hr hm)

theorem join_none (h : m.tally.IsOrdered) : m.join .none = m := by
  simp only [Marks.join, Marks.none, h.merge_empty, Nat.add_zero, Bool.or_false, List.append_nil]

/-! Cycles -/

theorem isSome_observed_iff {ds : List Directive} {o : Option Raster} {d : Directed}
    (h : s.directAll o ds = .ok d) : d.observed.isSome ↔ ∃ e ∈ ds, e.isObservation := by
  induction ds generalizing s o
  case nil =>
    cases h
    simp
  case cons e ds ih =>
    cases s.observation?_eq_none_or e
    case inl hn =>
      simp only [directAll, hn.left, Checked.bind_eq_ok_iff] at h
      obtain ⟨_, _, h⟩ := h
      simp [ih h, hn.right]
    case inr hs =>
      obtain ⟨_, ht, he⟩ := hs
      simp only [directAll, ht] at h
      cases h
      simp [he]

theorem observed_eq_none {ds : List Directive} {o : Option Raster} {d : Directed}
    (h : s.directAll o ds = .ok d) (ho : ∀ e ∈ ds, e.isObservation = false) : d.observed = none := by
  rw [← Option.not_isSome_iff_eq_none, isSome_observed_iff h]
  rintro ⟨e, he, hi⟩
  rw [ho e he] at hi
  contradiction

-- The record of a cycle that comes to its second pass.
def completed (ts : List Token) (m : Marks) (archived : Option Raster) : Cycle :=
  ⟨if ts = [] then .empty else .completed, ts, m, archived⟩

theorem run_of_acting (hp : .thinkPause ∉ ts) (ho : ∀ d ∈ Token.directives ts, d.isObservation = false) :
    s.run ts = s.directAll none (Token.directives ts) >>= fun d =>
      (d.studio.actFrom .none ts).map fun r => (r.1, completed ts r.2 d.archived) := by
  by_cases hn : ts = []
  case pos =>
    subst hn
    rfl
  case neg =>
    rw [run_eq_passes hn hp]
    cases hd : s.directAll none (Token.directives ts)
    case error => rfl
    case ok d =>
      simp only [Checked.ok_bind, finish, observed_eq_none hd ho, completed, hn, if_false]

theorem run_of_deeds (hp : .thinkPause ∉ ts) (hd : Token.directives ts = []) :
    s.run ts = (s.actFrom .none ts).map fun r => (r.1, completed ts r.2 none) := by
  rw [run_of_acting hp (by simp [hd]), hd]
  rfl

theorem followedBy_completed (m m' : Marks) (archived : Option Raster) :
    (completed a m archived).followedBy (completed b m' none) =
      completed (a ++ b) (m.join m') archived := by
  cases a <;> cases b <;> rfl

theorem actFrom_append (s : Studio) (m : Marks) (a b : List Token) :
    s.actFrom m (a ++ b) = s.actFrom m a >>= fun r => r.1.actFrom r.2 b :=
  List.foldlM_append

theorem run_append_eq (ha : .thinkPause ∉ a) (ho : ∀ d ∈ Token.directives a, d.isObservation = false)
    (hb : .thinkPause ∉ b) (hd : Token.directives b = []) :
    s.run (a ++ b) = (do
      let (s₁, c) ← s.run a
      let (s₂, d) ← s₁.run b
      return (s₂, c.followedBy d)) := by
  have hab : Token.directives (a ++ b) = Token.directives a := by
    rw [Token.directives_append, hd, List.append_nil]
  rw [run_of_acting (by simp [ha, hb]) (hab ▸ ho), run_of_acting ha ho, hab]
  cases s.directAll none (Token.directives a)
  case error => rfl
  case ok o =>
    simp only [Checked.ok_bind, actFrom_append]
    cases hm : o.studio.actFrom .none a
    case error => rfl
    case ok r =>
      obtain ⟨s₁, m⟩ := r
      have hj := s₁.actFrom_join m .none b
      rw [join_none (isOrdered_actFrom hm Tally.isOrdered_empty)] at hj
      simp only [Checked.ok_bind, Except.map, run_of_deeds hb hd, hj]
      cases s₁.actFrom .none b
      case error => rfl
      case ok r => simp only [Checked.ok_bind, followedBy_completed]; rfl

/-! Pitches -/

theorem tones_act (h : s.act m t = .ok (s', m')) :
    m'.tones = m.tones ++ Token.tones s.pitch [t] ∧ s'.pitch = Token.pitchAfter s.pitch [t] := by
  cases t
  case move d =>
    obtain ⟨⟨canvas, o⟩, _, h⟩ := Checked.bind_eq_ok_iff.mp h
    simp only at h
    split at h
    all_goals
      cases h
      exact ⟨(List.append_nil _).symm, rfl⟩
  all_goals cases h
  case sound => exact ⟨by simp [Token.tones], rfl⟩
  all_goals exact ⟨(List.append_nil _).symm, rfl⟩

theorem tones_actFrom (h : s.actFrom m ts = .ok (s', m')) :
    m'.tones = m.tones ++ Token.tones s.pitch ts ∧ s'.pitch = Token.pitchAfter s.pitch ts := by
  induction ts generalizing s m
  case nil =>
    cases h
    exact ⟨(List.append_nil _).symm, rfl⟩
  case cons t ts ih =>
    rw [actFrom_cons] at h
    obtain ⟨r, hr, h⟩ := Checked.bind_eq_ok_iff.mp h
    have ⟨ht, hp⟩ := tones_act hr
    have ⟨hts, hps⟩ := ih h
    rw [hts, ht, hps, hp, List.append_assoc, ← Token.tones_cons, ← Token.pitchAfter_cons]
    exact ⟨rfl, rfl⟩

theorem pitch_direct {d : Directive} (h : s.direct d = .ok s') : s'.pitch = s.pitch := by
  have hz {z : Zoom} (h : s.withZoom z = .ok s') : s'.pitch = s.pitch := by
    obtain ⟨_, _, h⟩ := Checked.bind_eq_ok_iff.mp h
    cases h
    rfl
  cases d
  case zoomOut => exact hz h
  case zoomIn => exact hz h
  all_goals
    cases h
    rfl

theorem pitch_directAll {ds : List Directive} {o : Option Raster} {d : Directed}
    (h : s.directAll o ds = .ok d) : d.studio.pitch = s.pitch := by
  induction ds generalizing s o
  case nil =>
    cases h
    rfl
  case cons e ds ih =>
    unfold directAll at h
    split at h
    case h_1 =>
      cases h
      rfl
    case h_2 =>
      obtain ⟨s₁, he, h⟩ := Checked.bind_eq_ok_iff.mp h
      rw [ih h, pitch_direct he]

theorem tones_finish {d : Directed} (h : finish d ts = .ok (s', c)) :
    c.marks.tones = Token.tones d.studio.pitch (if d.observed.isSome then [] else ts) ∧
      s'.pitch = Token.pitchAfter d.studio.pitch (if d.observed.isSome then [] else ts) := by
  unfold finish at h
  split at h
  case h_1 ho =>
    cases h
    rw [ho]
    exact ⟨rfl, rfl⟩
  case h_2 ho =>
    cases hm : d.studio.actFrom .none ts
    case error =>
      rw [hm] at h
      contradiction
    case ok r =>
      rw [hm] at h
      cases h
      rw [ho]
      exact tones_actFrom hm

theorem tones_run (h : s.run ts = .ok (s', c)) :
    c.marks.tones = Token.tones s.pitch (Token.acting ts) ∧
      s'.pitch = Token.pitchAfter s.pitch (Token.acting ts) := by
  by_cases hn : ts = []
  case pos =>
    subst hn
    cases h
    exact ⟨rfl, rfl⟩
  case neg =>
    by_cases hp : .thinkPause ∈ ts
    case pos =>
      rw [run_of_thinkPause hp] at h
      cases h
      rw [Token.acting, if_pos (.inl hp)]
      exact ⟨rfl, rfl⟩
    case neg =>
      rw [run_eq_passes hn hp] at h
      obtain ⟨d, hd, h⟩ := Checked.bind_eq_ok_iff.mp h
      have ha : Token.acting ts = if d.observed.isSome then [] else ts := by
        simp only [Token.acting, hp, false_or, isSome_observed_iff hd]
      rw [ha, ← pitch_directAll hd]
      exact tones_finish h

-- Cycles one after another.
def runs (s : Studio) : List (List Token) → Checked (Studio × List Cycle)
  | [] => return (s, [])
  | ts :: tss => do
    let (s, c) ← s.run ts
    let (s, cs) ← s.runs tss
    return (s, c :: cs)

theorem pitch_runs_of_silent {tss : List (List Token)} {cs : List Cycle} (h : s.runs tss = .ok (s', cs))
    (hs : ∀ ts ∈ tss, ∀ t ∈ Token.acting ts, t.IsSilent) : s'.pitch = s.pitch := by
  induction tss generalizing s cs
  case nil =>
    cases h
    rfl
  case cons ts tss ih =>
    obtain ⟨⟨s₁, c⟩, hr, h⟩ := Checked.bind_eq_ok_iff.mp h
    obtain ⟨⟨s₂, cs⟩, hrs, h⟩ := Checked.bind_eq_ok_iff.mp h
    cases h
    rw [ih hrs fun us hu => hs us (List.mem_cons_of_mem ts hu), (tones_run hr).right]
    exact Token.pitchAfter_of_silent (hs ts List.mem_cons_self)

-- As one cycle, two codes leave the same studio as in two cycles, and the marks are those of both. A pitch
-- at the end of the first code waits for the next sound, through cycles without one, and for no other.
theorem run_append_of_plain (ha : .thinkPause ∉ a)
    (ho : ∀ d ∈ Token.directives a, d.isObservation = false) (hb : .thinkPause ∉ b)
    (hd : Token.directives b = []) :
    s.run (a ++ b) = (do
      let (s₁, c) ← s.run a
      let (s₂, d) ← s₁.run b
      return (s₂, c.followedBy d)) ∧
    ∀ p tss b₁ x b₂ s₁ c₁ s₂ cs s₃ c₃,
      s.run (a ++ [.pitch p]) = .ok (s₁, c₁) → s₁.runs tss = .ok (s₂, cs) →
      (∀ ts ∈ tss, ∀ t ∈ Token.acting ts, t.IsSilent) →
      b = b₁ ++ .sound x :: b₂ → (∀ t ∈ b₁, t.IsSilent) → s₂.run b = .ok (s₃, c₃) →
      c₃.marks.tones = (Tone.ofChar? x (some p)).toList ++ Token.tones none b₂ := by
  refine ⟨run_append_eq ha ho hb hd, ?_⟩
  intro p tss b₁ x b₂ s₁ c₁ s₂ cs s₃ c₃ h₁ h₂ hs he hb₁ h₃
  have hp₁ : s₁.pitch = some p := by
    have hd : Token.directives (a ++ [.pitch p]) = Token.directives a := by
      rw [Token.directives_append]
      exact List.append_nil _
    rw [(tones_run h₁).right, Token.acting_of_plain (by simp [ha]) (hd ▸ ho), Token.pitchAfter_append]
    rfl
  rw [(tones_run h₃).left, Token.acting_of_plain hb (by simp [hd]), pitch_runs_of_silent h₂ hs, hp₁, he,
    Token.tones_silent_append hb₁]
  rfl

def arrival : List Token :=
  [.directive .fillCanvas, .color .red, .move .right, .sound '!']

def departure : List Token :=
  [.move .left, .sound '@', .sound '#']

-- The pitch is not spent in a pause for thinking that holds a sound, nor in a cycle without one.
def between : List (List Token) :=
  [[.thinkPause, .sound '!'], [.move .up]]

theorem run_append_of_arrival_and_departure :
    (.thinkPause ∉ arrival ∧ (∀ d ∈ Token.directives arrival, d.isObservation = false) ∧
      .thinkPause ∉ departure ∧ Token.directives departure = []) ∧
    (∃ s₁ c s₂ d, (fresh smallCanvas).run arrival = .ok (s₁, c) ∧ s₁.run departure = .ok (s₂, d) ∧
      (fresh smallCanvas).run (arrival ++ departure) = .ok (s₂, c.followedBy d)) ∧
    ∃ s₁ c₁ s₂ cs s₃ c₃,
      (fresh smallCanvas).run (arrival ++ [.pitch .low]) = .ok (s₁, c₁) ∧
      s₁.runs between = .ok (s₂, cs) ∧ s₂.run departure = .ok (s₃, c₃) ∧
      c₃.marks.tones = (Tone.ofChar? '@' (some .low)).toList ++ Token.tones none [.sound '#'] := by
  have ha : .thinkPause ∉ arrival := by decide
  have ho : ∀ d ∈ Token.directives arrival, d.isObservation = false := by decide
  have hb : .thinkPause ∉ departure := by decide
  have ⟨hj, hp⟩ := run_append_of_plain (s := fresh smallCanvas) ha ho hb rfl
  refine ⟨⟨ha, ho, hb, rfl⟩, ?joined, ?pitched⟩
  case joined =>
    have h : ((fresh smallCanvas).run (arrival ++ departure)).toOption.any fun _ => true := by
      decide +kernel
    obtain ⟨_, h, _⟩ := Checked.exists_eq_ok_of_any h
    obtain ⟨⟨s₁, c⟩, h₁, hr⟩ := Checked.bind_eq_ok_iff.mp (hj ▸ h)
    obtain ⟨⟨s₂, d⟩, h₂, he⟩ := Checked.bind_eq_ok_iff.mp hr
    cases he
    exact ⟨s₁, c, s₂, d, h₁, h₂, h⟩
  case pitched =>
    have h : (do
        let (s, _) ← (fresh smallCanvas).run (arrival ++ [Token.pitch .low])
        let (s, _) ← s.runs between
        s.run departure).toOption.any fun _ => true := by
      decide +kernel
    obtain ⟨⟨s₃, c₃⟩, h, _⟩ := Checked.exists_eq_ok_of_any h
    obtain ⟨⟨s₁, c₁⟩, h₁, h⟩ := Checked.bind_eq_ok_iff.mp h
    obtain ⟨⟨s₂, cs⟩, h₂, h₃⟩ := Checked.bind_eq_ok_iff.mp h
    have hs : ∀ ts ∈ between, ∀ t ∈ Token.acting ts, t.IsSilent := by decide
    have hb₁ : ∀ t ∈ [Token.move .left], t.IsSilent := by decide
    have ht := hp .low between [.move .left] '@' [.sound '#'] s₁ c₁ s₂ cs s₃ c₃ h₁ h₂ hs rfl hb₁ h₃
    exact ⟨s₁, c₁, s₂, cs, s₃, c₃, h₁, h₂, h₃, ht⟩

end Studio

end Atelier
