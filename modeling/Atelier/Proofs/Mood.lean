import Atelier.Mood
import Mathlib.Data.List.Induction

/-!
How moods shift. After a change of the category the mood stays as it is for ten evaluations. Whenever it does not
stay, it takes over the category that the influences speak for, and the depth goes one step towards its goal. So
there is always a word for the mood.
-/

namespace Atelier.Mood

-- All that happens to a mood.
inductive Call
  | influence (s : Influence) (amount : Float)
  | evaluate (e : Evidence)

namespace Call

def apply (m : Mood) : Call → Mood
  | influence s amount => m.influence s amount
  | evaluate e         => (m.evaluate e).1

def isEvaluation : Call → Bool
  | influence .. => false
  | evaluate _   => true

end Call

-- The mood after some calls.
def called (m : Mood) (cs : List Call) : Mood :=
  cs.foldl Call.apply m

def evaluations (cs : List Call) : Nat :=
  cs.countP Call.isEvaluation

-- The mood to begin with: that of a stored word, if there is one.
def start (word : Option String) : Mood :=
  word.elim initial ofWord

-- One of the latest ten evaluations has changed the category.
def Rests (m : Mood) (cs : List Call) : Prop :=
  ∃ before e since, cs = before ++ .evaluate e :: since ∧ ((m.called before).evaluate e).2 = true ∧
    evaluations since < 10

-- The same category and the same depth, so the same word.
structure SameWord (m m' : Mood) : Prop where
  category : m'.category = m.category
  depth : m'.depth = m.depth

-- At most one step towards a goal, and never past it.
inductive Steps (goal : Nat) : Nat → Nat → Prop
  | stays {depth} : Steps goal depth depth
  | deepens {depth} : depth < goal → Steps goal depth (depth + 1)
  | lightens {depth} : goal ≤ depth → Steps goal (depth + 1) depth

-- What an evaluation can do.
inductive Evaluates (m : Mood) (e : Evidence) : Mood × Bool → Prop
  | rests : 0 < m.cooldown →
    Evaluates m e ({ m with influences := m.influences.fade, cooldown := m.cooldown - 1 }, false)
  | shifts : m.cooldown = 0 → target m.influences e ≠ m.category →
    Evaluates m e (⟨target m.influences e, approach m.depth (targetDepth e), m.influences.fade, 10⟩, true)
  | settles : m.cooldown = 0 → target m.influences e = m.category →
    Evaluates m e (⟨target m.influences e, approach m.depth (targetDepth e), m.influences.fade, 0⟩, false)

variable {m : Mood} {e e' : Evidence} {cs : List Call} {depth goal : Nat}

theorem called_cons (m : Mood) (c : Call) (cs : List Call) : m.called (c :: cs) = (c.apply m).called cs :=
  rfl

theorem called_concat (m : Mood) (cs : List Call) (c : Call) : m.called (cs ++ [c]) = c.apply (m.called cs) :=
  List.foldl_append

theorem evaluations_append (cs ds : List Call) : evaluations (cs ++ ds) = evaluations cs + evaluations ds :=
  List.countP_append

theorem SameWord.refl (m : Mood) : m.SameWord m :=
  ⟨rfl, rfl⟩

/-! Evaluations -/

theorem evaluates (m : Mood) (e : Evidence) : m.Evaluates e (m.evaluate e) := by
  unfold evaluate
  by_cases hc : m.cooldown = 0
  case neg =>
    simp only [hc, if_false]
    exact .rests (Nat.pos_of_ne_zero hc)
  case pos =>
    by_cases ht : target m.influences e = m.category
    case pos =>
      simp only [hc, if_true, bne_eq_false_iff_eq.mpr ht, Bool.false_eq_true, if_false]
      exact .settles hc ht
    case neg =>
      simp only [hc, if_true, bne_iff_ne.mpr ht]
      exact .shifts hc ht

theorem shift_iff (m : Mood) (e : Evidence) :
    (m.evaluate e).2 = true ↔ (m.evaluate e).1.category ≠ m.category := by
  have he := m.evaluates e
  generalize m.evaluate e = r at he
  cases he
  case rests => simp
  case shifts _ ht => simp [ht]
  case settles _ ht => simp [ht]

theorem cooldown_of_shift (h : (m.evaluate e).2 = true) :
    m.cooldown = 0 ∧ (m.evaluate e).1.cooldown = 10 := by
  have he := m.evaluates e
  generalize m.evaluate e = r at he h
  cases he
  case rests => contradiction
  case shifts hc _ => exact ⟨hc, rfl⟩
  case settles => contradiction

theorem targetDepth_le (e : Evidence) : targetDepth e ≤ maxDepth := by
  unfold targetDepth maxDepth
  repeat' split
  all_goals decide

theorem steps_approach (hg : goal ≤ maxDepth) : Steps goal depth (approach depth goal) := by
  unfold approach
  split
  case isTrue hd =>
    rw [Nat.min_eq_left (Nat.lt_of_lt_of_le hd hg)]
    exact .deepens hd
  case isFalse =>
    split
    case isFalse => exact .stays
    case isTrue hd =>
      obtain ⟨n, rfl⟩ := Nat.exists_eq_add_one_of_ne_zero (Nat.ne_zero_of_lt hd)
      exact .lightens (Nat.le_of_lt_succ hd)

theorem steps_evaluate (m : Mood) (e : Evidence) : Steps (targetDepth e) m.depth (m.evaluate e).1.depth := by
  have he := m.evaluates e
  generalize m.evaluate e = r at he
  cases he
  case rests => exact .stays
  case shifts => exact steps_approach (targetDepth_le e)
  case settles => exact steps_approach (targetDepth_le e)

/-! Runs -/

theorem depth_ofWord_le (w : String) : (ofWord w).depth ≤ maxDepth := by
  unfold ofWord
  simp only
  split
  case h_2 => decide
  case h_1 c d hp =>
    obtain ⟨c, _, hp⟩ := List.exists_of_findSome?_eq_some hp
    obtain ⟨d, hd, hp⟩ := Option.map_eq_some_iff.mp hp
    cases hp
    have hl := (List.findIdx?_eq_some_iff_getElem.mp hd).choose
    rw [c.length_words] at hl
    exact Nat.le_of_lt_succ hl

theorem depth_start_le (word : Option String) : (start word).depth ≤ maxDepth := by
  cases word
  case none => decide
  case some w => exact depth_ofWord_le w

theorem cooldown_start (word : Option String) : (start word).cooldown = 0 := by
  cases word
  case none => rfl
  case some w =>
    simp only [start, Option.elim_some, ofWord]
    split <;> rfl

theorem depth_called_le (h : m.depth ≤ maxDepth) (cs : List Call) : (m.called cs).depth ≤ maxDepth := by
  induction cs generalizing m
  case nil => exact h
  case cons c cs ih =>
    cases c
    case influence => exact ih h
    case evaluate => exact ih (depth_evaluate_le h)

theorem exists_word (h : m.depth ≤ maxDepth) : ∃ w ∈ m.category.words, m.word? = some w := by
  have hl : m.depth < m.category.words.length := by
    rw [m.category.length_words]
    exact Nat.lt_succ_of_le h
  exact ⟨_, List.getElem_mem hl, List.getElem?_eq_getElem hl⟩

-- As long as the time of rest lasts, evaluations only use it up.
theorem rest_called (h : evaluations cs ≤ m.cooldown) :
    m.SameWord (m.called cs) ∧ (m.called cs).cooldown = m.cooldown - evaluations cs := by
  induction cs generalizing m
  case nil => exact ⟨.refl m, rfl⟩
  case cons c cs ih =>
    cases c
    case influence s amount =>
      have ⟨hs, hc⟩ := ih (m := m.influence s amount) h
      exact ⟨⟨hs.category, hs.depth⟩, hc⟩
    case evaluate e =>
      have hn : evaluations (.evaluate e :: cs) = evaluations cs + 1 := List.countP_cons_of_pos rfl
      rw [hn] at h ⊢
      rw [called_cons, Call.apply]
      have he := m.evaluates e
      generalize m.evaluate e = r at he
      cases he
      case rests =>
        have ⟨hs, hc⟩ := ih (m := { m with influences := m.influences.fade, cooldown := m.cooldown - 1 })
          (Nat.le_sub_one_of_lt h)
        exact ⟨⟨hs.category, hs.depth⟩, hc.trans (by rw [Nat.sub_sub, Nat.add_comm])⟩
      all_goals omega

theorem sameWord_of_shift (h : (m.evaluate e).2 = true) (hn : evaluations cs ≤ 10) :
    (m.evaluate e).1.SameWord ((m.evaluate e).1.called cs) :=
  (rest_called ((cooldown_of_shift h).right ▸ hn)).left

theorem le_evaluations_of_shifts (h : (m.evaluate e).2 = true)
    (h' : (((m.evaluate e).1.called cs).evaluate e').2 = true) : 10 ≤ evaluations cs := by
  by_contra hn
  have ⟨_, hc⟩ := cooldown_of_shift h
  have ⟨hz, _⟩ := cooldown_of_shift h'
  have hle : evaluations cs ≤ (m.evaluate e).1.cooldown := by omega
  have ⟨_, hr⟩ := rest_called hle
  omega

-- The time of rest goes back to the latest shift, with one evaluation after the other.
theorem exists_shift_of_cooldown_pos (h₀ : m.cooldown = 0) (h : 0 < (m.called cs).cooldown) :
    ∃ before e since, cs = before ++ .evaluate e :: since ∧ ((m.called before).evaluate e).2 = true ∧
      evaluations since + (m.called cs).cooldown = 10 := by
  induction cs using List.reverseRecOn
  case nil => exact absurd h₀ (Nat.ne_of_gt h)
  case append_singleton cs c ih =>
    rw [called_concat] at h ⊢
    cases c
    case influence s amount =>
      obtain ⟨before, e, since, rfl, he, hn⟩ := ih h
      refine ⟨before, e, since ++ [.influence s amount], by simp, he, ?_⟩
      rw [evaluations_append]
      exact hn
    case evaluate e' =>
      rw [Call.apply] at h ⊢
      have he' := (m.called cs).evaluates e'
      generalize hr : (m.called cs).evaluate e' = r at he' h
      cases he'
      case rests hp =>
        obtain ⟨before, e, since, rfl, he, hn⟩ := ih hp
        refine ⟨before, e, since ++ [.evaluate e'], by simp, he, ?_⟩
        rw [evaluations_append, ← hn, Nat.add_assoc]
        exact congrArg (_ + ·) (Nat.add_sub_cancel' hp)
      case shifts => exact ⟨cs, e', [], rfl, by rw [hr], rfl⟩
      case settles => contradiction

theorem cooldown_eq_zero_of_not_rests (h₀ : m.cooldown = 0) (h : ¬m.Rests cs) : (m.called cs).cooldown = 0 := by
  by_contra hc
  have hp := Nat.pos_of_ne_zero hc
  have ⟨before, e, since, hs, he, hn⟩ := exists_shift_of_cooldown_pos h₀ hp
  exact h ⟨before, e, since, hs, he, by omega⟩

theorem evaluate_of_cooldown_eq_zero (h : m.cooldown = 0) (e : Evidence) :
    (m.evaluate e).1.category = target m.influences e ∧
      (m.evaluate e).1.depth = approach m.depth (targetDepth e) := by
  have he := m.evaluates e
  generalize m.evaluate e = r at he
  cases he
  case rests hp => exact absurd h (Nat.ne_of_gt hp)
  case shifts => exact ⟨rfl, rfl⟩
  case settles => exact ⟨rfl, rfl⟩

-- At any point of a run, an evaluation tells whether it changes the category. After one that does, the word stays
-- for ten evaluations, and the next one that does is the eleventh at the earliest. All others take over what the
-- influences speak for. Whatever happens, the depth keeps to its steps and to the words.
theorem shifts_of_run (word : Option String) (cs : List Call) :
    let m := (start word).called cs
    (∀ e, (m.evaluate e).2 = true ↔ (m.evaluate e).1.category ≠ m.category) ∧
    (∀ e since, (m.evaluate e).2 = true →
      (evaluations since ≤ 10 → (m.evaluate e).1.SameWord (m.called (.evaluate e :: since))) ∧
      ∀ e', ((m.called (.evaluate e :: since)).evaluate e').2 = true →
        11 ≤ evaluations (since ++ [.evaluate e'])) ∧
    (∀ e, ¬(start word).Rests cs → (m.evaluate e).1.category = target m.influences e ∧
      (m.evaluate e).1.depth = approach m.depth (targetDepth e)) ∧
    (∀ e, Steps (targetDepth e) m.depth (m.evaluate e).1.depth) ∧
    (∀ s amount, m.SameWord (m.influence s amount)) ∧
    m.depth ≤ 4 ∧ ∃ w ∈ m.category.words, m.word? = some w := by
  intro m
  have hd : m.depth ≤ maxDepth := depth_called_le (depth_start_le word) cs
  refine ⟨m.shift_iff, fun e since h => ⟨sameWord_of_shift h, fun e' h' => ?apart⟩, fun e h => ?takes,
    m.steps_evaluate, fun s amount => ⟨rfl, rfl⟩, hd, exists_word hd⟩
  case apart =>
    rw [evaluations_append]
    exact Nat.succ_le_succ (le_evaluations_of_shifts h h')
  case takes => exact evaluate_of_cooldown_eq_zero (cooldown_eq_zero_of_not_rests (cooldown_start word) h) e

def quiet : Evidence :=
  ⟨0, 0, 0, false⟩

-- Enough of everything good to last for ten evaluations.
def happyTime : List Call :=
  Influence.all.map (.influence · 1.0) ++ .replicate 10 (.evaluate quiet)

-- Ten evaluations leave the word alone, and the eleventh shifts again.
theorem shifts_of_run_of_happyTime :
    let m := (start none).called (.evaluate quiet :: happyTime)
    ((start none).evaluate quiet).2 = true ∧ evaluations happyTime = 10 ∧
      ((start none).evaluate quiet).1.SameWord m ∧ (m.evaluate quiet).2 = true ∧
      11 ≤ evaluations (happyTime ++ [.evaluate quiet]) := by
  have h : ((start none).evaluate quiet).2 = true := by decide +kernel
  have h' : (((start none).called (.evaluate quiet :: happyTime)).evaluate quiet).2 = true := by
    decide +kernel
  have ⟨_, hs, _⟩ := shifts_of_run none []
  have ⟨hk, ha⟩ := hs quiet happyTime h
  exact ⟨h, by decide, hk (by decide), h', ha quiet h'⟩

end Atelier.Mood
