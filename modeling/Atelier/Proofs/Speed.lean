import Atelier.Speed
import Mathlib.Data.List.Induction

/-!
How long a chosen pace lasts: twenty delays, counted from the latest word about the pace. Delays that are fixed
or in turbo are not counted.
-/

namespace Atelier.Speed

-- All that happens to a speed. The words are those for another pace.
inductive Call
  | faster
  | slower
  | toggleTurbo
  | delay (fixed : Option Nat) (m : Mood)

namespace Call

def apply (s : Speed) : Call → Speed
  | faster        => s.faster
  | slower        => s.slower
  | toggleTurbo   => s.toggleTurbo
  | delay fixed m => (s.nextDelay fixed m).2

def isWord : Call → Bool
  | faster | slower => true
  | _               => false

def isToggle : Call → Bool
  | toggleTurbo => true
  | _           => false

def pace (p : Pace) : Call → Pace
  | faster => p.faster
  | slower => p.slower
  | _      => p

end Call

-- The speed after some calls.
def called (s : Speed) (cs : List Call) : Speed :=
  cs.foldl Call.apply s

def paceAfter (p : Pace) (cs : List Call) : Pace :=
  cs.foldl Call.pace p

-- Turbo is off at first.
def turboAfter (cs : List Call) : Bool :=
  cs.countP Call.isToggle % 2 == 1

-- Number of the delays that are neither fixed nor in turbo. The flag tells whether turbo is on before the calls.
def spent (turbo : Bool) : List Call → Nat
  | [] => 0
  | .toggleTurbo :: cs => spent (!turbo) cs
  | .delay none _ :: cs => spent turbo cs + if turbo then 0 else 1
  | .delay (some _) _ :: cs => spent turbo cs
  | .faster :: cs | .slower :: cs => spent turbo cs

-- There has been a word, and fewer than twenty delays have been spent since the latest one.
def Lasts (cs : List Call) : Prop :=
  ∃ before w since, cs = before ++ w :: since ∧ w.isWord ∧ (∀ c ∈ since, ¬c.isWord) ∧
    spent (turboAfter before) since < 20

variable {s : Speed} {c w : Call} {cs before since : List Call}

theorem called_append (s : Speed) (cs ds : List Call) : s.called (cs ++ ds) = (s.called cs).called ds :=
  List.foldl_append

theorem pace_apply (s : Speed) (c : Call) : (c.apply s).pace = c.pace s.pace := by
  cases c
  case delay =>
    simp only [Call.apply, nextDelay]
    split <;> rfl
  all_goals rfl

theorem pace_called (s : Speed) (cs : List Call) : (s.called cs).pace = paceAfter s.pace cs := by
  induction cs generalizing s
  case nil => rfl
  case cons c cs ih => exact (ih (c.apply s)).trans (congrArg (paceAfter · cs) (s.pace_apply c))

theorem turbo_apply (s : Speed) (c : Call) : (c.apply s).turbo = (s.turbo ^^ c.isToggle) := by
  cases c
  case toggleTurbo => exact (Bool.xor_true _).symm
  case delay =>
    simp only [Call.apply, nextDelay, Call.isToggle, Bool.xor_false]
    split <;> rfl
  all_goals exact (Bool.xor_false _).symm

theorem turboAfter_cons (c : Call) (cs : List Call) : turboAfter (c :: cs) = (c.isToggle ^^ turboAfter cs) := by
  unfold turboAfter
  rw [List.countP_cons]
  cases c.isToggle
  case false => simp
  case true =>
    rw [if_pos rfl, Bool.true_xor, Bool.eq_iff_iff]
    simp only [beq_iff_eq, Bool.not_eq_true', beq_eq_false_iff_ne]
    omega

theorem turbo_called (s : Speed) (cs : List Call) : (s.called cs).turbo = (s.turbo ^^ turboAfter cs) := by
  induction cs generalizing s
  case nil => exact (Bool.xor_false _).symm
  case cons c cs ih =>
    have hc : (s.called (c :: cs)).turbo = _ := ih (c.apply s)
    rw [hc, turbo_apply, turboAfter_cons, Bool.xor_assoc]

theorem turbo_of_run (p : Pace) (cs : List Call) : ((ofPace p).called cs).turbo = turboAfter cs :=
  (turbo_called _ cs).trans (Bool.false_xor _)

-- Between two words, what is left goes down with the delays that are spent.
theorem remaining_called (h : ∀ c ∈ cs, ¬c.isWord) :
    (s.called cs).remaining = s.remaining - spent s.turbo cs := by
  induction cs generalizing s
  case nil => rfl
  case cons c cs ih =>
    obtain ⟨hc, h⟩ := List.forall_mem_cons.mp h
    have hs : (s.called (c :: cs)).remaining = _ := ih (s := c.apply s) h
    rw [hs, turbo_apply]
    cases c
    case faster => exact absurd rfl hc
    case slower => exact absurd rfl hc
    case toggleTurbo =>
      simp only [Call.isToggle, Bool.xor_true]
      rfl
    case delay fixed m =>
      simp only [Call.isToggle, Bool.xor_false]
      cases fixed
      case some => rfl
      case none =>
        cases ht : s.turbo
        case true => simp [Call.apply, nextDelay, spent, ht]
        case false =>
          simp only [Call.apply, nextDelay, spent, ht]
          exact Nat.sub_right_comm .. |>.trans (Nat.sub_sub ..)

theorem remaining_apply_word (h : c.isWord) (s : Speed) : (c.apply s).remaining = 20 := by
  cases c
  case faster => rfl
  case slower => rfl
  all_goals contradiction

theorem remaining_since_word (p : Pace) (hw : w.isWord) (h : ∀ c ∈ since, ¬c.isWord) :
    ((ofPace p).called (before ++ w :: since)).remaining = 20 - spent (turboAfter before) since := by
  have ht : w.isToggle = false := by
    cases w
    case toggleTurbo => contradiction
    all_goals rfl
  rw [called_append]
  generalize hb : (ofPace p).called before = s
  have hs : (s.called (w :: since)).remaining = _ := remaining_called (s := w.apply s) h
  rw [hs, remaining_apply_word hw, turbo_apply, ht, Bool.xor_false, ← hb, turbo_of_run]

theorem exists_latest_word (h : ∃ c ∈ cs, c.isWord) :
    ∃ before w since, cs = before ++ w :: since ∧ w.isWord ∧ ∀ c ∈ since, ¬c.isWord := by
  induction cs using List.reverseRecOn
  case nil => simp at h
  case append_singleton cs c ih =>
    by_cases hc : c.isWord
    case pos => exact ⟨cs, c, [], rfl, hc, nofun⟩
    case neg =>
      have ⟨before, w, since, hs, hw, hn⟩ := ih (by simpa [hc] using h)
      refine ⟨before, w, since ++ [c], by simp [hs], hw, fun d hd => ?_⟩
      obtain hd | hd := List.mem_append.mp hd
      case inl => exact hn d hd
      case inr => exact List.mem_singleton.mp hd ▸ hc

theorem remaining_pos_iff (p : Pace) (cs : List Call) : 0 < ((ofPace p).called cs).remaining ↔ Lasts cs := by
  constructor
  case mp =>
    intro hr
    by_cases h : ∃ c ∈ cs, c.isWord
    case pos =>
      obtain ⟨before, w, since, rfl, hw, hn⟩ := exists_latest_word h
      rw [remaining_since_word p hw hn] at hr
      exact ⟨before, w, since, rfl, hw, hn, Nat.lt_of_sub_pos hr⟩
    case neg =>
      have hz : ((ofPace p).called cs).remaining = 0 - _ := remaining_called fun c hc hw => h ⟨c, hc, hw⟩
      rw [hz, Nat.zero_sub] at hr
      contradiction
  case mpr =>
    rintro ⟨before, w, since, rfl, hw, hn, hs⟩
    rw [remaining_since_word p hw hn]
    exact Nat.sub_pos_of_lt hs

-- After any calls, the next delay is the fixed one, or that of turbo, or that of the pace as long as it lasts,
-- or that of the mood. To ask for the current delay is to ask for the next one without taking it.
theorem delays_of_run (p : Pace) (cs : List Call) (m : Mood) :
    let s := (ofPace p).called cs
    s.pace = paceAfter p cs ∧
    (∀ ms, (s.nextDelay (some ms) m).1 = ms) ∧
    (turboAfter cs = true → (s.nextDelay none m).1 = 5) ∧
    (turboAfter cs = false → Lasts cs → (s.nextDelay none m).1 = (paceAfter p cs).delay) ∧
    (turboAfter cs = false → ¬Lasts cs → (s.nextDelay none m).1 = moodDelay m) ∧
    ∀ fixed, s.currentDelay fixed m = (s.nextDelay fixed m).1 := by
  intro s
  have hp : s.pace = paceAfter p cs := pace_called _ cs
  have ht : s.turbo = turboAfter cs := turbo_of_run p cs
  have hr : 0 < s.remaining ↔ Lasts cs := remaining_pos_iff p cs
  simp only [nextDelay, currentDelay, ← hp, ← ht, ← hr]
  refine ⟨trivial, fun _ => trivial, fun h => ?turbo, fun h hl => ?chosen, fun h hl => ?mood, fun _ => trivial⟩
  case turbo => simp [h]
  case chosen => simp [h, hl]
  case mood => simp [h, hl]

end Atelier.Speed
