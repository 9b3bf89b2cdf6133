import Atelier.Proofs.Checked
import Atelier.Session.Tick

/-!
Runs of a session: ticks one after another, none of which is stopped.
-/

namespace Atelier.Session

structure Turn where
  start : Session
  now : Instant
  event : Event
  result : Session

inductive Run : Session → List Turn → Session → Prop
  | nil : Run s [] s
  | cons {s s₁ s' : Session} {now : Instant} {e : Event} {ts : List Turn} :
      s.tick now = .ok (s₁, e) → Run s₁ ts s' → Run s (⟨s, now, e, s₁⟩ :: ts) s'

theorem Run.tick_of_mem {ts : List Turn} {t : Turn} (h : Run s ts s') (ht : t ∈ ts) :
    t.start.tick t.now = .ok (t.result, t.event) := by
  induction h
  case nil => contradiction
  case cons hs _ hi =>
    cases ht
    case head => exact hs
    case tail ht => exact hi ht

theorem Run.exists_of_append {ts us : List Turn} (h : Run s (ts ++ us) s') :
    ∃ t, Run s ts t ∧ Run t us s' := by
  induction ts generalizing s
  case nil => exact ⟨s, .nil, h⟩
  case cons _ ts hi =>
    cases h
    case cons ht h =>
      have ⟨t, h₁, h₂⟩ := hi h
      exact ⟨t, .cons ht h₁, h₂⟩

theorem Run.split {before behind : List Turn} {t : Turn} (h : Run s (before ++ t :: behind) s') :
    Run s before t.start ∧ t.start.tick t.now = .ok (t.result, t.event) ∧ Run t.result behind s' := by
  obtain ⟨_, hb, h⟩ := h.exists_of_append
  cases h
  case cons ht h => exact ⟨hb, ht, h⟩

-- The fold collects the events behind those that it starts with.
theorem foldlM_tick_eq_ok_iff {step : Session × List Event → Instant → Checked (Session × List Event)}
    (hstep : ∀ s es now p, step (s, es) now = .ok p ↔
      ∃ s₁ e, s.tick now = .ok (s₁, e) ∧ p = (s₁, es ++ [e]))
    {s s' : Session} {times : List Instant} {before es : List Event} :
    times.foldlM step (s, before) = .ok (s', es) ↔
      ∃ ts, Run s ts s' ∧ ts.map Turn.now = times ∧ es = before ++ ts.map Turn.event := by
  induction times generalizing s before
  case nil =>
    constructor
    case mp =>
      intro h
      cases h
      exact ⟨[], .nil, rfl, by simp⟩
    case mpr =>
      rintro ⟨ts, hr, ht, he⟩
      cases hr
      case nil => simp [he]
      case cons => contradiction
  case cons now times hi =>
    simp only [List.foldlM_cons, Checked.bind_eq_ok_iff, hstep]
    constructor
    case mp =>
      rintro ⟨_, ⟨s₁, e, ht, rfl⟩, h⟩
      obtain ⟨ts, hr, hn, he⟩ := hi.mp h
      exact ⟨_, .cons ht hr, by simp [hn], by simp [he]⟩
    case mpr =>
      rintro ⟨ts, hr, hn, he⟩
      cases hr
      case nil => contradiction
      case cons s₁ now e ts ht hr =>
        cases hn
        exact ⟨_, ⟨s₁, e, ht, rfl⟩, hi.mpr ⟨ts, hr, rfl, by simp [he]⟩⟩

theorem run_eq_ok_iff {s s' : Session} {times : List Instant} {es : List Event} :
    s.run times = .ok (s', es) ↔
      ∃ ts, Run s ts s' ∧ ts.map Turn.now = times ∧ es = ts.map Turn.event := by
  apply foldlM_tick_eq_ok_iff
  intro s es now p
  simp only [Checked.bind_eq_ok_iff, Checked.pure_eq_ok_iff, Prod.exists, @eq_comm _ p]

end Atelier.Session
