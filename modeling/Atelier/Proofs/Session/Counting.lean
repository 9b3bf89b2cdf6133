import Atelier.Proofs.History
import Atelier.Proofs.Session.Modes
import Atelier.Proofs.Session.Opening
import Atelier.Proofs.Session.Run

/-!
The accounts of a run. Steps, skipped turns and remembered codes are those of the drawings of the run, in
their order; no other turn is accounted for.
-/

namespace Atelier.Session

variable {s t s' : Session} {now : Instant} {c : Cycle} {e : Event} {ts us : List Turn}

/-! Entries -/

def Turn.cycle? (t : Turn) : Option Cycle :=
  match t.event with
  | .drew c => some c
  | _       => none

-- Drawings that were only a pause for thinking, or a look at something.
def Turn.isSkip (t : Turn) : Bool :=
  t.cycle?.any fun c =>
    match c.outcome with
    | .thinkPause | .observation .. => true
    | _ => false

-- The memory of a completed drawing: the mood that it began in, and where it left the cursor.
def Turn.entry? (t : Turn) : Option CodeMemory :=
  t.cycle?.bind fun c =>
    if c.outcome = .completed then
      let cursor := t.result.canvas.cursor
      some {
        code := c.code
        context := {
          emotion := t.start.mood.word
          x := cursor.x
          y := cursor.y
          color := cursor.color
          penDown := cursor.penDown
          pixelsDrawn := c.marks.painted
          tool := cursor.tool
        }
        timestamp := t.now
      }
    else
      none

theorem cycle?_eq_none {t : Turn} (h : ∀ c, t.event ≠ .drew c) : t.cycle? = none := by
  unfold Turn.cycle?
  split
  case h_1 c hc => exact absurd hc (h c)
  case h_2 => rfl

/-! Accounts -/

-- Some turns account for what is different between two sessions.
structure Accounts (s : Session) (ts : List Turn) (s' : Session) : Prop where
  steps : s'.steps = s.steps + (ts.filterMap Turn.cycle?).length
  skips : s'.skips = s.skips + ts.countP Turn.isSkip
  codes : s'.memory.codes = s.memory.codes.extend (ts.filterMap Turn.entry?)

theorem Accounts.nil (s : Session) : Accounts s [] s :=
  ⟨rfl, rfl, rfl⟩

theorem Accounts.append (h₁ : Accounts s ts t) (h₂ : Accounts t us s') : Accounts s (ts ++ us) s' where
  steps := by
    rw [h₂.steps, h₁.steps, List.filterMap_append, List.length_append, Nat.add_assoc]
  skips := by
    rw [h₂.skips, h₁.skips, List.countP_append, Nat.add_assoc]
  codes := by
    rw [h₂.codes, h₁.codes, List.filterMap_append, History.extend_append]

theorem accounts_singleton {t : Turn} : Accounts s [t] s' ↔
    s'.steps = s.steps + t.cycle?.toList.length ∧ s'.skips = s.skips + t.isSkip.toNat ∧
      s'.memory.codes = s.memory.codes.extend t.entry?.toList := by
  have hf {α : Type} (f : Turn → Option α) : [t].filterMap f = (f t).toList := by
    rw [List.filterMap_cons, List.filterMap_nil]
    cases f t <;> rfl
  have hc : [t].countP Turn.isSkip = t.isSkip.toNat := by
    rw [List.countP_singleton]
    cases t.isSkip <;> rfl
  rw [← hc, ← hf, ← hf]
  exact ⟨fun h => ⟨h.steps, h.skips, h.codes⟩, fun ⟨hs, hk, hc⟩ => ⟨hs, hk, hc⟩⟩

theorem codes_remembered (s : Session) (c : Cycle) (now : Instant) :
    (s.remembered c now).codes = s.memory.codes.extend
      (if c.outcome = .completed then some (s.codeMemory c now) else none).toList := by
  simp only [remembered, Cycle.isCompleted, decide_eq_true_eq]
  split <;> rfl

theorem accounts_tick (h : s.tick now = .ok (s', e)) : Accounts s [⟨s, now, e, s'⟩] s' := by
  apply accounts_singleton.mpr
  have hw := s.sameWork_advance now
  obtain ⟨ha, he⟩ | ⟨r, raw, c, _, hd, rfl⟩ := (acts_tick h).sameWork_or_draws
  case inl =>
    have hw := hw.trans ha
    have hc : Turn.cycle? ⟨s, now, e, s'⟩ = none := cycle?_eq_none he
    rw [Turn.isSkip, Turn.entry?, hc]
    exact ⟨hw.steps, hw.skips, hw.codes⟩
  case inr =>
    obtain ⟨studio, _, _, _, _, rfl⟩ := draw_eq_ok hd
    have ⟨_, _, _, hs⟩ := s.exists_advance_eq now
    refine ⟨congrArg (· + 1) hw.steps, congrArg (· + _) hw.skips, ?_⟩
    rw [codes_remembered]
    simp only [asked, hw.codes]
    rw [hs]
    rfl

theorem accounts_run (h : Run s ts s') : Accounts s ts s' := by
  induction h
  case nil => exact .nil _
  case cons ht _ hi => exact (accounts_tick ht).append hi

-- What is drawn is what the model has answered, and the tick leaves the studio as the drawing does.
theorem drawing_of_tick (h : s.tick now = .ok (s', .drew c)) :
    ∃ r raw, (s.advance now).Asks r (some raw) ∧
      (s.advance now).studio.run (Token.scan raw) = .ok (s'.studio, c) := by
  cases acts_tick h
  case draws r raw _ hq hd =>
    obtain ⟨_, _, _, _, hr, rfl⟩ := draw_eq_ok hd
    exact ⟨r, raw, hq, hr⟩

variable {settings : Settings} {model : Model} {folder : Folder} {random : Random} {spray : Spray}
variable {zone : Zone}

-- A session that was begun anew has counted and remembered nothing but the drawings of its run.
theorem accounts_of_run (hs : start settings model folder random spray now zone = .ok s) (h : Run s ts s') :
    s'.steps = (ts.filterMap Turn.cycle?).length ∧
    s'.skips = ts.countP Turn.isSkip ∧
    s'.memory.codes.items = lastOf 1000 (ts.filterMap Turn.entry?) ∧
    ∀ t ∈ ts, ∀ c, t.event = .drew c → ∃ r raw, (t.start.advance t.now).Asks r (some raw) ∧
      (t.start.advance t.now).studio.run (Token.scan raw) = .ok (t.result.studio, c) := by
  have ha := accounts_run h
  obtain ⟨_, _, rfl⟩ := start_eq_ok hs
  have hc := History.items_extend (History.isCapped_empty 1000) (ts.filterMap Turn.entry?)
  refine ⟨?_, ?_, ?_, fun t ht c he => ?_⟩
  case refine_1 => rw [ha.steps, Nat.zero_add]
  case refine_2 => rw [ha.skips, Nat.zero_add]
  case refine_3 => rw [ha.codes, ← List.nil_append (ts.filterMap _)]; exact hc
  case refine_4 => exact drawing_of_tick (he ▸ h.tick_of_mem ht)

-- A drawing, a pause for thinking, a look at the examples, an answer without any token, a failure and an
-- answer to a check-in.
def mixed : Model :=
  .ofSource (.scripted [.ok "red5533", .ok "0123456789", .ok "examples", .ok "?",
    .error (.stated "no answer"), .ok "maybe"])

def mixedDay : Checked (Session × List Event) := do
  let s ← start smallScreen mixed .empty (.ofSeed 0) (.seeded (.ofSeed 0)) ⟨0, 0⟩
  s.run [⟨0, 0⟩, ⟨1, 0⟩, ⟨2, 0⟩, ⟨3, 0⟩, ⟨4, 0⟩, ⟨2700, 0⟩]

theorem accounts_of_mixed_day :
    ∃ s ts s', start smallScreen mixed .empty (.ofSeed 0) (.seeded (.ofSeed 0)) ⟨0, 0⟩ = .ok s ∧
      Run s ts s' ∧ ts.length = 6 ∧ (ts.filterMap Turn.cycle?).length = 4 ∧
      ts.countP Turn.isSkip = 2 ∧ (ts.filterMap Turn.entry?).length = 1 := by
  have hd : mixedDay.toOption.any fun p =>
      p.1.steps = 4 ∧ p.1.skips = 2 ∧ p.1.memory.codes.length = 1 := by
    decide +kernel
  obtain ⟨⟨s', es⟩, h, hd⟩ := Checked.exists_eq_ok_of_any hd
  obtain ⟨hsteps, hskips, hcodes⟩ := of_decide_eq_true hd
  obtain ⟨s, hs, h⟩ := Checked.bind_eq_ok_iff.mp h
  obtain ⟨ts, hr, hn, _⟩ := run_eq_ok_iff.mp h
  obtain ⟨h₁, h₂, h₃, _⟩ := accounts_of_run hs hr
  have hl : ts.length = 6 := by rw [← List.length_map Turn.now, hn]; rfl
  rw [History.length, h₃, length_lastOf] at hcodes
  refine ⟨s, ts, s', hs, hr, hl, h₁ ▸ hsteps, h₂ ▸ hskips, by omega⟩

end Atelier.Session
