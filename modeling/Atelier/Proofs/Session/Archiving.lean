import Atelier.Proofs.Cycle.Clearing
import Atelier.Proofs.Session.Run
import Atelier.Proofs.Session.Shots
import Atelier.Proofs.Zone

/-!
The snapshots that a run leaves: under each name the latest picture that was kept under it.
-/

namespace Atelier.Session

open Saving Snapshot

variable {s s' : Session} {now : Instant}

namespace Turn

def shot? (t : Turn) : Option Shot :=
  t.start.shot? t.now t.event t.result

-- What the turn wanted to keep has got into the folder.
def Writes (t : Turn) : Prop :=
  ∀ a, t.shot? = some a → a.IsIn t.result.folder

end Turn

theorem Run.zone_of_mem {ts : List Turn} {t : Turn} (h : Run s ts s') (ht : t ∈ ts) :
    t.start.zone = s.zone := by
  induction h
  case nil => contradiction
  case cons hs _ hi =>
    cases ht
    case head => rfl
    case tail ht => exact (hi ht).trans (zone_tick hs)

-- A snapshot outlives what is kept under other names.
theorem Run.isIn_of_other_names {ts : List Turn} (h : Run s ts s') {a : Shot}
    (hn : ∀ b ∈ ts.filterMap Turn.shot?, ¬a.SameName b) (ha : a.IsIn s.folder) : a.IsIn s'.folder := by
  induction h
  case nil => exact ha
  case cons s s₁ s' now e ts ht _ hi =>
    have ⟨f, hf, hs⟩ := tick_snapshots ht
    have hs : Agree (afterShot f (Turn.shot? ⟨s, now, e, s₁⟩)) s₁.folder := hs
    have hf := (Shot.isIn_iff_of_agree hf).mp ha
    cases hb : Turn.shot? ⟨s, now, e, s₁⟩
    case none =>
      rw [List.filterMap_cons_none hb] at hn
      rw [hb] at hs
      exact hi hn ((Shot.isIn_iff_of_agree hs).mp hf)
    case some b =>
      rw [List.filterMap_cons_some hb] at hn
      simp only [List.mem_cons, forall_eq_or_imp] at hn
      rw [hb] at hs
      exact hi hn.right ((Shot.isIn_iff_of_agree hs).mp ((Shot.isIn_after_write hn.left).mpr hf))

-- It is enough to know that a snapshot was written by its own turn, and that no later one has its name.
theorem Run.isIn_of_latest {ts : List Turn} (h : Run s ts s') (hw : ∀ t ∈ ts, t.Writes) {a : Shot}
    {before later : List Shot} (hs : ts.filterMap Turn.shot? = before ++ a :: later)
    (hn : ∀ b ∈ later, ¬a.SameName b) : a.IsIn s'.folder := by
  induction h generalizing before
  case nil => simp at hs
  case cons s s₁ s' now e ts ht hr hi =>
    simp only [List.mem_cons, forall_eq_or_imp] at hw
    cases hb : Turn.shot? ⟨s, now, e, s₁⟩
    case none =>
      rw [List.filterMap_cons_none hb] at hs
      exact hi hw.right hs
    case some b =>
      rw [List.filterMap_cons_some hb] at hs
      cases before
      case nil =>
        cases hs
        exact hr.isIn_of_other_names hn (hw.left a hb)
      case cons => exact hi hw.right (List.cons.inj hs).right

-- Nothing but what stands in the way in the folder can keep a snapshot from being written, unless its
-- picture has no cells.
theorem tick_writes_of_ready {e : Event} (h : s.tick now = .ok (s', e)) (hr : Ready s.folder)
    (hc : ∀ a, s.shot? now e s' = some a → a.picture.width ≠ 0 ∧ a.picture.height ≠ 0) :
    Ready s'.folder ∧ Turn.Writes ⟨s, now, e, s'⟩ := by
  have ⟨f, hf, hs⟩ := tick_snapshots h
  have hr := hr.of_agree hf
  cases ha : s.shot? now e s'
  case none =>
    rw [ha] at hs
    exact ⟨hr.of_agree hs, fun a h => absurd (ha.symm.trans h) (by simp)⟩
  case some a =>
    obtain ⟨hw, hh⟩ := hc a ha
    obtain ⟨g, hg, hi, hr⟩ := Shot.write_of_ready hr hw hh
    simp only [ha, afterShot, after, hg] at hs
    refine ⟨hr.of_agree hs, fun b hb => ?_⟩
    cases ha.symm.trans hb
    exact (Shot.isIn_iff_of_agree hs).mp hi

theorem Run.writes_of_ready {ts : List Turn} (h : Run s ts s') (hr : Ready s.folder)
    (hc : ∀ t ∈ ts, ∀ a, t.shot? = some a → a.picture.width ≠ 0 ∧ a.picture.height ≠ 0) :
    ∀ t ∈ ts, t.Writes := by
  induction h
  case nil => simp
  case cons ht _ hi =>
    simp only [List.mem_cons, forall_eq_or_imp] at hc ⊢
    obtain ⟨hr, hw⟩ := tick_writes_of_ready ht hr hc.left
    exact ⟨hw, hi hr hc.right⟩

theorem exists_latest_of_mem {shots : List Shot} {a : Shot} (h : a ∈ shots) :
    ∃ b before later, (shots.filter (a.SameName ·)).getLast? = some b ∧ a.SameName b ∧
      shots = before ++ b :: later ∧ ∀ c ∈ later, ¬b.SameName c := by
  have hm : a ∈ shots.filter (a.SameName ·) := List.mem_filter.mpr ⟨h, by simp [Shot.SameName.refl]⟩
  cases hl : (shots.filter (a.SameName ·)).getLast?
  case none =>
    rw [List.getLast?_eq_none_iff.mp hl] at hm
    contradiction
  case some b =>
    obtain ⟨_, hl⟩ := List.getLast?_eq_some_iff.mp hl
    obtain ⟨before, rest, hs, _, hr⟩ := List.filter_eq_append_iff.mp hl
    obtain ⟨between, later, hr, _, hb, hn⟩ := List.filter_eq_cons_iff.mp hr
    have hb : a.SameName b := of_decide_eq_true hb
    refine ⟨b, before ++ between, later, rfl, hb, by simp [hs, hr], fun c hc hbc => ?_⟩
    have := List.filter_eq_nil_iff.mp hn c hc
    exact this (decide_eq_true (hb.trans hbc))

-- Names tell the mood and the second on local clocks, and nothing else. So a snapshot stays as it is unless
-- another one follows when the clocks show the same second, in the same mood, and in any case the latest one
-- of a name is what stays.
theorem snapshots_of_run {ts : List Turn} (h : Run s ts s') (hw : ∀ t ∈ ts, t.Writes) :
    let shots := ts.filterMap Turn.shot?
    (∀ t ∈ ts, ∀ a, t.shot? = some a → a.time = s.zone.localTime t.now ∧ a.mood = t.start.mood) ∧
    (∀ a ∈ shots, ∀ b ∈ shots,
      (a.targets.image = b.targets.image ↔ a.SameName b) ∧
      (a.targets.sidecar = b.targets.sidecar ↔ a.SameName b)) ∧
    (∀ before a later, shots = before ++ a :: later → (∀ b ∈ later, ¬a.SameName b) →
      a.IsIn s'.folder) ∧
    ∀ a ∈ shots, ∃ b, (shots.filter (a.SameName ·)).getLast? = some b ∧ a.targets = b.targets ∧
      b.IsIn s'.folder := by
  refine ⟨fun t ht a ha => ?_, fun _ _ _ _ => ⟨Shot.image_eq_iff, Shot.sidecar_eq_iff⟩, ?_, fun a ha => ?_⟩
  case refine_1 =>
    obtain ⟨_, _, _, _, rfl⟩ := shot?_eq_some ha
    exact ⟨congrArg (·.localTime t.now) (h.zone_of_mem ht), rfl⟩
  case refine_2 => exact fun _ _ _ hs hn => h.isIn_of_latest hw hs hn
  case refine_3 =>
    have ⟨b, _, _, hl, hb, hs, hn⟩ := exists_latest_of_mem ha
    exact ⟨b, hl, hb.targets_eq, h.isIn_of_latest hw hs hn⟩

-- Clocks that are turned back by as much as has passed since a snapshot give its name away again.
theorem sameName_of_turned_back {z : Zone} {t u : Instant} {a b : Shot} (ha : a.time = z.localTime t)
    (hb : b.time = z.localTime u) (hm : a.mood.word = b.mood.word) (hn : t.nanos = u.nanos)
    (h : z.ahead t = z.ahead u + (u.seconds - t.seconds)) : a.SameName b := by
  refine ⟨?_, hm⟩
  rw [ha, hb, Zone.shown_eq_of_turned_back hn h]
  exact .refl _

theorem exists_shot (s s' : Session) (now : Instant) {c : Cycle} {r : Raster}
    (h : c.archived = some r) :
    ∃ a, Turn.shot? ⟨s, now, .drew c, s'⟩ = some a ∧ a.picture = r ∧ a.mood = s.mood ∧
      a.time = s.zone.localTime now :=
  ⟨_, congrArg (Option.map _) h, rfl, rfl, rfl⟩

-- A session that has just begun, on an empty folder and with a model that clears the canvas twice. Its clocks
-- show UTC.
def clearing : Session where
  studio := .fresh Studio.smallCanvas
  schedule := .start .standard ⟨0, 0⟩
  memory := .empty
  mood := .initial
  steps := 0
  skips := 0
  continuousDraws := 0
  lastTurnColor := none
  model := .ofSource (.scripted [.ok "fill_canvas clear_all", .ok "clear_all"])
  folder := .empty
  zone := .utc
  fixedDelay := none
  saveEverySteps := 0
  retention := .retainAll
  lastMessage := none

def drawn? (s : Session) (now : Instant) : Option (Session × Cycle) :=
  match s.tick now with
  | .ok (s', .drew c) => some (s', c)
  | _ => none

theorem tick_of_drawn?_eq_some {c : Cycle} (h : s.drawn? now = some (s', c)) :
    s.tick now = .ok (s', .drew c) := by
  unfold drawn? at h
  split at h
  case h_1 ht =>
    cases h
    exact ht
  case h_2 => contradiction

-- The first picture is white and the second one black.
theorem clearing_ticks {t : Instant} (ht : t ∈ [⟨0, 500000000⟩, (⟨2, 0⟩ : Instant)]) :
    ∃ s₁ c₁ s₂ c₂, clearing.tick ⟨0, 0⟩ = .ok (s₁, .drew c₁) ∧ s₁.tick t = .ok (s₂, .drew c₂) ∧
      c₁.archived = some (.filled 8 8 Color.white.rgb) ∧ c₂.archived = some (.filled 8 8 Rgb.black) ∧
      s₁.mood.word = clearing.mood.word := by
  have hd : ∀ t ∈ [⟨0, 500000000⟩, (⟨2, 0⟩ : Instant)],
      (clearing.drawn? ⟨0, 0⟩).any (fun p => (p.1.drawn? t).any fun q =>
        p.2.archived = some (.filled 8 8 Color.white.rgb) ∧
        q.2.archived = some (.filled 8 8 Rgb.black) ∧ p.1.mood.word = clearing.mood.word) := by
    decide +kernel
  obtain ⟨⟨s₁, c₁⟩, h₁, hd⟩ := (Option.any_eq_true _ _).mp (hd t ht)
  obtain ⟨⟨s₂, c₂⟩, h₂, hd⟩ := (Option.any_eq_true _ _).mp hd
  exact ⟨s₁, c₁, s₂, c₂, tick_of_drawn?_eq_some h₁, tick_of_drawn?_eq_some h₂, of_decide_eq_true hd⟩

theorem clearing_run {t : Instant} (ht : t ∈ [⟨0, 500000000⟩, (⟨2, 0⟩ : Instant)]) :
    ∃ ts s' a b, Run clearing ts s' ∧ ts.map Turn.now = [⟨0, 0⟩, t] ∧ (∀ u ∈ ts, u.Writes) ∧
      ts.filterMap Turn.shot? = [a, b] ∧ (a.time.shown = ⟨0, 0⟩ ∧ b.time.shown = t) ∧
      a.mood.word = b.mood.word ∧ a.picture ≠ b.picture := by
  have ⟨s₁, c₁, s₂, c₂, h₁, h₂, hc₁, hc₂, hw⟩ := clearing_ticks ht
  have hr := Run.cons h₁ (Run.cons h₂ .nil)
  have ⟨a, ha, hpa, hma, hta⟩ := exists_shot clearing s₁ ⟨0, 0⟩ hc₁
  have ⟨b, hb, hpb, hmb, htb⟩ := exists_shot s₁ s₂ t hc₂
  rw [zone_tick h₁] at htb
  have hta := hta ▸ Zone.shown_utc ⟨0, 0⟩
  have htb := htb ▸ Zone.shown_utc t
  refine ⟨_, s₂, a, b, hr, rfl, hr.writes_of_ready ready_empty ?_, ?_, ⟨hta, htb⟩, ?_, ?_⟩
  case refine_1 =>
    simp only [List.mem_cons, List.not_mem_nil, or_false, forall_eq_or_imp, forall_eq, ha, hb,
      Option.some.injEq, forall_eq', hpa, hpb]
    decide
  case refine_2 => rw [List.filterMap_cons_some ha, List.filterMap_cons_some hb, List.filterMap_nil]
  case refine_3 => rw [hma, hmb, hw]
  case refine_4 =>
    rw [hpa, hpb]
    decide +kernel

-- Two seconds apart, both pictures are kept.
theorem snapshots_of_run_two_seconds_apart :
    ∃ ts s' a b, Run clearing ts s' ∧ (∀ u ∈ ts, u.Writes) ∧ ts.filterMap Turn.shot? = [a, b] ∧
      a.targets.image ≠ b.targets.image ∧ a.targets.sidecar ≠ b.targets.sidecar ∧
      a.IsIn s'.folder ∧ b.IsIn s'.folder := by
  have ⟨ts, s', a, b, hr, _, hw, hs, ⟨ha, hb⟩, _⟩ := clearing_run (t := ⟨2, 0⟩) (by simp)
  obtain ⟨_, hp, hk, _⟩ := snapshots_of_run hr hw
  have hn : ¬a.SameName b := fun hn => by
    have := hn.left
    rw [ha, hb, Instant.sameSecond_iff (by decide) (by decide)] at this
    contradiction
  simp only [hs] at hp hk
  obtain ⟨hi, hc⟩ := hp a (by simp) b (by simp)
  refine ⟨ts, s', a, b, hr, hw, hs, ?_, ?_, ?_, ?_⟩
  case refine_1 => exact fun he => hn (hi.mp he)
  case refine_2 => exact fun he => hn (hc.mp he)
  case refine_3 => exact hk [] a [b] rfl (by simpa using hn)
  case refine_4 => exact hk [a] b [] rfl (by simp)

-- Half a second apart, the second picture takes the place of the first one.
theorem second_snapshot_replaces_first :
    ∃ ts s' a b, Run clearing ts s' ∧ ts.map Turn.now = [⟨0, 0⟩, ⟨0, 500000000⟩] ∧
      (∀ u ∈ ts, u.Writes) ∧ ts.filterMap Turn.shot? = [a, b] ∧ a.targets = b.targets ∧
      s'.folder.picture? a.targets.image ≠ some a.picture := by
  have ⟨ts, s', a, b, hr, ht, hw, hs, ⟨ha, hb⟩, hm, hne⟩ :=
    clearing_run (t := ⟨0, 500000000⟩) (by simp)
  have hn : a.SameName b := by
    refine ⟨?_, hm⟩
    rw [ha, hb]
    decide
  have hl : ts.filterMap Turn.shot? = [a] ++ b :: [] := hs
  have hi : b.IsIn s'.folder := hr.isIn_of_latest hw hl (by simp)
  refine ⟨ts, s', a, b, hr, ht, hw, hs, hn.targets_eq, ?_⟩
  rw [hn.targets_eq, hi.left]
  exact fun he => hne (Option.some.inj he).symm

end Atelier.Session
