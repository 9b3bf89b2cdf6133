import Atelier.Proofs.Schedule.Polling
import Atelier.Proofs.Session.Opening
import Atelier.Proofs.Session.Run
import Atelier.Proofs.Session.Turns

/-!
Chat breaks. From the answer that begins a break until its end there are at most two messages: an opening,
asked for until it is given, and one that follows it up when the break has gone on for long enough.
-/

namespace Atelier

namespace Schedule

variable {s : Schedule} {now : Instant}

theorem poll_of_chatting (hm : s.mode = .chatting) (he : (s.poll now).2 ≠ some .chatEnded) :
    s.poll now = (s, none) := by
  have hp := s.polls_poll now
  generalize s.poll now = polled at hp he
  cases hp
  case waits => rfl
  case checksIn hc _ => cases hm.symm.trans hc
  case endsChat => exact absurd rfl he
  case endsRest hc _ => cases hm.symm.trans hc
  case deepens hc _ _ _ => cases hm.symm.trans hc

theorem activity_of_chatting (hm : s.mode = .chatting) :
    s.activity now =
      match s.chatMessages with
      | 0 => .chatOpening
      | 1 => if now.since s.modeStart ≥ s.routine.chatFollowUp then .chatFollowUp else .chatIdle
      | _ => .chatIdle := by
  cases s
  cases hm
  rfl

end Schedule

namespace Event

instance (e : Event) (o : ChoiceOutcome) : Decidable (e = .choice o) :=
  match e with
  | .choice o' => decidable_of_iff (o' = o) ⟨congrArg _, Event.choice.inj⟩
  | .drew _ | .chat _ | .dreamed _ | .idle | .generationFailed => isFalse nofun

instance (e : Event) : Decidable (e = .generationFailed) :=
  match e with
  | .generationFailed => isTrue rfl
  | .drew _ | .choice _ | .chat _ | .dreamed _ | .idle => isFalse nofun

end Event

namespace Session

variable {s s' : Session} {now begun : Instant} {e : Event} {r : Request} {ts : List Turn}

/-! Turns -/

def Turn.isChat (t : Turn) : Bool :=
  match t.event with
  | .chat _ => true
  | _       => false

-- A turn relays what the model answers to a request. If there is no answer, nothing else is changed.
inductive Turn.Relays (t : Turn) (r : Request) : Prop
  | message (text : String) : (t.start.model.ask r).1 = .ok text → t.event = .chat (Text.trim text) →
      t.result.model = (t.start.model.ask r).2 → Relays t r
  | failure (e : Refusal) : (t.start.model.ask r).1 = .error e → t.event = .generationFailed →
      t.result = t.start.asked r → Relays t r

structure Turn.Waits (t : Turn) : Prop where
  event : t.event = .idle
  result : t.result = t.start

theorem waits_of_idle {t : Turn} (h : (t.start, .idle) = (t.result, t.event)) : t.Waits :=
  ⟨(Prod.mk.inj h).right.symm, (Prod.mk.inj h).left.symm⟩

-- The break ends before the turn does anything else.
def Turn.EndsBreak (t : Turn) : Prop :=
  (t.start.schedule.poll t.now).2 = some .chatEnded

instance (t : Turn) : Decidable t.EndsBreak :=
  inferInstanceAs (Decidable (_ = _))

theorem relays_chatTurn {t : Turn} (h : t.start.chatTurn r = (t.result, t.event)) :
    t.Relays r ∧
      t.result.schedule = if t.isChat then t.start.schedule.messageSent else t.start.schedule := by
  obtain ⟨s, now, e, s'⟩ := t
  unfold chatTurn ask at h
  cases ha : (s.model.ask r).1
  case error =>
    simp only [ha, Except.toOption] at h
    cases h
    exact ⟨.failure _ ha rfl rfl, rfl⟩
  case ok text =>
    simp only [ha, Except.toOption] at h
    cases h
    exact ⟨.message text ha rfl rfl, rfl⟩

/-! Breaks -/

-- What a turn of a break does after so many messages: the opening is asked for first, then the follow-up in
-- its time, and then nothing.
def Turn.GoesOn (t : Turn) (begun : Instant) (followUp : Span) : Nat → Prop
  | 0 => t.Relays t.start.openingRequest
  | 1 => if t.now.since begun ≥ followUp then t.Relays (.chatFollowUp t.start.mood.word) else t.Waits
  | _ => t.Waits

-- A break that began at a time, with so many messages until now.
structure Breaks (s : Session) (begun : Instant) (followUp : Span) (said : Nat) : Prop where
  mode : s.schedule.mode = .chatting
  modeStart : s.schedule.modeStart = begun
  followUp : s.schedule.routine.chatFollowUp = followUp
  messages : s.schedule.chatMessages = said
  few : said ≤ 2

variable {followUp : Span} {said : Nat}

theorem advance_of_chatting (hm : s.schedule.mode = .chatting)
    (he : (s.schedule.poll now).2 ≠ some .chatEnded) : s.advance now = s := by
  rw [advance, Schedule.poll_of_chatting hm he]
  rfl

theorem Breaks.of_waits {t : Turn} (h : t.start.Breaks begun followUp said) (hw : t.Waits) :
    t.result.Breaks begun followUp (said + t.isChat.toNat) := by
  rw [Turn.isChat, hw.event, hw.result]
  exact h

theorem Breaks.of_chatTurn {t : Turn} (h : t.start.Breaks begun followUp said) (hl : said < 2)
    (ht : t.start.chatTurn r = (t.result, t.event)) :
    t.Relays r ∧ t.result.Breaks begun followUp (said + t.isChat.toNat) := by
  have ⟨hrelays, hs⟩ := relays_chatTurn ht
  obtain ⟨hm, hb, hf, hc, _⟩ := h
  refine ⟨hrelays, ?_⟩
  cases hi : t.isChat
  case false =>
    rw [hi, if_neg Bool.false_ne_true] at hs
    exact ⟨hs ▸ hm, hs ▸ hb, hs ▸ hf, hs ▸ hc, Nat.le_of_lt hl⟩
  case true =>
    rw [hi, if_pos rfl] at hs
    exact ⟨hs ▸ hm, hs ▸ hb, hs ▸ hf, hs ▸ congrArg (· + 1) hc, hl⟩

theorem Breaks.tick {t : Turn} (h : t.start.Breaks begun followUp said) (he : ¬t.EndsBreak)
    (ht : t.start.tick t.now = .ok (t.result, t.event)) :
    t.GoesOn begun followUp said ∧ t.result.Breaks begun followUp (said + t.isChat.toNat) := by
  have ⟨hm, hb, hf, hc, hl⟩ := h
  simp only [Session.tick, advance_of_chatting hm he, Schedule.activity_of_chatting hm, hb, hf, hc] at ht
  match said with
  | 0 => exact h.of_chatTurn (by decide) (Checked.pure_eq_ok_iff.mp ht)
  | 1 =>
    rw [Turn.GoesOn]
    by_cases hd : t.now.since begun ≥ followUp
    case pos =>
      simp only [if_pos hd] at ht ⊢
      exact h.of_chatTurn (by decide) (Checked.pure_eq_ok_iff.mp ht)
    case neg =>
      simp only [if_neg hd] at ht ⊢
      have hw := waits_of_idle (Checked.pure_eq_ok_iff.mp ht)
      exact ⟨hw, h.of_waits hw⟩
  | 2 =>
    have hw := waits_of_idle (Checked.pure_eq_ok_iff.mp ht)
    exact ⟨hw, h.of_waits hw⟩

theorem Acts.schedule_of_chat (h : s.Acts now e s') (he : e = .choice (.accepted .chat)) :
    s'.schedule = s.schedule.choose .chat now := by
  cases h
  case chooses r text hm _ =>
    have ha := s.schedule.answers_answer text now
    generalize s.schedule.answer text now = answered at ha he
    cases ha
    all_goals cases he
    rfl
  all_goals cases he

theorem breaks_of_chat {t : Turn} (h : t.start.tick t.now = .ok (t.result, t.event))
    (he : t.event = .choice (.accepted .chat)) :
    t.result.Breaks t.now t.start.schedule.routine.chatFollowUp 0 := by
  have hs := (acts_tick h).schedule_of_chat he
  rw [schedule_advance] at hs
  have hr : t.result.schedule.routine = t.start.schedule.routine := by
    rw [hs, Schedule.routine_choose, Schedule.routine_poll]
  exact ⟨hs ▸ rfl, hs ▸ rfl, hr ▸ rfl, hs ▸ rfl, Nat.zero_le 2⟩

theorem routine_tick (h : s.tick now = .ok (s', e)) : s'.schedule.routine = s.schedule.routine := by
  have hp := s.schedule.routine_poll now
  rw [← schedule_advance] at hp
  obtain hs | ⟨text, hs⟩ | ⟨_, _, hs⟩ := (acts_tick h).schedule_eq
  case inl => rw [hs, hp]
  case inr.inl => rw [hs, Schedule.routine_answer, hp]
  case inr.inr =>
    rw [hs]
    exact hp

theorem routine_run (h : Run s ts s') : s'.schedule.routine = s.schedule.routine := by
  induction h
  case nil => rfl
  case cons ht _ hi => exact hi.trans (routine_tick ht)

-- Whatever fails is asked for again: only what was said counts.
theorem Breaks.run (h : s.Breaks begun followUp said) (hr : Run s ts s') (hb : ∀ t ∈ ts, ¬t.EndsBreak) :
    s'.Breaks begun followUp (said + ts.countP Turn.isChat) := by
  induction hr generalizing said
  case nil => exact h
  case cons s s₁ s' now e ts ht _ hi =>
    have ⟨he, hb⟩ := List.forall_mem_cons.mp hb
    have ⟨_, h⟩ := h.tick (t := ⟨s, now, e, s₁⟩) he ht
    have h := hi h hb
    have hc : (⟨s, now, e, s₁⟩ :: ts).countP Turn.isChat =
        (Turn.isChat ⟨s, now, e, s₁⟩).toNat + ts.countP Turn.isChat := by
      rw [List.countP_cons, Nat.add_comm]
      cases Turn.isChat ⟨s, now, e, s₁⟩ <;> rfl
    rwa [hc, ← Nat.add_assoc]

theorem Breaks.goesOn {before behind : List Turn} {t : Turn} (h : s.Breaks begun followUp 0)
    (hr : Run s (before ++ t :: behind) s') (hb : ∀ u ∈ before ++ t :: behind, ¬u.EndsBreak) :
    t.GoesOn begun followUp (before.countP Turn.isChat) := by
  have ⟨hbefore, ht⟩ := List.forall_mem_append.mp hb
  have ⟨hr, htick, _⟩ := hr.split
  have h := h.run hr hbefore
  rw [Nat.zero_add] at h
  exact (h.tick (ht t List.mem_cons_self) htick).left

theorem Turn.GoesOn.relays {t : Turn} (h : t.GoesOn begun followUp said) (he : t.event ≠ .idle) :
    said = 0 ∧ t.Relays t.start.openingRequest ∨
      said = 1 ∧ t.now.since begun ≥ followUp ∧ t.Relays (.chatFollowUp t.start.mood.word) := by
  have hw : ¬t.Waits := fun hw => he hw.event
  match said with
  | 0 => exact .inl ⟨rfl, h⟩
  | 1 =>
    rw [Turn.GoesOn] at h
    by_cases hd : t.now.since begun ≥ followUp
    case pos =>
      rw [if_pos hd] at h
      exact .inr ⟨rfl, hd, h⟩
    case neg =>
      rw [if_neg hd] at h
      exact absurd h hw
  | _ + 2 => exact absurd h hw

-- After a failure, the next turn asks for the same message.
theorem Turn.GoesOn.relays_again {t u : Turn} (ht : t.GoesOn begun followUp said)
    (hu : u.GoesOn begun followUp said) (he : t.event = .generationFailed)
    (hp : Instant.Pass [begun, t.now, u.now]) :
    said = 0 ∧ u.Relays u.start.openingRequest ∨
      said = 1 ∧ u.Relays (.chatFollowUp u.start.mood.word) := by
  obtain ⟨rfl, _⟩ | ⟨rfl, hd, _⟩ := ht.relays (he ▸ nofun)
  case inl => exact .inl ⟨rfl, hu⟩
  case inr =>
    obtain ⟨hb, _, hp⟩ := Instant.pass_cons_iff.mp hp
    obtain ⟨ht, hle, hp⟩ := Instant.pass_cons_iff.mp hp
    have hmono := Instant.since_mono hb ht (hp.onClock _ List.mem_cons_self) (hle _ List.mem_cons_self)
    rw [Turn.GoesOn, if_pos (Int.le_trans hd hmono)] at hu
    exact .inr ⟨rfl, hu⟩

-- From the answer that begins a break until its end there are at most two messages. The first is the opening
-- and the second is the follow-up in its time; what fails is asked for again.
theorem messages_of_break {earlier brk later : List Turn} {t₀ : Turn}
    (h : Run s (earlier ++ t₀ :: (brk ++ later)) s') (hc : t₀.event = .choice (.accepted .chat))
    (hb : ∀ t ∈ brk, ¬t.EndsBreak) :
    let followUp := s.schedule.routine.chatFollowUp
    brk.countP Turn.isChat ≤ 2 ∧
    (∀ before t behind, brk = before ++ t :: behind →
      let said := before.countP Turn.isChat
      t.GoesOn t₀.now followUp said ∧ (t.isChat →
        said = 0 ∧ t.Relays t.start.openingRequest ∨
        said = 1 ∧ t.now.since t₀.now ≥ followUp ∧ t.Relays (.chatFollowUp t.start.mood.word))) ∧
    ∀ before t u behind, brk = before ++ t :: u :: behind → t.event = .generationFailed →
      Instant.Pass [t₀.now, t.now, u.now] →
      let said := before.countP Turn.isChat
      said = 0 ∧ u.Relays u.start.openingRequest ∨
      said = 1 ∧ u.Relays (.chatFollowUp u.start.mood.word) := by
  intro followUp
  have ⟨hr₀, ht₀, hr⟩ := h.split
  have h₀ := breaks_of_chat ht₀ hc
  rw [routine_run hr₀] at h₀
  obtain ⟨_, hr, _⟩ := hr.exists_of_append
  have hgo {before behind : List Turn} {t : Turn} (hbrk : brk = before ++ t :: behind) :
      t.GoesOn t₀.now followUp (before.countP Turn.isChat) := by
    subst hbrk
    exact h₀.goesOn hr hb
  refine ⟨?_, fun before t behind hbrk => ?_, fun before t u behind hbrk hf hp => ?_⟩
  case refine_1 =>
    have hend := (h₀.run hr hb).few
    rwa [Nat.zero_add] at hend
  case refine_2 =>
    refine ⟨hgo hbrk, fun hchat => (hgo hbrk).relays fun he => ?_⟩
    rw [Turn.isChat, he] at hchat
    cases hchat
  case refine_3 =>
    have hsame : (before ++ [t]).countP Turn.isChat = before.countP Turn.isChat := by
      rw [List.countP_append, List.countP_singleton, Turn.isChat, hf]
      rfl
    have hu := hgo (hbrk.trans (List.append_cons ..))
    rw [hsame] at hu
    exact (hgo hbrk).relays_again hu hf hp

-- A break with a failure before its opening, and with its follow-up after ten minutes.
def talker : Model :=
  .ofSource (.scripted [.ok "Chat", .error (.stated "no answer"), .ok "A quiet evening.", .ok "Still here."])

def evening : Checked (List Turn) := do
  let s ← start smallScreen talker .empty (.ofSeed 0) (.seeded (.ofSeed 0)) ⟨0, 0⟩
  let (s₁, e₀) ← s.tick ⟨2700, 0⟩
  let (s₂, e₁) ← s₁.tick ⟨2701, 0⟩
  let (s₃, e₂) ← s₂.tick ⟨2702, 0⟩
  let (s₄, e₃) ← s₃.tick ⟨3300, 0⟩
  return [⟨s, ⟨2700, 0⟩, e₀, s₁⟩, ⟨s₁, ⟨2701, 0⟩, e₁, s₂⟩, ⟨s₂, ⟨2702, 0⟩, e₂, s₃⟩,
    ⟨s₃, ⟨3300, 0⟩, e₃, s₄⟩]

theorem messages_of_evening :
    ∃ s t₀ t₁ t₂ t₃ s', Run s ([] ++ t₀ :: ([t₁, t₂, t₃] ++ [])) s' ∧
      t₀.event = .choice (.accepted .chat) ∧ (∀ t ∈ [t₁, t₂, t₃], ¬t.EndsBreak) ∧
      t₁.event = .generationFailed ∧ Instant.Pass [t₀.now, t₁.now, t₂.now] ∧ t₂.isChat ∧ t₃.isChat ∧
      [t₁, t₂, t₃].countP Turn.isChat ≤ 2 ∧ t₂.Relays t₂.start.openingRequest ∧
      t₃.Relays (.chatFollowUp t₃.start.mood.word) := by
  have hd : evening.toOption.any fun ts =>
      (∀ t ∈ ts.take 1, t.event = .choice (.accepted .chat)) ∧ (∀ t ∈ ts.drop 1, ¬t.EndsBreak) ∧
        (∀ t ∈ (ts.drop 1).take 1, t.event = .generationFailed) ∧ ∀ t ∈ ts.drop 2, t.isChat := by
    decide +kernel
  obtain ⟨ts, h, hd⟩ := Checked.exists_eq_ok_of_any hd
  obtain ⟨s, _, h⟩ := Checked.bind_eq_ok_iff.mp h
  obtain ⟨⟨s₁, e₀⟩, h₀, h⟩ := Checked.bind_eq_ok_iff.mp h
  obtain ⟨⟨s₂, e₁⟩, h₁, h⟩ := Checked.bind_eq_ok_iff.mp h
  obtain ⟨⟨s₃, e₂⟩, h₂, h⟩ := Checked.bind_eq_ok_iff.mp h
  obtain ⟨⟨s₄, e₃⟩, h₃, h⟩ := Checked.bind_eq_ok_iff.mp h
  cases Checked.pure_eq_ok_iff.mp h
  obtain ⟨hc, hb, hf, hchat⟩ := of_decide_eq_true hd
  have hc := hc _ List.mem_cons_self
  have hf := hf _ List.mem_cons_self
  obtain ⟨hc₂, hc₃, _⟩ := List.forall_mem_cons.mp hchat |>.imp_right List.forall_mem_cons.mp
  have hr : Run s ([] ++ _ :: ([_, _, _] ++ [])) s₄ := .cons h₀ (.cons h₁ (.cons h₂ (.cons h₃ .nil)))
  have hp : Instant.Pass [⟨2700, 0⟩, ⟨2701, 0⟩, ⟨2702, 0⟩] := ⟨by decide, by decide⟩
  obtain ⟨hl, hrelays, hagain⟩ := messages_of_break hr hc hb
  have hopening := (hagain [] _ _ _ rfl hf hp).resolve_right fun h => Nat.zero_ne_one h.left
  have hfollowUp := ((hrelays [_, _] _ _ rfl).right hc₃).resolve_left fun h =>
    List.countP_eq_zero.mp h.left _ (by simp) hc₂
  exact ⟨s, _, _, _, _, s₄, hr, hc, hb, hf, hp, hc₂, hc₃, hl, hopening.right, hfollowUp.right.right⟩

end Session

end Atelier
