import Atelier.Proofs.Document
import Atelier.Settings

/-!
Settings documents that leave fields out. What is stated is taken as it is stated, in whatever order it
comes, and everything else is standard.
-/

namespace Atelier

open Json

namespace Retention

-- A policy is an object with a name, and a share if it has one.
inductive IsStatedBy : Retention → Json → Prop
  | retainAll {v w : Json} (h : v.members? = some [("policy", w)])
    (hw : w.text? = some "retain_all") : IsStatedBy retainAll v
  | fraction {x : Float} {v w u : Json} {ms : List (String × Json)} (h : v.members? = some ms)
    (hp : ms.Perm [("policy", w), ("fraction", u)]) (hw : w.text? = some "fraction")
    (hu : u.float? = some x) : IsStatedBy (fraction x) v

theorem isHeld_of_float? {v : Json} {x : Float} (h : v.float? = some x) (depth : Nat) :
    v.isHeld depth = true := by
  cases v
  case num l => exact Option.isSome_of_eq_some h
  all_goals contradiction

theorem ofJson?_of_members? {v : Json} {ms : List (String × Json)} (h : v.members? = some ms) :
    ofJson? v = ofMembers? ms := by
  obtain ⟨raw, rfl⟩ := exists_obj_of_members? h
  rw [ofJson?, h, Option.bind_some]

theorem IsStatedBy.ofJson?_eq {r : Retention} {v : Json} (h : r.IsStatedBy v) : ofJson? v = some r := by
  cases h with
  | retainAll h hw =>
    rw [ofJson?_of_members? h, ofMembers?, Record.ofMembers?_of_nodup (by simp), Option.bind_eq_bind,
      Option.bind_some]
    refine Record.required_bind (by simp) (by simp) hw ?_
    simp
  | @fraction x _ w u ms h hp hw hu =>
    have hn : (ms.map (·.1)).Nodup := (hp.map _).nodup_iff.mpr (by simp)
    have hm : ("policy", w) ∈ ms := hp.mem_iff.mpr (by simp)
    rw [ofJson?_of_members? h, ofMembers?, Record.ofMembers?_of_nodup hn, Option.bind_eq_bind,
      Option.bind_some]
    refine Record.required_bind hn hm hw ?_
    have ho : ms.filter (·.1 != "policy") = [("fraction", u)] :=
      List.perm_singleton.mp ((hp.filter _).trans (by simp))
    have hh : [("fraction", u)].any (fun m => !m.2.isHeld heldDepth) = false := by
      simp [isHeld_of_float? hu]
    have hs : ([("fraction", u)].map (·.1)).Nodup := by simp
    simp only [ho, hh, Record.ofMembers?_of_nodup hs]
    exact Record.required_bind hs (by simp) hu rfl

end Retention

/-! Some of the fields -/

structure ModelSettings.Partial where
  backend : Option Backend := none
  endpoint : Option String := none
  requestTimeout : Option Nat := none

namespace ModelSettings.Partial

def filled (p : Partial) : ModelSettings where
  backend := p.backend.getD standard.backend
  endpoint := p.endpoint.getD standard.endpoint
  requestTimeout := p.requestTimeout.getD standard.requestTimeout

-- Members of other names may stand between those of the fields.
structure IsStatedBy (p : Partial) (ms : List (String × Json)) : Prop where
  backend : States ms "backend" (fun b v => v.text? = some b.name) p.backend
  endpoint : States ms "endpoint" (fun s v => v.text? = some s) p.endpoint
  requestTimeout :
    States ms "request_timeout_secs" (IsWord 18446744073709551616) p.requestTimeout

variable {p : Partial} {ms : List (String × Json)}

theorem IsStatedBy.countP_le (h : p.IsStatedBy ms) : ∀ n ∈ fields, ms.countP (·.1 == n) ≤ 1 := by
  simp only [fields, List.forall_mem_cons]
  exact ⟨h.backend.countP_le, h.endpoint.countP_le, h.requestTimeout.countP_le, nofun⟩

theorem IsStatedBy.ofJson?_eq (h : p.IsStatedBy ms) {v : Json} (hv : v.members? = some ms) :
    ofJson? v = some p.filled := by
  rw [ofJson?, record?_of_members? hv h.countP_le, Option.bind_eq_bind, Option.bind_some]
  refine h.backend.withDefault_bind (fun b _ hb => choice?_of_text? hb (Backend.ofName?_name b)) ?_
  refine h.endpoint.withDefault_bind (fun _ _ hs => hs) ?_
  exact h.requestTimeout.withDefault_bind (fun _ _ => nat64?_of_isWord) rfl

end ModelSettings.Partial

structure Settings.Partial where
  debugLogging : Option Bool := none
  dataDir : Option Directory := none
  model : Option ModelSettings.Partial := none
  screenWidth : Option Nat := none
  screenHeight : Option Nat := none
  fullscreen : Option Bool := none
  checkInInterval : Option Nat := none
  breakDuration : Option Nat := none
  restDuration : Option Nat := none
  chatFollowUp : Option Nat := none
  maxChoiceRetries : Option Nat := none
  fixedDelay : Option (Option Nat) := none
  saveEverySteps : Option Nat := none
  retention : Option Retention := none
  soundEnabled : Option Bool := none

namespace Settings.Partial

def filled (p : Partial) : Settings where
  debugLogging := p.debugLogging.getD standard.debugLogging
  dataDir := p.dataDir.getD standard.dataDir
  model := (p.model.map ModelSettings.Partial.filled).getD standard.model
  screen := ⟨p.screenWidth.getD standard.screen.width, p.screenHeight.getD standard.screen.height⟩
  fullscreen := p.fullscreen.getD standard.fullscreen
  checkInInterval := p.checkInInterval.getD standard.checkInInterval
  breakDuration := p.breakDuration.getD standard.breakDuration
  restDuration := p.restDuration.getD standard.restDuration
  chatFollowUp := p.chatFollowUp.getD standard.chatFollowUp
  maxChoiceRetries := p.maxChoiceRetries.getD standard.maxChoiceRetries
  fixedDelay := p.fixedDelay.getD standard.fixedDelay
  saveEverySteps := p.saveEverySteps.getD standard.saveEverySteps
  retention := p.retention.getD standard.retention
  soundEnabled := p.soundEnabled.getD standard.soundEnabled

def IsStatedDelay (o : Option Nat) (v : Json) : Prop :=
  match o with
  | none => v = null
  | some n => IsWord 18446744073709551616 n v

structure IsStatedBy (p : Partial) (ms : List (String × Json)) : Prop where
  debugLogging : States ms "debug_logging" (fun b v => v = bool b) p.debugLogging
  dataDir : States ms "data_dir" (fun d v => v.text? = some d.text) p.dataDir
  model : States ms "model" (fun q v => ∃ ms, v.members? = some ms ∧ q.IsStatedBy ms) p.model
  screenWidth : States ms "screen_width" (IsWord 4294967296) p.screenWidth
  screenHeight : States ms "screen_height" (IsWord 4294967296) p.screenHeight
  fullscreen : States ms "fullscreen" (fun b v => v = bool b) p.fullscreen
  checkInInterval :
    States ms "checkin_interval_secs" (IsWord 18446744073709551616) p.checkInInterval
  breakDuration : States ms "break_duration_secs" (IsWord 18446744073709551616) p.breakDuration
  restDuration : States ms "rest_duration_secs" (IsWord 18446744073709551616) p.restDuration
  chatFollowUp : States ms "chat_follow_up_secs" (IsWord 18446744073709551616) p.chatFollowUp
  maxChoiceRetries : States ms "max_choice_retries" (IsWord 4294967296) p.maxChoiceRetries
  fixedDelay : States ms "fixed_delay_ms" IsStatedDelay p.fixedDelay
  saveEverySteps : States ms "save_every_steps" (IsWord 18446744073709551616) p.saveEverySteps
  retention : States ms "dream_retention" Retention.IsStatedBy p.retention
  soundEnabled : States ms "sound_enabled" (fun b v => v = bool b) p.soundEnabled

theorem bool?_of_eq {b : Bool} {v : Json} (h : v = bool b) : v.bool? = some b :=
  h ▸ bool?_bool b

theorem directory?_of_text? {d : Directory} {v : Json} (h : v.text? = some d.text) :
    directory? v = some d := by
  rw [directory?, h, Option.map_some]

theorem option?_of_isStatedDelay {o : Option Nat} {v : Json} (h : IsStatedDelay o v) :
    option? nat64? v = some o := by
  cases o
  case none => rw [show v = null from h, option?]
  case some n =>
    have hw : IsWord 18446744073709551616 n v := h
    have hn : v ≠ null := by
      rw [hw.right]
      exact Json.noConfusion
    rw [option?.eq_2 _ _ hn, nat64?_of_isWord hw, Option.map_some]

variable {p : Partial} {ms : List (String × Json)}

theorem IsStatedBy.countP_le (h : p.IsStatedBy ms) : ∀ n ∈ fields, ms.countP (·.1 == n) ≤ 1 := by
  simp only [fields, List.forall_mem_cons]
  exact ⟨h.debugLogging.countP_le, h.dataDir.countP_le, h.model.countP_le, h.screenWidth.countP_le,
    h.screenHeight.countP_le, h.fullscreen.countP_le, h.checkInInterval.countP_le,
    h.breakDuration.countP_le, h.restDuration.countP_le, h.chatFollowUp.countP_le,
    h.maxChoiceRetries.countP_le, h.fixedDelay.countP_le, h.saveEverySteps.countP_le,
    h.retention.countP_le, h.soundEnabled.countP_le, nofun⟩

theorem IsStatedBy.ofJson?_eq (h : p.IsStatedBy ms) {v : Json} (hv : v.members? = some ms) :
    ofJson? v = some p.filled := by
  have hm : States ms "model" (fun s v => ModelSettings.ofJson? v = some s)
      (p.model.map ModelSettings.Partial.filled) :=
    h.model.map fun _ _ ⟨_, hv, hq⟩ => hq.ofJson?_eq hv
  rw [ofJson?, record?_of_members? hv h.countP_le, Option.bind_eq_bind, Option.bind_some]
  refine h.debugLogging.withDefault_bind (fun _ _ => bool?_of_eq) ?_
  refine h.dataDir.withDefault_bind (fun _ _ => directory?_of_text?) ?_
  refine hm.withDefault_bind (fun _ _ hs => hs) ?_
  refine h.screenWidth.withDefault_bind (fun _ _ => nat32?_of_isWord) ?_
  refine h.screenHeight.withDefault_bind (fun _ _ => nat32?_of_isWord) ?_
  refine h.fullscreen.withDefault_bind (fun _ _ => bool?_of_eq) ?_
  refine h.checkInInterval.withDefault_bind (fun _ _ => nat64?_of_isWord) ?_
  refine h.breakDuration.withDefault_bind (fun _ _ => nat64?_of_isWord) ?_
  refine h.restDuration.withDefault_bind (fun _ _ => nat64?_of_isWord) ?_
  refine h.chatFollowUp.withDefault_bind (fun _ _ => nat64?_of_isWord) ?_
  refine h.maxChoiceRetries.withDefault_bind (fun _ _ => nat32?_of_isWord) ?_
  refine h.fixedDelay.withDefault_bind (fun _ _ => option?_of_isStatedDelay) ?_
  refine h.saveEverySteps.withDefault_bind (fun _ _ => nat64?_of_isWord) ?_
  refine h.retention.withDefault_bind (fun _ _ => Retention.IsStatedBy.ofJson?_eq) ?_
  exact h.soundEnabled.withDefault_bind (fun _ _ => bool?_of_eq) rfl

end Settings.Partial

end Atelier
