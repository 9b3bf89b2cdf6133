import Atelier.Canvas
import Atelier.Document
import Atelier.Json.Reader
import Atelier.Model
import Atelier.Path

/-!
Settings. A settings document may leave out any of its fields, and an empty text is a document that
leaves out all of them.
-/

namespace Atelier

namespace Retention

def toJson : Retention → Json
  | retainAll => .object [("policy", .ofString "retain_all")]
  | fraction share => .object [("policy", .ofString "fraction"), ("fraction", .ofFloat share)]

/-- How deep values may be nested in the fields of a policy. -/
def heldDepth : Nat := 125

/-- The fields of a policy are taken up whole before the policy is known. Keeping all dreams needs no
further field, so what else is given does not matter. -/
def ofMembers? (ms : List (String × Json)) : Option Retention := do
  let r ← Json.Record.ofMembers? ["policy"] ms
  let policy ← r.required "policy" Json.text?
  let others := ms.filter (·.1 != "policy")
  if others.any fun m => !m.2.isHeld heldDepth then
    none
  match policy with
  | "retain_all" => return retainAll
  | "fraction" =>
    let r ← Json.Record.ofMembers? ["fraction"] others
    return fraction (← r.required "fraction" Json.float?)
  | _ => none

/-- A policy in a list: its name, and the share if it has one. -/
def ofItems? : List Json → Option Retention
  | [policy] => do
    match ← policy.text? with
    | "retain_all" => return retainAll
    | _ => none
  | [policy, share] => do
    match ← policy.text? with
    | "fraction" => return fraction (← share.float?)
    | _ => none
  | _ => none

def ofJson? (v : Json) : Option Retention :=
  match v with
  | .obj _ => v.members?.bind ofMembers?
  | .arr vs => ofItems? vs
  | _ => none

end Retention

structure ModelSettings where
  backend : Backend
  endpoint : String
  requestTimeout : Nat
deriving BEq

namespace ModelSettings

def standard : ModelSettings :=
  ⟨.http, "http://127.0.0.1:8080", 120⟩

def fields : List String :=
  ["backend", "endpoint", "request_timeout_secs"]

def toJson (s : ModelSettings) : Json :=
  .object [
    ("backend", .ofString s.backend.name),
    ("endpoint", .ofString s.endpoint),
    ("request_timeout_secs", .ofNat s.requestTimeout)]

def ofJson? (v : Json) : Option ModelSettings := do
  let r ← v.record? fields
  return {
    backend := ← r.withDefault "backend" (Json.choice? Backend.ofName?) standard.backend
    endpoint := ← r.withDefault "endpoint" Json.text? standard.endpoint
    requestTimeout := ← r.withDefault "request_timeout_secs" Json.nat64? standard.requestTimeout
  }

end ModelSettings

/-- Intervals and durations are in whole seconds. -/
structure Settings where
  debugLogging : Bool
  dataDir : Directory
  model : ModelSettings
  screen : Size
  fullscreen : Bool
  checkInInterval : Nat
  breakDuration : Nat
  restDuration : Nat
  chatFollowUp : Nat
  maxChoiceRetries : Nat
  /-- A delay in milliseconds that takes the place of all others. -/
  fixedDelay : Option Nat
  /-- Steps between two saves; zero for none. -/
  saveEverySteps : Nat
  retention : Retention
  soundEnabled : Bool
deriving BEq

namespace Settings

def standard : Settings where
  debugLogging := false
  dataDir := ⟨"aurora_data"⟩
  model := .standard
  screen := ⟨1920, 1080⟩
  fullscreen := true
  checkInInterval := 2700
  breakDuration := 1200
  restDuration := 3600
  chatFollowUp := 600
  maxChoiceRetries := 5
  fixedDelay := none
  saveEverySteps := 100
  retention := .retainAll
  soundEnabled := true

def fields : List String :=
  ["debug_logging", "data_dir", "model", "screen_width", "screen_height", "fullscreen",
    "checkin_interval_secs", "break_duration_secs", "rest_duration_secs", "chat_follow_up_secs",
    "max_choice_retries", "fixed_delay_ms", "save_every_steps", "dream_retention", "sound_enabled"]

def toJson (s : Settings) : Json :=
  .object [
    ("debug_logging", .bool s.debugLogging),
    ("data_dir", .ofString s.dataDir.text),
    ("model", s.model.toJson),
    ("screen_width", .ofNat s.screen.width),
    ("screen_height", .ofNat s.screen.height),
    ("fullscreen", .bool s.fullscreen),
    ("checkin_interval_secs", .ofNat s.checkInInterval),
    ("break_duration_secs", .ofNat s.breakDuration),
    ("rest_duration_secs", .ofNat s.restDuration),
    ("chat_follow_up_secs", .ofNat s.chatFollowUp),
    ("max_choice_retries", .ofNat s.maxChoiceRetries),
    ("fixed_delay_ms", .ofOption Json.ofNat s.fixedDelay),
    ("save_every_steps", .ofNat s.saveEverySteps),
    ("dream_retention", s.retention.toJson),
    ("sound_enabled", .bool s.soundEnabled)]

def directory? (v : Json) : Option Directory :=
  v.text?.map Directory.mk

def ofJson? (v : Json) : Option Settings := do
  let r ← v.record? fields
  let d := standard
  return {
    debugLogging := ← r.withDefault "debug_logging" Json.bool? d.debugLogging
    dataDir := ← r.withDefault "data_dir" directory? d.dataDir
    model := ← r.withDefault "model" ModelSettings.ofJson? d.model
    screen := {
      width := ← r.withDefault "screen_width" Json.nat32? d.screen.width
      height := ← r.withDefault "screen_height" Json.nat32? d.screen.height
    }
    fullscreen := ← r.withDefault "fullscreen" Json.bool? d.fullscreen
    checkInInterval := ← r.withDefault "checkin_interval_secs" Json.nat64? d.checkInInterval
    breakDuration := ← r.withDefault "break_duration_secs" Json.nat64? d.breakDuration
    restDuration := ← r.withDefault "rest_duration_secs" Json.nat64? d.restDuration
    chatFollowUp := ← r.withDefault "chat_follow_up_secs" Json.nat64? d.chatFollowUp
    maxChoiceRetries := ← r.withDefault "max_choice_retries" Json.nat32? d.maxChoiceRetries
    fixedDelay := ← r.withDefault "fixed_delay_ms" (Json.option? Json.nat64?) d.fixedDelay
    saveEverySteps := ← r.withDefault "save_every_steps" Json.nat64? d.saveEverySteps
    retention := ← r.withDefault "dream_retention" Retention.ofJson? d.retention
    soundEnabled := ← r.withDefault "sound_enabled" Json.bool? d.soundEnabled
  }

/-- The document as it is written to a file. -/
def text (s : Settings) : String :=
  s.toJson.pretty

/-- Reads the text of a settings file. A file that is missing, or that holds no text, counts as
empty. -/
def load? (content : Option String) : Option Settings :=
  let content := content.getD ""
  if (Text.trim content).isEmpty then
    some standard
  else
    (Json.read content).bind ofJson?

/-- Sides of the screen are at least one. -/
def usableScreen (s : Settings) : Size :=
  ⟨max s.screen.width 1, max s.screen.height 1⟩

/-- A number of seconds, cut to a signed word, as a span. -/
def span (seconds : Nat) : Checked Span :=
  Span.ofSecondsChecked (min seconds 9223372036854775807)

/-- The routine that the settings describe. At least one choice is asked for. -/
def routine (s : Settings) : Checked Routine := do
  return {
    checkInInterval := ← span s.checkInInterval
    breakDuration := ← span s.breakDuration
    restDuration := ← span s.restDuration
    chatFollowUp := ← span s.chatFollowUp
    maxRetries := max s.maxChoiceRetries 1
  }

end Settings

end Atelier
