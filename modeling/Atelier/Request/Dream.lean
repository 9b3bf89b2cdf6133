import Atelier.Request
import Atelier.Schedule

/-!
Requests for dreams, one kind for each phase of sleep.
-/

namespace Atelier

/-- What a dream is made of. -/
structure DreamMatter where
  emotion : String
  colors : List String
  codes : List String
  overview : String
  /-- Dreams of the same rest. -/
  dreams : List String

namespace Request

/-- Dreams are wildest in the middle phase. -/
def dreamTemperature : SleepPhase → Float32
  | .light  => 0.7
  | .rem    => 1.2
  | .waking => 0.9

/-- Only the beginning of a code finds its way into a dream. -/
def glimpse (code : String) : String :=
  String.ofList (code.toList.take 10)

def dreamSystem (m : DreamMatter) : SleepPhase → String
  | .light =>
    let colors := ", ".intercalate m.colors
    "\n".intercalate [
      "You are Aurora dreaming lightly. Your dreams are simple and fragmented.",
      s!"Recent colors: {colors}",
      s!"Current emotion: {m.emotion}",
      "",
      "Describe a brief, simple dream fragment (1-2 sentences). Focus on colors, shapes, or movements."]
  | .rem =>
    let codes := ", ".intercalate (m.codes.map glimpse)
    "\n".intercalate [
      "You are Aurora in deep REM sleep, having vivid dreams about art and creation.",
      m.overview,
      s!"Recent activity: {codes}",
      s!"Emotion: {m.emotion}",
      "",
      "Describe a vivid, surreal dream about colors, art, or creation (2-3 sentences)."]
  | .waking =>
    "\n".intercalate [
      "You are Aurora waking up, reflecting on your dreams.",
      "Dreams you had:",
      "\n".intercalate m.dreams,
      "",
      "What artistic inspiration or insight do you take from these dreams? (1-2 sentences)"]

def dreamUser : SleepPhase → String
  | .light  => "Dream:"
  | .rem    => "Vivid dream:"
  | .waking => "Dream insight:"

def dreamTokens : SleepPhase → Nat
  | .light  => 50
  | .rem    => 100
  | .waking => 60

def dream (phase : SleepPhase) (m : DreamMatter) : Request where
  purpose := .dream
  prompt := wrap (dreamSystem m phase) (dreamUser phase)
  maxTokens := dreamTokens phase
  temperature := dreamTemperature phase
  topP := usualTopP
  stop := usualStops

end Request

end Atelier
