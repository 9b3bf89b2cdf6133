import Atelier.Request

/-!
Requests of a check-in and of a chat break.
-/

namespace Atelier.Request

/-- Asks for one of the three choices of a check-in. -/
def checkIn (emotion energy : String) (pixels : Nat) (overview : String) (colors : List String) :
    Request where
  purpose := .modeChoice
  prompt :=
    let recent := colorList colors
    wrap
      ("\n".intercalate [
        "You are Aurora. You've been drawing for a while.",
        "",
        "Current state:",
        s!"- Emotion: {emotion}",
        s!"- Energy level: {energy}",
        s!"- Recent activity: Drew {pixels} pixels in last 100 steps",
        "",
        "You have three options:",
        "CHAT - Have a conversation break (if social or wanting reflection)",
        "DREAM - Enter a rest with dream cycles (if tired or contemplative)",
        "DRAW - Keep drawing",
        "",
        "Output ONLY one of these exact words: CHAT, DREAM or DRAW"])
      (s!"Canvas state: {overview}\nRecent colors: {recent}\n\n" ++ "What would you like to do?")
  maxTokens := 10
  temperature := 0.7
  topP := usualTopP
  stop := usualStops ++ ["\n"]

/-- Asks for the first message of a chat break. -/
def chatOpening (emotion overview : String) (colors : List String) (tool : String) : Request where
  purpose := .chat
  prompt :=
    let recent := colorList colors
    wrap
      ("\n".intercalate [
        "You are Aurora, an AI artist taking a break from drawing to chat.",
        "Share your thoughts about your artwork, your creative process, your feelings, " ++
          "or anything else on your mind.",
        "Be authentic, thoughtful, and expressive.",
        "",
        "Respond with one thoughtful, complete message (3-5 paragraphs)."])
      ("\n".intercalate [
        "You're in chat mode after drawing.",
        s!"Current emotion: {emotion}",
        overview,
        s!"Recent colors used: {recent}",
        s!"Current drawing tool: {tool}",
        "",
        "Share what's on your mind."])
  maxTokens := 400
  temperature := 0.9
  topP := usualTopP
  stop := usualStops

/-- Asks for the second and last message of a chat break. -/
def chatFollowUp (emotion : String) : Request where
  purpose := .chat
  prompt :=
    wrap
      ("\n".intercalate [
        "You are Aurora, continuing your chat break.",
        "Share any new thoughts or follow up on what you said before.",
        "Keep it brief this time - just 1-2 paragraphs."])
      ("\n".intercalate [
        "You're halfway through your chat break.",
        s!"Current emotion: {emotion}",
        "Anything else you'd like to share?"])
  maxTokens := 150
  temperature := 0.9
  topP := usualTopP
  stop := usualStops

end Atelier.Request
