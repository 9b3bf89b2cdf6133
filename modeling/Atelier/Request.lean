/-!
Requests to the language model: a prompt with the limits of its answer.
-/

namespace Atelier

/-- What an answer is wanted for. -/
inductive Purpose
  | drawing
  | modeChoice
  | chat
  | dream
deriving DecidableEq, Repr

namespace Purpose

def all : List Purpose := [drawing, modeChoice, chat, dream]

def name : Purpose → String
  | drawing    => "drawing"
  | modeChoice => "mode_choice"
  | chat       => "chat"
  | dream      => "dream"

def ofName? (s : String) : Option Purpose :=
  all.find? (·.name == s)

theorem ofName?_name (p : Purpose) : ofName? p.name = some p := by
  cases p <;> decide

end Purpose

structure Request where
  purpose : Purpose
  prompt : String
  maxTokens : Nat
  temperature : Float32
  topP : Float32
  /-- Texts at which the answer ends. -/
  stop : List String

namespace Request

/-- Puts instructions and a message into the frame of a chat. -/
def wrap (system user : String) : String :=
  s!"[INST] <<SYS>>\n{system}\n<</SYS>>\n\n{user} [/INST]"

def usualTopP : Float32 := 0.95

def usualStops : List String := ["[INST]", "</s>"]

/-- Colour names in a row, or a word for none. -/
def colorList (colors : List String) : String :=
  if colors.isEmpty then "various" else ", ".intercalate colors

end Request

end Atelier
