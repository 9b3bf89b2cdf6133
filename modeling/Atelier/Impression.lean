import Atelier.Text
import Atelier.Token

/-!
How strongly events influence the mood. Positive amounts lift it, negative ones weigh on it.
-/

namespace Atelier.Impression

/-- The impression of a finished code, by the pixels and the number of colours that it painted. -/
def ofCreating (painted colors : Nat) : Float :=
  if painted > 500 then 0.2
  else if painted > 100 then 0.1
  else if colors > 2 then 0.15
  else 0.05

def ofTone : Option Pitch → Float
  | some .high => 0.3
  | some .low  => -0.2
  | none       => 0.1

/-- The impression of the whole picture, by the percentage that is covered. -/
def ofArtwork (coverage : Float) : Float :=
  if coverage > 50.0 then 0.7
  else if coverage > 20.0 then 0.3
  else -0.2

/-- The impression of a vivid dream. -/
def ofDream : Float := 0.3

/-- The impression of a message, by the words in it. The first kind that occurs decides. -/
def ofMessage (message : String) : Float :=
  let cs := Text.lower message.toList
  let has (words : List String) : Bool := words.any fun w => Text.contains w.toList cs
  if has ["happy", "excited", "love", "wonderful"] then 0.6
  else if has ["sad", "miss", "wish", "lonely"] then -0.4
  else if has ["think", "wonder", "curious", "interesting"] then 0.3
  else 0.1

end Atelier.Impression
