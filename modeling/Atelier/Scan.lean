import Atelier.Text
import Atelier.Token

/-!
Reading an answer of the model. The text is cut from left to right: where a literal stands it becomes
a token, any other character is passed over. Only the beginning of a text is cut; but a counting run,
wherever it stands, turns the whole answer into a pause for thinking.
-/

namespace Atelier.Token

/-- Characters of an answer that are cut. -/
def scanLimit : Nat := 160

/-- The token whose literal a text starts with. -/
def atFront? (cs : List Char) : Option Token :=
  vocabulary.find? fun t => t.literal.isPrefixOf cs

/-- The tokens of a text in small letters. -/
def cut : List Char → List Token
  | [] => []
  | c :: cs =>
    match atFront? (c :: cs) with
    | some t => t :: cut (cs.drop (t.literal.length - 1))
    | none => cut cs
termination_by cs => cs.length

/-- Whether a text counts up or down. -/
def hasCountingRun (cs : List Char) : Bool :=
  countingRuns.any (Text.contains · cs)

def scanChars (cs : List Char) : List Token :=
  let cs := Text.lower cs
  if hasCountingRun cs then [thinkPause] else cut (cs.take scanLimit)

def scan (raw : String) : List Token :=
  scanChars raw.toList

theorem mem_vocabulary_of_atFront? {cs : List Char} {t : Token} (h : atFront? cs = some t) :
    t ∈ vocabulary :=
  List.mem_of_find?_eq_some h

theorem literal_isPrefixOf_of_atFront? {cs : List Char} {t : Token} (h : atFront? cs = some t) :
    t.literal.isPrefixOf cs = true := by
  simpa using List.find?_some h

end Atelier.Token
