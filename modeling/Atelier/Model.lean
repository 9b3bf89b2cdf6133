import Atelier.Random
import Atelier.Request

/-!
Language models. One kind answers from a list, one picks from built-in answers, and one stands for a
server. No connection is ever made here, so a server is never reached.
-/

namespace Atelier

inductive Backend
  | http
  | demo
deriving DecidableEq, Repr

namespace Backend

def all : List Backend := [http, demo]

def name : Backend → String
  | http => "http"
  | demo => "demo"

def title : Backend → String
  | http => "Http"
  | demo => "Demo"

def ofName? (s : String) : Option Backend :=
  all.find? (·.name == s)

theorem ofName?_name (b : Backend) : ofName? b.name = some b := by
  cases b <;> decide

end Backend

/-- Why there is no answer. -/
inductive Refusal
  | stated (message : String)
  | notSent (url : String)
  | unreachable (url : String)
  | unavailable (b : Backend)
deriving DecidableEq

def Refusal.message : Refusal → String
  | stated message => message
  | notSent url => s!"post {url}"
  | unreachable url => s!"reach model server at {url}"
  | unavailable b => s!"model backend {b.title} is not available"

abbrev Answer := Except Refusal String

/-- Where answers come from. -/
inductive Source
  /-- Answers in a fixed order; when they are used up, all others are empty. -/
  | scripted (answers : List Answer)
  | demo (random : Random)
  | server (endpoint : String)

namespace Source

/-- The built-in answers. -/
def demoAnswers : Purpose → List String
  | .drawing => [
      "red53333orange53333yellow53333",
      "blue533311122200cyan533311122200",
      "533330000222211113333000022221111",
      "spray5333111",
      "larger_brush53333",
      "5!3!3!3!",
      "white50000black52222",
      "green5313!313@313#",
      "brush5333333pen511111",
      "magenta51313131313",
      "4222225purple51111",
      "navy5++!++@++#"]
  | .modeChoice => ["CHAT", "DREAM", "DRAW"]
  | .chat => [
      "The canvas feels like a quiet field tonight. I keep returning to long horizontal strokes.",
      "I wonder what the dark corners would look like in orange."]
  | .dream => [
      "A river of cyan squares folding into itself.",
      "Brushes that hum as they paint, every stroke a low note.",
      "Waking with the idea of layering spray over brush."]

/-- The address of a service of a server. Slashes at the end of the endpoint do not count. -/
def url (endpoint service : String) : String :=
  let base := String.ofList (endpoint.toList.reverse.dropWhile (· = '/')).reverse
  s!"{base}/{service}"

def generate (p : Purpose) : Source → Answer × Source
  | scripted [] => (.ok "", scripted [])
  | scripted (a :: as) => (a, scripted as)
  | demo random =>
    let (text, random) := random.choose? (demoAnswers p)
    (.ok (text.getD ""), demo random)
  | server endpoint => (.error (.notSent (url endpoint "completion")), server endpoint)

/-- Whether answers can be expected. -/
def health : Source → Except Refusal Unit
  | server endpoint => .error (.unreachable (url endpoint "health"))
  | _ => .ok ()

/-- Seed of the demonstration that a backend gives. -/
def demoSeed : UInt64 := 42

/-- The source of a backend, if it is in good health. -/
def connect (b : Backend) (endpoint : String) : Except Refusal Source :=
  let source :=
    match b with
    | .http => server endpoint
    | .demo => demo (Random.ofSeed demoSeed)
  match source.health with
  | .ok () => .ok source
  | .error _ => .error (.unavailable b)

end Source

/-- A model keeps the requests that it was asked, oldest first. -/
structure Model where
  source : Source
  asked : Array Request

namespace Model

def ofSource (source : Source) : Model := ⟨source, #[]⟩

def ask (m : Model) (r : Request) : Answer × Model :=
  let (answer, source) := m.source.generate r.purpose
  (answer, ⟨source, m.asked.push r⟩)

end Model

end Atelier
