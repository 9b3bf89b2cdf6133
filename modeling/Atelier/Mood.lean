import Atelier.Rounding

/-!
Moods. A mood has a category and a depth, which name it together, and is steered by influences that
fade. After a change of category it stays as it is for a while.
-/

namespace Atelier

inductive Category
  | joy
  | curiosity
  | peace
  | energy
  | contemplation
  | creativity
  | melancholy
  | wonder
deriving DecidableEq, Repr

namespace Category

def all : List Category :=
  [joy, curiosity, peace, energy, contemplation, creativity, melancholy, wonder]

theorem mem_all (c : Category) : c ∈ all := by
  cases c <;> decide

def name : Category → String
  | joy           => "joy"
  | curiosity     => "curiosity"
  | peace         => "peace"
  | energy        => "energy"
  | contemplation => "contemplation"
  | creativity    => "creativity"
  | melancholy    => "melancholy"
  | wonder        => "wonder"

/-- The words of a category, from shallow to deep. -/
def words : Category → List String
  | joy           => ["content", "happy", "joyful", "elated", "euphoric"]
  | curiosity     => ["interested", "curious", "fascinated", "absorbed", "obsessed"]
  | peace         => ["calm", "peaceful", "serene", "tranquil", "zen"]
  | energy        => ["active", "energetic", "excited", "exhilarated", "electric"]
  | contemplation => ["thoughtful", "contemplative", "reflective", "philosophical", "profound"]
  | creativity    => ["inspired", "creative", "imaginative", "visionary", "transcendent"]
  | melancholy    => ["wistful", "nostalgic", "melancholic", "longing", "bittersweet"]
  | wonder        => ["amazed", "wondering", "astonished", "awestruck", "mystified"]

theorem length_words (c : Category) : c.words.length = 5 := by
  cases c <;> rfl

end Category

/-- What a mood is influenced by. -/
inductive Influence
  | dreams
  | chat
  | music
  | artwork
  | creating
deriving DecidableEq, Repr

namespace Influence

def all : List Influence := [dreams, chat, music, artwork, creating]

def name : Influence → String
  | dreams   => "dreams"
  | chat     => "chat"
  | music    => "music"
  | artwork  => "artwork"
  | creating => "creating"

end Influence

structure Influences where
  dreams : Float
  chat : Float
  music : Float
  artwork : Float
  creating : Float

namespace Influences

def none : Influences := ⟨0.0, 0.0, 0.0, 0.0, 0.0⟩

def get (i : Influences) : Influence → Float
  | .dreams   => i.dreams
  | .chat     => i.chat
  | .music    => i.music
  | .artwork  => i.artwork
  | .creating => i.creating

def modify (i : Influences) (s : Influence) (f : Float → Float) : Influences :=
  match s with
  | .dreams   => { i with dreams := f i.dreams }
  | .chat     => { i with chat := f i.chat }
  | .music    => { i with music := f i.music }
  | .artwork  => { i with artwork := f i.artwork }
  | .creating => { i with creating := f i.creating }

def mean (i : Influences) : Float :=
  (i.dreams + i.chat + i.music + i.artwork + i.creating) / 5.0

def fade (i : Influences) : Influences :=
  let f (x : Float) : Float := x * 0.95
  ⟨f i.dreams, f i.chat, f i.music, f i.artwork, f i.creating⟩

end Influences

structure Mood where
  category : Category
  depth : Nat
  influences : Influences
  /-- Evaluations for which category and depth stay as they are. -/
  cooldown : Nat

namespace Mood

def initial : Mood := ⟨.curiosity, 1, .none, 0⟩

/-- What an evaluation of the mood takes into account. -/
structure Evidence where
  continuousDraws : Nat
  distinctColors : Nat
  skips : Nat
  turbo : Bool
deriving DecidableEq

def word? (m : Mood) : Option String :=
  m.category.words[m.depth]?

def word (m : Mood) : String :=
  m.word?.getD ""

/-- The mood that a word names; the initial mood for other words. -/
def ofWord (w : String) : Mood :=
  let place := Category.all.findSome? fun c => (c.words.findIdx? (· == w)).map (c, ·)
  match place with
  | some (c, d) => { initial with category := c, depth := d }
  | none => initial

/-- Adds to an influence, which stays between minus one and one. -/
def influence (m : Mood) (s : Influence) (amount : Float) : Mood :=
  { m with influences := m.influences.modify s fun x => clampFloat (-1.0) 1.0 (x + amount) }

def isEnergetic (m : Mood) : Bool :=
  ["energetic", "excited", "exhilarated", "electric"].contains m.word

def isCalm (m : Mood) : Bool :=
  ["contemplative", "peaceful", "tranquil", "zen"].contains m.word

def energy (m : Mood) : String :=
  if ["energetic", "excited", "exhilarated"].contains m.word then "high"
  else if ["curious", "creative", "happy"].contains m.word then "medium"
  else "low"

/-- The category that the influences and the evidence speak for. -/
def target (i : Influences) (e : Evidence) : Category :=
  let overall := i.mean
  if overall > 0.5 then
    if e.continuousDraws > 20 then .energy
    else if e.distinctColors > 10 then .creativity
    else .joy
  else if overall > 0.2 then
    if e.skips > 5 then .contemplation else .curiosity
  else if overall > -0.2 then .peace
  else if overall > -0.5 then .melancholy
  else .contemplation

def targetDepth (e : Evidence) : Nat :=
  if e.continuousDraws > 30 ∨ e.turbo then 4
  else if e.continuousDraws > 10 then 3
  else if e.skips > 10 then 1
  else 2

def maxDepth : Nat := 4

/-- One step from a depth towards another. -/
def approach (depth goal : Nat) : Nat :=
  if goal > depth then min (depth + 1) maxDepth
  else if goal < depth then depth - 1
  else depth

def cooldownLength : Nat := 10

/-- Evaluates the mood, and tells whether the category has changed. -/
def evaluate (m : Mood) (e : Evidence) : Mood × Bool :=
  let faded := m.influences.fade
  if m.cooldown = 0 then
    let goal := target m.influences e
    let shifted := goal != m.category
    ({ category := goal
       depth := approach m.depth (targetDepth e)
       influences := faded
       cooldown := if shifted then cooldownLength else 0 }, shifted)
  else
    ({ m with influences := faded, cooldown := m.cooldown - 1 }, false)

theorem approach_le {depth goal : Nat} (h : depth ≤ maxDepth) : approach depth goal ≤ maxDepth := by
  unfold approach maxDepth at *
  split
  · omega
  · split <;> omega

theorem depth_evaluate_le {m : Mood} {e : Evidence} (h : m.depth ≤ maxDepth) :
    (m.evaluate e).1.depth ≤ maxDepth := by
  unfold evaluate
  split
  · exact approach_le h
  · exact h

end Mood

end Atelier
