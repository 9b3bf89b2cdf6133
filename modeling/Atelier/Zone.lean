import Atelier.Instant

/-!
Local time. How far the clocks of a zone are ahead of UTC depends on the instant. Where they are turned
back, they show the same times once more.
-/

namespace Atelier

structure Zone where
  /-- Seconds that the clocks are ahead of UTC; less than none if they are behind. -/
  ahead : Instant → Int
  natAbs_ahead_lt (t : Instant) : (ahead t).natAbs < 86400

/-- An instant, and what the clocks make of it. -/
structure LocalTime where
  instant : Instant
  ahead : Int
  natAbs_ahead_lt : ahead.natAbs < 86400
deriving DecidableEq

namespace Zone

def utc : Zone := ⟨fun _ => 0, fun _ => by decide⟩

def localTime (z : Zone) (t : Instant) : LocalTime := ⟨t, z.ahead t, z.natAbs_ahead_lt t⟩

end Zone

namespace LocalTime

open Decimal

/-- The instant at which clocks of UTC show the same. -/
def shown (t : LocalTime) : Instant :=
  ⟨t.instant.seconds + t.ahead, t.instant.nanos⟩

/-- Hours and minutes ahead, to the nearest minute. -/
def aheadText (ahead : Int) : List Char :=
  if ahead = 0 then
    ['Z']
  else
    let minutes := (ahead.natAbs + 30) / 60
    (if ahead < 0 then '-' else '+') :: (padded 2 (minutes / 60) ++ ':' :: padded 2 (minutes % 60))

/-- Date and time of day as the clocks show them, and how far they are ahead. -/
def text (t : LocalTime) : String :=
  String.ofList (t.shown.dateTime ++ aheadText t.ahead)

end LocalTime

end Atelier
