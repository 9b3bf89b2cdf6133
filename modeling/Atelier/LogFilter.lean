import Atelier.Text

/-!
How much is logged. A filter of one's own counts only in debug runs.
-/

namespace Atelier.LogFilter

def quiet : String := "info"

def verbose : String := "debug"

/-- The filter of a run, after the one that its environment asks for. -/
def choose (debug : Bool) (wanted : Option String) : String :=
  if debug then
    let wanted := Text.trim (wanted.getD "")
    if wanted.isEmpty then verbose else wanted
  else
    quiet

end Atelier.LogFilter
