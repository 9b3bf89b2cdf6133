import Atelier.Canvas
import Atelier.Decimal.Dyadic

/-!
A canvas described in one line: its size, cursor and scale, without its cells.
-/

namespace Atelier.Canvas

/-- A name with its words joined, each with a capital. -/
def joined (name : String) : String :=
  "".intercalate ((name.splitOn "_").map String.capitalize)

/-- In a description, numbers below 10⁻⁴ and from 10¹⁶ on have an exponent. -/
def numbers : Decimal.PositionalRange := ⟨-4, 15⟩

def numberText (x : Float) : String :=
  match Decimal.shortest? numbers x with
  | some l => String.ofList l.text
  | none => Decimal.fixed 0 x

def fieldsText (fields : List (String × String)) : String :=
  "\x7b " ++ ", ".intercalate (fields.map fun (name, value) => s!"{name}: {value}") ++ " \x7d"

def cursorText (c : Cursor) : String :=
  "Cursor " ++ fieldsText [
    ("x", toString c.x),
    ("y", toString c.y),
    ("pen_down", toString c.penDown),
    ("color", joined c.color.name),
    ("tool", joined c.tool.name)]

def description (c : Canvas) : String :=
  "CanvasModel " ++ fieldsText [
    ("width", toString c.width),
    ("height", toString c.height),
    ("cursor", cursorText c.cursor),
    ("scale", numberText c.scale)]

end Atelier.Canvas
