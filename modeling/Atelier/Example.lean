/-!
Example codes, which show the model how a code is written.
-/

namespace Atelier

structure Example where
  name : String
  code : String
  note : String
deriving DecidableEq

namespace Example

def all : List Example := [
  ⟨"rainbow_line", "red53333orange53333yellow53333green53333blue53333purple53333",
    "Draws a horizontal rainbow stripe."⟩,
  ⟨"star_burst", "white5003332211100332211", "Creates a star pattern from center."⟩,
  ⟨"color_wave", "blue533311122200cyan533311122200green533311122200",
    "Makes a flowing wave in cool colors."⟩,
  ⟨"spiral_out", "533330000222211113333000022221111", "Draws an expanding square spiral."⟩,
  ⟨"music_rainbow", "red5333!@#orange5333$%^yellow5333&*",
    "Combines colors with ascending tones."⟩,
  ⟨"dotted_trail", "53422534225342253422", "Leaves a dotted line as you move."⟩,
  ⟨"zigzag_melody", "5313!313@313#313$", "Draws a zigzag while playing notes."⟩,
  ⟨"brush_demo", "brush5333333pen511111large_brush522222",
    "Shows different brush sizes in action."⟩,
  ⟨"stamp_parade", "star53333cross53333circle53333diamond53333flower5",
    "Places different stamps in a row."⟩]

def text (e : Example) : String :=
  s!"--- {e.name.toUpper} ---\n{e.code}\n{e.note}"

/-- All examples, one after the other. -/
def guide : String :=
  "\n\n".intercalate (all.map text)

end Example

end Atelier
