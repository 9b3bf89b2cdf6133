import Atelier.Token

/-!
Tones of the sound characters: six to an octave, from 100 hertz on. A pitch moves a tone by an octave.
-/

namespace Atelier

structure Tone where
  /-- Frequency in hertz. -/
  frequency : Float32
  pitch : Option Pitch

namespace Tone

def base : Float32 := 100.0

/-- Position of a sound character in the scale. -/
def position? (c : Char) : Option Nat :=
  Token.soundChars.findIdx? (· == c)

/-- The tone of a sound character. Other characters have none. -/
def ofChar? (c : Char) (pitch : Option Pitch) : Option Tone :=
  (position? c).map fun i =>
    let plain := base * (2.0 : Float32).pow (i.toUInt64.toFloat32 / 6.0)
    match pitch with
    | none => ⟨plain, none⟩
    | some .low => ⟨plain * 0.5, some .low⟩
    | some .high => ⟨plain * 2.0, some .high⟩

end Tone

end Atelier
