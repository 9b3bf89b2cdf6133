/-!
The ambient listener. There is no device behind it; while it is switched on, the samples that it is
given are counted and dropped.
-/

namespace Atelier

structure Listener where
  enabled : Bool
  heard : Nat
deriving DecidableEq

namespace Listener

def off : Listener := ⟨false, 0⟩

def toggle (l : Listener) : Listener :=
  { l with enabled := !l.enabled }

def hear (l : Listener) (samples : Nat) : Listener :=
  if l.enabled then { l with heard := l.heard + samples } else l

def status (l : Listener) : String :=
  if l.enabled then s!"hearing armed, no input device ({l.heard} samples)" else "hearing off"

end Listener

end Atelier
