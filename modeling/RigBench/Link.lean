/-!
Whether a client is connected, as the server notes it and the control loop reads it.
-/
namespace RigBench

structure LinkState where
  connected : Bool := false
  sessions : Nat := 0
  deriving DecidableEq, Inhabited

namespace LinkState

def connect (l : LinkState) : LinkState := ⟨true, l.sessions + 1⟩

def disconnect (l : LinkState) : LinkState := { l with connected := false }

end LinkState
end RigBench
