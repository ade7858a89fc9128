import EditorRpc.Failure

/-!
Streams that are written. A sink may have room for so many bytes in all; a write that does not fit
stores the part that does and fails.
-/

set_option autoImplicit false
set_option relaxedAutoImplicit false

namespace EditorRpc

/-- A stream that is written: the bytes it took, how many more it takes if there is a bound, and the
fault of a write for which there is no room. -/
structure Sink where
  stored : Bytes
  room : Option Nat
  fault : IoFault
deriving DecidableEq

namespace Sink

def ofRoom (room : Option Nat) (fault : IoFault) : Sink :=
  ⟨[], room, fault⟩

def write (s : Sink) (bytes : Bytes) : Except Failure Unit × Sink :=
  match s.room with
  | none => (.ok (), { s with stored := s.stored ++ bytes })
  | some room =>
    let after := { s with stored := s.stored ++ bytes.take room, room := some (room - bytes.length) }
    (if bytes.length ≤ room then .ok () else .error (.io s.fault), after)

end Sink

end EditorRpc
