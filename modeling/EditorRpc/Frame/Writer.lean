import EditorRpc.Frame.Header
import EditorRpc.Stream.Sink
import EditorRpc.Wire.Basic

/-!
Writing frames.
-/

set_option autoImplicit false
set_option relaxedAutoImplicit false

namespace EditorRpc.Frame

def lineEnd : List Char :=
  ['\r', '\n']

def headerBlock (length : Nat) : List Char :=
  lengthName ++ [':', ' '] ++ Nat.toDigits 10 length ++ lineEnd ++ lineEnd

def encode (body : Bytes) : Bytes :=
  Utf8.encode (headerBlock body.length) ++ body

def write (sink : Sink) (body : Bytes) : Except Failure Unit × Sink :=
  sink.write (encode body)

/-- The body of a message: its compact text. -/
def bodyOf {α : Type} [Wire α] (message : α) : Bytes :=
  (written message).octets

def writeMessage {α : Type} [Wire α] (sink : Sink) (message : α) : Except Failure Unit × Sink :=
  write sink (bodyOf message)

end EditorRpc.Frame
