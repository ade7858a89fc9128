import EditorRpc.Wire.Basic

/-!
Identifiers of requests. A number and a string of the same look are different identifiers.
-/

set_option autoImplicit false
set_option relaxedAutoImplicit false

namespace EditorRpc

/-- The identifier of a request, echoed in its response. -/
inductive RequestId
  | number (n : Int64)
  | text (s : String)
deriving DecidableEq

namespace RequestId

def display : RequestId → String
  | .number n => String.ofList (Json.integerChars n.toInt)
  | .text s => s

def toJson : RequestId → Json
  | .number n => .int ⟨n.toInt, n.le_toInt, by have := n.toInt_lt; omega⟩
  | .text s => .str s

/-- The identifier of a node: a signed word or a string. -/
def ofJson : Json → Except Mismatch RequestId
  | .int n =>
    if n.value < 9223372036854775808 then .ok (.number (Int64.ofInt n.value)) else .error (.idRange n.value)
  | .str s => .ok (.text s)
  | j => .error (.kind j .requestId)

end RequestId

instance : Wire RequestId where
  draft id := .document id.toJson
  decode := RequestId.ofJson

end EditorRpc
