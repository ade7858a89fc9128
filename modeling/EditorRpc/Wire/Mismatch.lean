import EditorRpc.Json.Printer
import EditorRpc.Text.CharClass

/-!
Why a document does not decode to a value.
-/

set_option autoImplicit false
set_option relaxedAutoImplicit false

namespace EditorRpc

inductive Expected
  | string
  | unsigned (bits : Nat)
  | signed (bits : Nat)
  | sequence
  | requestId
  | argumentTriple
  | record (name : String)
deriving DecidableEq, Repr

def Expected.describe : Expected → String
  | .string => "a string"
  | .unsigned bits => "u" ++ Nat.repr bits
  | .signed bits => "i" ++ Nat.repr bits
  | .sequence => "a sequence"
  | .requestId => "an integer or a string request id"
  | .argumentTriple => "an array of [uri, position, locations]"
  | .record name => "struct " ++ name

/-- The words for what is asked for, with the number of elements where it is a record. -/
def Expected.describeSized (expected : Expected) (size : Nat) : String :=
  match expected with
  | .record _ =>
    expected.describe ++ " with " ++ Nat.repr size ++ if size = 1 then " element" else " elements"
  | _ => expected.describe

inductive Mismatch
  | kind (found : Json) (expected : Expected)
  | range (found : Int) (expected : Expected)
  | missing (field : String)
  /-- An array of `count` elements ends before the `size` that are needed. -/
  | tooShort (count : Nat) (expected : Expected) (size : Nat)
  | tooLong (count : Nat)
  | idRange (found : Int)
  | messageKind (found : Nat)
deriving DecidableEq

namespace Mismatch

def describeFound : Json → String
  | .null => "null"
  | .bool b => "boolean `" ++ (if b then "true" else "false") ++ "`"
  | .int n => "integer `" ++ String.ofList (Json.integerChars n.value) ++ "`"
  | .float x => "floating point `" ++ String.ofList (Json.floatChars x) ++ "`"
  | .str s => "string " ++ Text.quoted Text.isHidden s
  | .arr _ => "sequence"
  | .obj _ => "map"

def message : Mismatch → String
  | .kind found expected =>
    "invalid type: " ++ describeFound found ++ ", expected " ++ expected.describe
  | .range found expected =>
    "invalid value: integer `" ++ String.ofList (Json.integerChars found) ++ "`, expected "
      ++ expected.describe
  | .missing field => "missing field `" ++ field ++ "`"
  | .tooShort count expected size =>
    "invalid length " ++ Nat.repr count ++ ", expected " ++ expected.describeSized size
  | .tooLong count =>
    "invalid length " ++ Nat.repr count ++ ", expected fewer elements in array"
  | .idRange found =>
    "request id " ++ String.ofList (Json.integerChars found) ++ " is out of range"
  | .messageKind found => "Invalid message type: " ++ Nat.repr found

end Mismatch

end EditorRpc
