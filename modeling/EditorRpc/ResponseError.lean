import EditorRpc.Wire.Record

/-!
Errors as they are answered to a request.
-/

set_option autoImplicit false
set_option relaxedAutoImplicit false

namespace EditorRpc

/-- The error of a response: a code, a description, and data if there is more to say. -/
structure ResponseError where
  code : Int32
  message : String
  data : Option Json
deriving DecidableEq

namespace ResponseError

inductive Code
  | parseError | invalidRequest | methodNotFound | invalidParams | internalError
  | serverNotInitialized | unknown | contentModified | requestCancelled
deriving DecidableEq, Repr

def Code.number : Code → Int32
  | .parseError => -32700
  | .invalidRequest => -32600
  | .methodNotFound => -32601
  | .invalidParams => -32602
  | .internalError => -32603
  | .serverNotInitialized => -32002
  | .unknown => -32001
  | .contentModified => -32801
  | .requestCancelled => -32800

def ofCode (code : Code) (message : String) : ResponseError :=
  ⟨code.number, message, none⟩

def display (e : ResponseError) : String :=
  "Error " ++ String.ofList (Json.integerChars e.code.toInt) ++ ": " ++ e.message

def fields : Record ResponseError :=
  ((((Record.of ResponseError.mk).field (.required Int32 "code")).field
    (.required String "message")).field ((Field.optional Json "data").orElse none))

end ResponseError

instance : Wire ResponseError where
  draft e := .record (Draft.member "code" (Wire.draft e.code)
    ++ Draft.member "message" (Wire.draft e.message)
    ++ Draft.given "data" (e.data.map Wire.draft))
  decode := ResponseError.fields.decode "ResponseError"

end EditorRpc
