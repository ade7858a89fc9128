import EditorRpc.RequestId
import EditorRpc.ResponseError

/-!
Messages to a peer: responses to its requests, and notifications.
-/

set_option autoImplicit false
set_option relaxedAutoImplicit false

namespace EditorRpc

def protocolVersion : String := "2.0"

/-- The answer to a request: a result or an error. The identifier is missing if the request had none
that could be read. -/
structure Response (α : Type) where
  version : String
  id : Option RequestId
  result : Option α
  error : Option ResponseError
deriving DecidableEq

namespace Response

variable {α : Type}

def success (id : RequestId) (result : α) : Response α :=
  ⟨protocolVersion, some id, some result, none⟩

def failure (id : Option RequestId) (error : ResponseError) : Response α :=
  ⟨protocolVersion, id, none, some error⟩

def isError (r : Response α) : Bool :=
  r.error.isSome

def fields (α : Type) [Wire α] : Record (Response α) :=
  (((((Record.of Response.mk).field (.required String "jsonrpc")).field
    (.optional RequestId "id")).field (.optional α "result")).field
    (.optional ResponseError "error"))

end Response

instance {α : Type} [Wire α] : Wire (Response α) where
  draft r := .record (Draft.member "jsonrpc" (Wire.draft r.version)
    ++ Draft.member "id" (Wire.draft r.id)
    ++ Draft.given "result" (r.result.map Wire.draft)
    ++ Draft.given "error" (r.error.map Wire.draft))
  decode := (Response.fields α).decode "ResponseMessage"

structure Notification (α : Type) where
  version : String
  method : String
  params : Option α
deriving DecidableEq

namespace Notification

variable {α : Type}

def of (method : String) (params : Option α) : Notification α :=
  ⟨protocolVersion, method, params⟩

def fields (α : Type) [Wire α] : Record (Notification α) :=
  ((((Record.of Notification.mk).field (.required String "jsonrpc")).field
    (.required String "method")).field (.optional α "params"))

end Notification

instance {α : Type} [Wire α] : Wire (Notification α) where
  draft n := .record (Draft.member "jsonrpc" (Wire.draft n.version)
    ++ Draft.member "method" (Wire.draft n.method)
    ++ Draft.given "params" (n.params.map Wire.draft))
  decode := (Notification.fields α).decode "NotificationMessage"

end EditorRpc
