import EditorRpc.CodeLens
import EditorRpc.Handshake
import EditorRpc.Params

/-!
The methods that have a typed message, and messages from a peer, decoded by the method under which they
were sent.
-/

set_option autoImplicit false
set_option relaxedAutoImplicit false

namespace EditorRpc

inductive Method
  | cancelRequest | beginSession | initialized | documentSymbol | codeLens | codeLensResolve
  | workspaceSymbol
deriving DecidableEq, Repr

namespace Method

def all : List Method :=
  [.cancelRequest, .beginSession, .initialized, .documentSymbol, .codeLens, .codeLensResolve,
    .workspaceSymbol]

def name : Method → String
  | .cancelRequest => "$/cancelRequest"
  | .beginSession => "initialize"
  | .initialized => "initialized"
  | .documentSymbol => "textDocument/documentSymbol"
  | .codeLens => "textDocument/codeLens"
  | .codeLensResolve => "codeLens/resolve"
  | .workspaceSymbol => "workspace/symbol"

def isNotification : Method → Bool
  | .cancelRequest | .initialized => true
  | _ => false

def ofName? (name : String) : Option Method :=
  all.find? (·.name == name)

/-- What is said of a name that is no method. -/
def unsupported (name : String) : String :=
  "unsupported method: " ++ name

end Method

structure Request (α : Type) where
  id : RequestId
  params : α
deriving DecidableEq

def Request.fields (α : Type) [Wire α] : Record (Request α) :=
  (((Record.of Request.mk).field (.required RequestId "id")).field (.required α "params"))

instance {α : Type} [Wire α] : Wire (Request α) where
  draft r := .record (Draft.member "id" (Wire.draft r.id)
    ++ Draft.member "params" (Wire.draft r.params))
  decode := (Request.fields α).decode "Request"

inductive Incoming
  | cancelRequest (params : CancelParams)
  | beginSession (request : Request InitializeParams)
  | initialized
  | documentSymbol (request : Request DocumentSymbolParams)
  | codeLens (request : Request CodeLensParams)
  | codeLensResolve (request : Request CodeLens)
  | workspaceSymbol (request : Request WorkspaceSymbolParams)
deriving DecidableEq

namespace Incoming

def method : Incoming → Method
  | .cancelRequest _ => .cancelRequest
  | .beginSession _ => .beginSession
  | .initialized => .initialized
  | .documentSymbol _ => .documentSymbol
  | .codeLens _ => .codeLens
  | .codeLensResolve _ => .codeLensResolve
  | .workspaceSymbol _ => .workspaceSymbol

def id? : Incoming → Option RequestId
  | .beginSession r => some r.id
  | .documentSymbol r => some r.id
  | .codeLens r => some r.id
  | .codeLensResolve r => some r.id
  | .workspaceSymbol r => some r.id
  | .cancelRequest _ | .initialized => none

def isNotification (m : Incoming) : Bool :=
  m.method.isNotification

def isRequest (m : Incoming) : Bool :=
  !m.isNotification

/-- What a message carries: the request, or the parameters of a cancellation. -/
def payload? : Incoming → Option Draft
  | .cancelRequest p => some (Wire.draft p)
  | .beginSession r => some (Wire.draft r)
  | .initialized => none
  | .documentSymbol r => some (Wire.draft r)
  | .codeLens r => some (Wire.draft r)
  | .codeLensResolve r => some (Wire.draft r)
  | .workspaceSymbol r => some (Wire.draft r)

end Incoming

/-- The message of a document that was sent under the method. A cancellation is in its parameters, a
request is the whole document, and nothing is read of the document that ends the handshake. -/
def Method.decode : Method → Json → Except Mismatch Incoming
  | .cancelRequest, j => (EditorRpc.decodeMember CancelParams j "params").map .cancelRequest
  | .beginSession, j => (EditorRpc.decode (Request InitializeParams) j).map .beginSession
  | .initialized, _ => .ok .initialized
  | .documentSymbol, j => (EditorRpc.decode (Request DocumentSymbolParams) j).map .documentSymbol
  | .codeLens, j => (EditorRpc.decode (Request CodeLensParams) j).map .codeLens
  | .codeLensResolve, j => (EditorRpc.decode (Request CodeLens) j).map .codeLensResolve
  | .workspaceSymbol, j => (EditorRpc.decode (Request WorkspaceSymbolParams) j).map .workspaceSymbol

end EditorRpc
