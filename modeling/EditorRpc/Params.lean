import EditorRpc.DocumentUri
import EditorRpc.RequestId
import EditorRpc.Wire.Record

/-!
The parameters of the simple requests and of a cancellation.
-/

set_option autoImplicit false
set_option relaxedAutoImplicit false

namespace EditorRpc

structure TextDocumentIdentifier where
  uri : DocumentUri
deriving DecidableEq

def TextDocumentIdentifier.fields : Record TextDocumentIdentifier :=
  (Record.of TextDocumentIdentifier.mk).field (.required DocumentUri "uri")

instance : Wire TextDocumentIdentifier where
  draft d := .record (Draft.member "uri" (Wire.draft d.uri))
  decode := TextDocumentIdentifier.fields.decode "TextDocumentIdentifier"

structure DocumentSymbolParams where
  textDocument : TextDocumentIdentifier
deriving DecidableEq

def DocumentSymbolParams.fields : Record DocumentSymbolParams :=
  (Record.of DocumentSymbolParams.mk).field (.required TextDocumentIdentifier "textDocument")

instance : Wire DocumentSymbolParams where
  draft p := .record (Draft.member "textDocument" (Wire.draft p.textDocument))
  decode := DocumentSymbolParams.fields.decode "DocumentSymbolParams"

structure CodeLensParams where
  textDocument : TextDocumentIdentifier
deriving DecidableEq

def CodeLensParams.fields : Record CodeLensParams :=
  (Record.of CodeLensParams.mk).field (.required TextDocumentIdentifier "textDocument")

instance : Wire CodeLensParams where
  draft p := .record (Draft.member "textDocument" (Wire.draft p.textDocument))
  decode := CodeLensParams.fields.decode "CodeLensParams"

/-- Ask for the symbols of the whole workspace that fit a query. The empty query fits all. -/
structure WorkspaceSymbolParams where
  query : String
deriving DecidableEq

def WorkspaceSymbolParams.fields : Record WorkspaceSymbolParams :=
  (Record.of WorkspaceSymbolParams.mk).field (.required String "query")

instance : Wire WorkspaceSymbolParams where
  draft p := .record (Draft.member "query" (Wire.draft p.query))
  decode := WorkspaceSymbolParams.fields.decode "WorkspaceSymbolParams"

structure CancelParams where
  id : RequestId
deriving DecidableEq

def CancelParams.fields : Record CancelParams :=
  (Record.of CancelParams.mk).field (.required RequestId "id")

instance : Wire CancelParams where
  draft p := .record (Draft.member "id" (Wire.draft p.id))
  decode := CancelParams.fields.decode "CancelParams"

end EditorRpc
