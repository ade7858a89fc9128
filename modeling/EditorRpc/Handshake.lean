import EditorRpc.DocumentUri
import EditorRpc.Wire.Record

/-!
What a client says about itself when a session begins, and how much it wants to be told about the work
of the server.
-/

set_option autoImplicit false
set_option relaxedAutoImplicit false

namespace EditorRpc

inductive TraceLevel
  | off | messages | verbose
deriving DecidableEq, Repr

namespace TraceLevel

instance : Inhabited TraceLevel := ⟨.off⟩

def name : TraceLevel → String
  | .off => "off"
  | .messages => "messages"
  | .verbose => "verbose"

def ofName? (name : String) : Option TraceLevel :=
  [TraceLevel.off, .messages, .verbose].find? (·.name == name)

/-- The level after a setting arrives. One that is not known changes nothing. -/
def update (level : TraceLevel) (setting : String) : TraceLevel :=
  (ofName? setting).getD level

end TraceLevel

/-- A setting that is not known decodes like none. -/
instance : Wire TraceLevel where
  draft level := Wire.draft level.name
  decode j := (Wire.decode j).map fun setting : String => (default : TraceLevel).update setting

structure ClientInfo where
  name : String
  version : Option String
deriving DecidableEq

def ClientInfo.fields : Record ClientInfo :=
  (((Record.of ClientInfo.mk).field (.required String "name")).field
    ((Field.optional String "version").orElse none))

instance : Wire ClientInfo where
  draft c := .record (Draft.member "name" (Wire.draft c.name)
    ++ Draft.given "version" (c.version.map Wire.draft))
  decode := ClientInfo.fields.decode "ClientInfo"

/-- The parameters with which a session begins. The capabilities are kept as they were sent. -/
structure InitializeParams where
  processId : Option UInt32
  clientInfo : Option ClientInfo
  rootPath : Option String
  rootUri : Option DocumentUri
  initializationOptions : Option Json
  capabilities : Json
  trace : Option TraceLevel
deriving DecidableEq

namespace InitializeParams

def fields : Record InitializeParams :=
  ((((((((Record.of InitializeParams.mk).field
    ((Field.optional UInt32 "processId").orElse none)).field
    ((Field.optional ClientInfo "clientInfo").orElse none)).field
    ((Field.optional String "rootPath").orElse none)).field
    ((Field.optional DocumentUri "rootUri").orElse none)).field
    ((Field.optional Json "initializationOptions").orElse none)).field
    ((Field.required Json "capabilities").orElse .null)).field
    ((Field.optional TraceLevel "trace").orElse none))

def traceLevel (p : InitializeParams) : TraceLevel :=
  p.trace.getD default

/-- The path of the root of the workspace; the URI counts before the older plain path. -/
def rootDirectory (p : InitializeParams) : Option String :=
  (p.rootUri.map DocumentUri.path).or p.rootPath

end InitializeParams

instance : Wire InitializeParams where
  draft p := .record (Draft.member "processId" (Wire.draft p.processId)
    ++ Draft.given "clientInfo" (p.clientInfo.map Wire.draft)
    ++ Draft.given "rootPath" (p.rootPath.map Wire.draft)
    ++ Draft.member "rootUri" (Wire.draft p.rootUri)
    ++ Draft.given "initializationOptions" (p.initializationOptions.map Wire.draft)
    ++ Draft.member "capabilities" (Wire.draft p.capabilities)
    ++ Draft.given "trace" (p.trace.map Wire.draft))
  decode := InitializeParams.fields.decode "InitializeParams"

end EditorRpc
