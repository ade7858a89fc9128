import EditorRpc.Outgoing

/-!
Messages for the user of a client: lines of the output log, and messages that pop up.
-/

set_option autoImplicit false
set_option relaxedAutoImplicit false

namespace EditorRpc

inductive MessageKind
  | error | warning | info | log
deriving DecidableEq, Repr

namespace MessageKind

def number : MessageKind → UInt8
  | .error => 1
  | .warning => 2
  | .info => 3
  | .log => 4

def ofNumber? (n : UInt8) : Option MessageKind :=
  [MessageKind.error, .warning, .info, .log].find? (·.number == n)

end MessageKind

instance : Wire MessageKind where
  draft kind := Wire.draft kind.number
  decode j := do
    let n : UInt8 ← Wire.decode j
    match MessageKind.ofNumber? n with
    | some kind => return kind
    | none => throw (.messageKind n.toNat)

structure LogMessageParams where
  kind : MessageKind
  message : String
deriving DecidableEq

def LogMessageParams.fields : Record LogMessageParams :=
  (((Record.of LogMessageParams.mk).field (.required MessageKind "type")).field
    (.required String "message"))

instance : Wire LogMessageParams where
  draft p := .record (Draft.member "type" (Wire.draft p.kind)
    ++ Draft.member "message" (Wire.draft p.message))
  decode := LogMessageParams.fields.decode "LogMessageParams"

/-- Where a message for the user ends up. -/
inductive Display
  | log
  | pop
deriving DecidableEq, Repr

def Display.method : Display → String
  | .log => "window/logMessage"
  | .pop => "window/showMessage"

structure WindowMessage where
  display : Display
  params : LogMessageParams
deriving DecidableEq

def WindowMessage.toNotification (m : WindowMessage) : Notification LogMessageParams :=
  .of m.display.method (some m.params)

end EditorRpc
