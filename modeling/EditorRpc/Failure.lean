import EditorRpc.FileUrl
import EditorRpc.Json.Parser
import EditorRpc.ResponseError

/-!
What can fail between a stream of bytes and a typed message. A failure is fatal if the boundaries
between messages can no longer be trusted after it.
-/

set_option autoImplicit false
set_option relaxedAutoImplicit false

namespace EditorRpc

inductive IoKind
  | unexpectedEof | connectionReset | brokenPipe | other
deriving DecidableEq, Repr

structure IoFault where
  kind : IoKind
  text : String
deriving DecidableEq

def IoFault.endOfStream : IoFault :=
  ⟨.unexpectedEof, "unexpected end of file"⟩

inductive DocumentFault
  | malformed (e : Json.SyntaxError)
  | mismatch (m : Mismatch)
deriving DecidableEq

def DocumentFault.message : DocumentFault → String
  | .malformed e => e.message
  | .mismatch m => m.message

/-- Where in a frame a stream ended. -/
inductive Truncation
  | inHeader (completeLines : Nat)
  | inBody (expected received : Nat)
  | described (words : String)
deriving DecidableEq, Repr

def Truncation.message : Truncation → String
  | .inHeader completeLines =>
    "stream ended after " ++ Nat.repr completeLines ++ " complete header line(s)"
  | .inBody expected received =>
    "expected " ++ Nat.repr expected ++ " body bytes, got " ++ Nat.repr received
  | .described words => words

inductive Failure
  | io (fault : IoFault)
  | document (fault : DocumentFault)
  /-- A message names another version of the protocol, or none. -/
  | versionMismatch (found : Option Json)
  | headerOverflow (limit : Nat)
  | headerLineTooLong (limit : Nat)
  | contentTooLarge (value : String) (limit : Nat)
  | truncatedFrame (where? : Truncation)
  | malformedBody (e : Json.SyntaxError)
  | invalidUri (fault : UrlFault)
  | protocol (e : ResponseError)
  /-- The reader in the background is gone. -/
  | connection (reason : String)
deriving DecidableEq

namespace Failure

def describeVersion : Option Json → String
  | none => "nothing"
  | some (.str s) => s
  | some j => j.render ++ " (" ++ j.kind.name ++ ")"

def message : Failure → String
  | .io fault => "IO error: " ++ fault.text
  | .document fault => "JSON error: " ++ fault.message
  | .versionMismatch found => "unsupported JSON-RPC version: " ++ describeVersion found
  | .headerOverflow limit =>
    "header block not terminated within " ++ Nat.repr limit ++ " lines"
  | .headerLineTooLong limit => "header line longer than " ++ Nat.repr limit ++ " bytes"
  | .contentTooLarge value limit =>
    "Content-Length " ++ value ++ " exceeds the limit of " ++ Nat.repr limit ++ " bytes"
  | .truncatedFrame where? => "stream ended inside a frame: " ++ where?.message
  | .malformedBody e => "malformed message body: " ++ e.message
  | .invalidUri fault => "invalid URI: " ++ fault.message
  | .protocol e => "LSP protocol error: " ++ e.display
  | .connection reason => "Connection error: " ++ reason

/-- The stream cannot be trusted any more. Faults of a single document, of a URI or of the protocol
leave the frames around it intact. -/
def isFatal : Failure → Bool
  | .document _ | .invalidUri _ | .protocol _ => false
  | _ => true

/-- The peer closed the stream between two frames. -/
def isEof : Failure → Bool
  | .io fault => fault.kind = .unexpectedEof
  | _ => false

end Failure

def decodeDocument (α : Type) [Wire α] (document : Json) : Except Failure α :=
  (decode α document).mapError fun m => .document (.mismatch m)

def decodeDocumentMember (α : Type) [Wire α] (document : Json) (name : String) :
    Except Failure α :=
  (decodeMember α document name).mapError fun m => .document (.mismatch m)

def documentOfText (text : String) : Except Failure Json :=
  (Json.ofString text).mapError fun e => .document (.malformed e)

end EditorRpc
