import EditorRpc.Failure
import EditorRpc.Incoming
import EditorRpc.Keyed
import EditorRpc.Outgoing

/-!
Decoders under the names of methods. A document is resolved to a typed message by the decoder under
its method. A wrong version is a failure; whatever else keeps a document from being a message drops it.
-/

set_option autoImplicit false
set_option relaxedAutoImplicit false

namespace EditorRpc

abbrev Decoder := Json → Except Failure Incoming

/-- Decoders under names, in order of the names. -/
structure Registry where
  decoders : List (String × Decoder)
  ascending : Keyed.Ascending decoders

namespace Registry

def empty : Registry :=
  ⟨[], List.Pairwise.nil⟩

def find? (r : Registry) (name : String) : Option Decoder :=
  r.decoders.lookup name

/-- Put a decoder under a name. The first component is the decoder that was there. -/
def register (r : Registry) (name : String) (decoder : Decoder) : Option Decoder × Registry :=
  (r.find? name,
    ⟨Keyed.insert name decoder r.decoders, Keyed.ascending_insert name decoder r.ascending⟩)

def decoderOf (method : Method) : Decoder := fun document =>
  (method.decode document).mapError fun m => .document (.mismatch m)

def registerMethod (r : Registry) (method : Method) : Option Decoder × Registry :=
  r.register method.name (decoderOf method)

def defaults : Registry :=
  Method.all.foldl (fun r method => (r.registerMethod method).2) empty

def contains (r : Registry) (name : String) : Bool :=
  (r.find? name).isSome

def size (r : Registry) : Nat :=
  r.decoders.length

def isEmpty (r : Registry) : Bool :=
  r.decoders.isEmpty

def names (r : Registry) : List String :=
  Keyed.names r.decoders

/-- The description of a registry where `hidden` says which characters of a name are not written as they
are. -/
def describeWith (hidden : Char → Bool) (r : Registry) : String :=
  "MessageRegistry \x7b methods: [" ++ ", ".intercalate (r.names.map (Text.quoted hidden)) ++
    "] \x7d"

def describe (r : Registry) : String :=
  r.describeWith Text.isHidden

/-- The message of a document: none if the document is dropped. -/
def dispatch (r : Registry) (document : Json) : Except Failure (Option Incoming) :=
  if document.stringMember? "jsonrpc" = some protocolVersion then
    match (document.stringMember? "method").bind r.find? with
    | none => .ok none
    | some decoder => .ok (decoder document).toOption
  else .error (.versionMismatch (document.member? "jsonrpc"))

end Registry

end EditorRpc
