import EditorRpc.DocumentUri
import EditorRpc.Wire.Record

/-!
Places in documents: positions, ranges between two positions, and ranges of a document.
-/

set_option autoImplicit false
set_option relaxedAutoImplicit false

namespace EditorRpc

/-- A line and a character on it, both counted from zero. -/
structure Position where
  line : UInt32
  character : UInt32
deriving DecidableEq

namespace Position

def start : Position := ⟨0, 0⟩

instance : LT Position :=
  ⟨fun a b => a.line < b.line ∨ (a.line = b.line ∧ a.character < b.character)⟩

instance (a b : Position) : Decidable (a < b) :=
  inferInstanceAs (Decidable (a.line < b.line ∨ (a.line = b.line ∧ a.character < b.character)))

instance : Ord Position := ⟨fun a b => compareOfLessAndEq a b⟩

def fields : Record Position :=
  (((Record.of Position.mk).field (.required UInt32 "line")).field (.required UInt32 "character"))

end Position

instance : Wire Position where
  draft p := .record (Draft.member "line" (Wire.draft p.line)
    ++ Draft.member "character" (Wire.draft p.character))
  decode := Position.fields.decode "Position"

/-- The text from a position up to, but without, another one. -/
structure Range where
  start : Position
  stop : Position
deriving DecidableEq

namespace Range

def atPosition (p : Position) : Range := ⟨p, p⟩

def ofCoordinates (startLine startCharacter stopLine stopCharacter : UInt32) : Range :=
  ⟨⟨startLine, startCharacter⟩, ⟨stopLine, stopCharacter⟩⟩

instance : Inhabited Range := ⟨Range.atPosition Position.start⟩

def contains (r : Range) (p : Position) : Bool :=
  !decide (p < r.start) && decide (p < r.stop)

def isEmpty (r : Range) : Bool :=
  r.start = r.stop

def fields : Record Range :=
  (((Record.of Range.mk).field (.required Position "start")).field (.required Position "end"))

end Range

instance : Wire Range where
  draft r := .record (Draft.member "start" (Wire.draft r.start)
    ++ Draft.member "end" (Wire.draft r.stop))
  decode := Range.fields.decode "Range"

structure Location where
  uri : DocumentUri
  range : Range
deriving DecidableEq

def Location.fields : Record Location :=
  (((Record.of Location.mk).field (.required DocumentUri "uri")).field (.required Range "range"))

instance : Wire Location where
  draft l := .record (Draft.member "uri" (Wire.draft l.uri)
    ++ Draft.member "range" (Wire.draft l.range))
  decode := Location.fields.decode "Location"

end EditorRpc
