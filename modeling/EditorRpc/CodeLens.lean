import EditorRpc.Location

/-!
Code lenses: commands that are shown within the text of a document. The arguments of the command that
shows references travel as an array of three.
-/

set_option autoImplicit false
set_option relaxedAutoImplicit false

namespace EditorRpc

/-- Where a symbol is, and where it is referred to. -/
structure CommandArguments where
  uri : DocumentUri
  position : Position
  locations : List Location
deriving DecidableEq

def CommandArguments.fields : Record CommandArguments :=
  ((((Record.of CommandArguments.mk).field (.required DocumentUri "uri")).field
    (.required Position "position")).field (.required (List Location) "locations"))

instance : Wire CommandArguments where
  draft a := .list [Wire.draft a.uri, Wire.draft a.position, Wire.draft a.locations]
  decode
    | .arr elements => CommandArguments.fields.ofElements .argumentTriple elements
    | j => .error (.kind j .argumentTriple)

structure Command (α : Type) where
  title : String
  command : String
  arguments : Option α
deriving DecidableEq

def Command.fields (α : Type) [Wire α] : Record (Command α) :=
  ((((Record.of Command.mk).field (.required String "title")).field
    (.required String "command")).field (.optional α "arguments"))

instance {α : Type} [Wire α] : Wire (Command α) where
  draft c := .record (Draft.member "title" (Wire.draft c.title)
    ++ Draft.member "command" (Wire.draft c.command)
    ++ Draft.given "arguments" (c.arguments.map Wire.draft))
  decode := (Command.fields α).decode "Command"

/-- A place in a document with a command, which may have to be resolved from the data first. -/
structure CodeLens where
  range : Range
  command : Option (Command CommandArguments)
  data : Option Json
deriving DecidableEq

def CodeLens.fields : Record CodeLens :=
  ((((Record.of CodeLens.mk).field (.required Range "range")).field
    ((Field.optional (Command CommandArguments) "command").orElse none)).field
    ((Field.optional Json "data").orElse none))

instance : Wire CodeLens where
  draft l := .record (Draft.member "range" (Wire.draft l.range)
    ++ Draft.given "command" (l.command.map Wire.draft)
    ++ Draft.given "data" (l.data.map Wire.draft))
  decode := CodeLens.fields.decode "CodeLens"

end EditorRpc
