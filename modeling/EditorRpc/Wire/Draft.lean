import EditorRpc.Json.Printer
import EditorRpc.Keyed

/-!
Values on their way out. A draft keeps the members of a record in the order in which its type declares
them, and carries free documents as they are. Written to a peer it keeps that order; as a document
its members are in order of their names.
-/

set_option autoImplicit false
set_option relaxedAutoImplicit false

namespace EditorRpc

/-- A value on its way out: a finished document, a list, or the members of a record. -/
inductive Draft
  | document (j : Json)
  | list (items : List Draft)
  | record (fields : List (String × Draft))

namespace Draft

mutual

/-- The document of a draft, the members of each record arranged by `arrange`. -/
def build (arrange : List (String × Json) → List (String × Json)) : Draft → Json
  | .document j => j
  | .list items => .arr (buildItems arrange items)
  | .record fields => .obj (arrange (buildFields arrange fields))

def buildItems (arrange : List (String × Json) → List (String × Json)) : List Draft → List Json
  | [] => []
  | d :: rest => build arrange d :: buildItems arrange rest

def buildFields (arrange : List (String × Json) → List (String × Json)) :
    List (String × Draft) → List (String × Json)
  | [] => []
  | (name, d) :: rest => (name, build arrange d) :: buildFields arrange rest

end

/-- The document of a draft, records in order of their names. -/
def toJson (d : Draft) : Json :=
  d.build Keyed.sorted

/-- The document of a draft as it is written, records in the order in which they were declared. -/
def written (d : Draft) : Json :=
  d.build id

def member (name : String) (d : Draft) : List (String × Draft) :=
  [(name, d)]

/-- A member that is left out if there is nothing to write. -/
def given (name : String) : Option Draft → List (String × Draft)
  | none => []
  | some d => [(name, d)]

end Draft

end EditorRpc
