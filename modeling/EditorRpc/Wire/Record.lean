import EditorRpc.Wire.Basic

/-!
Records: values made of named fields. A record is decoded from an object, whose members are looked at
in order of their names, or from an array of its fields in the order in which they are declared. In
an object the first value that does not decode is the fault, and only if all decode the first
declared field that is missing.
-/

set_option autoImplicit false
set_option relaxedAutoImplicit false

namespace EditorRpc

/-- A field of a record: its name, how its value is decoded, and what stands in for it. -/
structure Field (α : Type) where
  name : String
  decode : Json → Except Mismatch α
  /-- Stands in for a member that an object lacks. -/
  absent : Option α
  /-- Stands in for an element beyond the end of an array. -/
  unreached : Option α

namespace Field

variable {α : Type}

def required (α : Type) [Wire α] (name : String) : Field α :=
  ⟨name, Wire.decode, none, none⟩

/-- A field that may be missing, said by a null or by an object that lacks it. -/
def optional (α : Type) [Wire α] (name : String) : Field (Option α) :=
  { required (Option α) name with absent := some none }

def orElse (f : Field α) (value : α) : Field α :=
  { f with absent := some value, unreached := some value }

def find (f : Field α) (members : List (String × Json)) : Except Mismatch (Option α) :=
  match members.lookup f.name with
  | none => .ok none
  | some j => (f.decode j).map some

def settle (f : Field α) : Option α → Except Mismatch α
  | some a => .ok a
  | none =>
    match f.absent with
    | some a => .ok a
    | none => .error (.missing f.name)

/-- The value of the field at a place in an array; `short` is the fault of an array that ends before. -/
def atPlace (f : Field α) (short : Mismatch) (place : Nat) (elements : List Json) :
    Except Mismatch α :=
  match elements[place]? with
  | some j => f.decode j
  | none =>
    match f.unreached with
    | some a => .ok a
    | none => .error short

end Field

/-- What the members of an object say about a record: the fields whose values do not decode, and the
value if there are none. -/
structure Scan (α : Type) where
  faults : List (String × Mismatch)
  result : Except Mismatch α

structure Record (α : Type) where
  size : Nat
  scan : List (String × Json) → Scan α
  /-- The fields taken from an array; the first argument is the fault of one that is too short. -/
  walk : Mismatch → List Json → Except Mismatch α

namespace Record

variable {α β : Type}

def of (a : α) : Record α where
  size := 0
  scan _ := ⟨[], .ok a⟩
  walk _ _ := .ok a

def field (r : Record (α → β)) (f : Field α) : Record β where
  size := r.size + 1
  scan members :=
    let before := r.scan members
    match f.find members with
    | .error fault => ⟨(f.name, fault) :: before.faults, .error fault⟩
    | .ok found =>
      ⟨before.faults, do
        let make ← before.result
        let a ← f.settle found
        return make a⟩
  walk short elements := do
    let make ← r.walk short elements
    let a ← f.atPlace short r.size elements
    return make a

def ofMembers (r : Record α) (members : List (String × Json)) : Except Mismatch α :=
  let seen := r.scan members
  match Keyed.sorted seen.faults with
  | [] => seen.result
  | (_, fault) :: _ => .error fault

def ofElements (r : Record α) (expected : Expected) (elements : List Json) :
    Except Mismatch α := do
  let a ← r.walk (.tooShort elements.length expected r.size) elements
  if r.size < elements.length then throw (.tooLong elements.length)
  return a

/-- The record of a document, which is called by its name when the document is neither an object nor
an array. -/
def decode (r : Record α) (name : String) : Json → Except Mismatch α
  | .obj members => r.ofMembers members
  | .arr elements => r.ofElements (.record name) elements
  | j => .error (.kind j (.record name))

end Record

end EditorRpc
