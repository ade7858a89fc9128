/-!
JSON documents: the type, its decidable equality, the kind of a node and access to members.
-/

set_option autoImplicit false
set_option relaxedAutoImplicit false

namespace EditorRpc

/-- An integer that a document can hold: any signed or unsigned word of 64 bits. -/
structure WideInt where
  value : Int
  lower : -9223372036854775808 ≤ value
  upper : value < 18446744073709551616
deriving DecidableEq

/-- A JSON document. Documents that were read have their members in ascending order of the names. -/
inductive Json
  | null
  | bool (b : Bool)
  | int (n : WideInt)
  | float (x : Float)
  | str (s : String)
  | arr (xs : List Json)
  | obj (members : List (String × Json))

namespace Json

instance : Inhabited Json := ⟨.null⟩

mutual

private def same : Json → Json → Bool
  | .null, .null => true
  | .bool a, .bool b => a = b
  | .int a, .int b => a = b
  | .float a, .float b => a = b
  | .str a, .str b => a = b
  | .arr a, .arr b => sameElements a b
  | .obj a, .obj b => sameMembers a b
  | _, _ => false

private def sameElements : List Json → List Json → Bool
  | [], [] => true
  | a :: as, b :: bs => same a b && sameElements as bs
  | _, _ => false

private def sameMembers : List (String × Json) → List (String × Json) → Bool
  | [], [] => true
  | (k, a) :: as, (l, b) :: bs => k = l && (same a b && sameMembers as bs)
  | _, _ => false

end

mutual

private theorem eq_of_same (a b : Json) (h : same a b = true) : a = b := by
  cases a with
  | arr a =>
    cases b with
    | arr b => exact congrArg Json.arr (eq_of_sameElements a b (by simpa [same] using h))
    | _ => simp [same] at h
  | obj a =>
    cases b with
    | obj b => exact congrArg Json.obj (eq_of_sameMembers a b (by simpa [same] using h))
    | _ => simp [same] at h
  | _ => cases b <;> simp_all [same]

private theorem eq_of_sameElements : ∀ a b : List Json, sameElements a b = true → a = b
  | [], [], _ => rfl
  | a :: as, b :: bs, h => by
    simp only [sameElements, Bool.and_eq_true] at h
    rw [eq_of_same a b h.1, eq_of_sameElements as bs h.2]

private theorem eq_of_sameMembers :
    ∀ a b : List (String × Json), sameMembers a b = true → a = b
  | [], [], _ => rfl
  | (k, a) :: as, (l, b) :: bs, h => by
    simp only [sameMembers, Bool.and_eq_true, decide_eq_true_eq] at h
    rw [h.1, eq_of_same a b h.2.1, eq_of_sameMembers as bs h.2.2]

end

mutual

private theorem same_self : ∀ a : Json, same a a = true
  | .arr a => by simpa [same] using sameElements_self a
  | .obj a => by simpa [same] using sameMembers_self a
  | .null | .bool _ | .int _ | .float _ | .str _ => by simp [same]

private theorem sameElements_self : ∀ a : List Json, sameElements a a = true
  | [] => rfl
  | a :: as => by simp [sameElements, same_self a, sameElements_self as]

private theorem sameMembers_self : ∀ a : List (String × Json), sameMembers a a = true
  | [] => rfl
  | (k, a) :: as => by simp [sameMembers, same_self a, sameMembers_self as]

end

instance : DecidableEq Json := fun a b =>
  decidable_of_iff (same a b = true) ⟨eq_of_same a b, fun h => h ▸ same_self a⟩

end Json

inductive NodeKind
  | null | boolean | integer | float | string | array | object
deriving DecidableEq, Repr

def NodeKind.name : NodeKind → String
  | .null => "null"
  | .boolean => "boolean"
  | .integer => "integer"
  | .float => "float"
  | .string => "string"
  | .array => "array"
  | .object => "object"

namespace Json

def kind : Json → NodeKind
  | .null => .null
  | .bool _ => .boolean
  | .int _ => .integer
  | .float _ => .float
  | .str _ => .string
  | .arr _ => .array
  | .obj _ => .object

def member? (document : Json) (name : String) : Option Json :=
  match document with
  | .obj members => members.lookup name
  | _ => none

def string? : Json → Option String
  | .str s => some s
  | _ => none

def stringMember? (document : Json) (name : String) : Option String :=
  (document.member? name).bind string?

end Json

end EditorRpc
