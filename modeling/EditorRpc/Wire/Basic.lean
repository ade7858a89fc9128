import EditorRpc.Wire.Draft
import EditorRpc.Wire.Mismatch

/-!
Wire types: those whose values can be drafted for a peer and decoded from a document. The instances
here are free documents, strings, words, values that may be missing, and lists.
-/

set_option autoImplicit false
set_option relaxedAutoImplicit false

namespace EditorRpc

/-- A type whose values travel as documents. -/
class Wire (α : Type) where
  draft : α → Draft
  decode : Json → Except Mismatch α

def encode {α : Type} [Wire α] (x : α) : Json :=
  (Wire.draft x).toJson

/-- The document of a value as it is written to a peer. -/
def written {α : Type} [Wire α] (x : α) : Json :=
  (Wire.draft x).written

def decode (α : Type) [Wire α] (document : Json) : Except Mismatch α :=
  Wire.decode document

/-- The value of a member. A member that is not there reads as null. -/
def decodeMember (α : Type) [Wire α] (document : Json) (name : String) : Except Mismatch α :=
  Wire.decode ((document.member? name).getD .null)

instance : Wire Json where
  draft := .document
  decode := .ok

instance : Wire String where
  draft s := .document (.str s)
  decode
    | .str s => .ok s
    | j => .error (.kind j .string)

instance : Wire UInt8 where
  draft n := .document (.int ⟨n.toNat, by omega, by have := n.toNat_lt; omega⟩)
  decode
    | .int n =>
      if 0 ≤ n.value ∧ n.value < 256 then .ok (UInt8.ofNat n.value.toNat)
      else .error (.range n.value (.unsigned 8))
    | j => .error (.kind j (.unsigned 8))

instance : Wire UInt32 where
  draft n := .document (.int ⟨n.toNat, by omega, by have := n.toNat_lt; omega⟩)
  decode
    | .int n =>
      if 0 ≤ n.value ∧ n.value < 4294967296 then .ok (UInt32.ofNat n.value.toNat)
      else .error (.range n.value (.unsigned 32))
    | j => .error (.kind j (.unsigned 32))

instance : Wire Int32 where
  draft n := .document (.int ⟨n.toInt, by have := n.le_toInt; omega, by have := n.toInt_lt; omega⟩)
  decode
    | .int n =>
      if -2147483648 ≤ n.value ∧ n.value < 2147483648 then .ok (Int32.ofInt n.value)
      else .error (.range n.value (.signed 32))
    | j => .error (.kind j (.signed 32))

/-- A value that may be missing, which a null says. -/
instance {α : Type} [Wire α] : Wire (Option α) where
  draft
    | some x => Wire.draft x
    | none => .document .null
  decode
    | .null => .ok none
    | j => (Wire.decode j).map some

/-- The values of the elements of a list, up to the first that has none. -/
def decodeAll {α : Type} (read : Json → Except Mismatch α) : List Json → Except Mismatch (List α)
  | [] => .ok []
  | x :: xs => do
    let a ← read x
    let as ← decodeAll read xs
    return a :: as

instance {α : Type} [Wire α] : Wire (List α) where
  draft xs := .list (xs.map Wire.draft)
  decode
    | .arr xs => decodeAll Wire.decode xs
    | j => .error (.kind j .sequence)

end EditorRpc
