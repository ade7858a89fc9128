import EditorRpc.Json.Basic
import EditorRpc.Proofs.Keyed

/-!
What is kept of a document when it is written and read again. Members are sorted, so a document in
order stays as it is; floating point numbers, whose text has only as many digits as tell them apart,
and deep nesting, which is refused, are set aside. Main statement: `Ordered.normal_eq`.
-/

set_option autoImplicit false
set_option relaxedAutoImplicit false

namespace EditorRpc.Json

/-- The numbers in the document are integers, and at most so many brackets are open at once. -/
inductive Plain : (levels : Nat) → Json → Prop
  | null {levels : Nat} : Plain levels .null
  | bool {levels : Nat} (b : Bool) : Plain levels (.bool b)
  | int {levels : Nat} (n : WideInt) : Plain levels (.int n)
  | str {levels : Nat} (s : String) : Plain levels (.str s)
  | arr {levels : Nat} {xs : List Json} : (∀ x ∈ xs, Plain levels x) →
      Plain (levels + 1) (.arr xs)
  | obj {levels : Nat} {members : List (String × Json)} :
      (∀ member ∈ members, Plain levels member.2) → Plain (levels + 1) (.obj members)

/-- The members of every object in the document stand in order of their names, each once. -/
inductive Ordered : Json → Prop
  | null : Ordered .null
  | bool (b : Bool) : Ordered (.bool b)
  | int (n : WideInt) : Ordered (.int n)
  | float (x : Float) : Ordered (.float x)
  | str (s : String) : Ordered (.str s)
  | arr {xs : List Json} : (∀ x ∈ xs, Ordered x) → Ordered (.arr xs)
  | obj {members : List (String × Json)} : Keyed.Ascending members →
      (∀ member ∈ members, Ordered member.2) → Ordered (.obj members)

attribute [simp] Plain.null Plain.bool Plain.int Plain.str
attribute [simp] Ordered.null Ordered.bool Ordered.int Ordered.float Ordered.str

section

variable {levels : Nat} {xs : List Json} {members : List (String × Json)}

@[simp]
theorem plain_arr_iff : Plain (levels + 1) (.arr xs) ↔ ∀ x ∈ xs, Plain levels x := by
  constructor
  · intro h
    cases h with
    | arr each => exact each
  · exact .arr

@[simp]
theorem plain_obj_iff :
    Plain (levels + 1) (.obj members) ↔ ∀ member ∈ members, Plain levels member.2 := by
  constructor
  · intro h
    cases h with
    | obj each => exact each
  · exact .obj

@[simp]
theorem ordered_arr_iff : Ordered (.arr xs) ↔ ∀ x ∈ xs, Ordered x := by
  constructor
  · intro h
    cases h with
    | arr each => exact each
  · exact .arr

@[simp]
theorem ordered_obj_iff :
    Ordered (.obj members) ↔
      Keyed.Ascending members ∧ ∀ member ∈ members, Ordered member.2 := by
  constructor
  · intro h
    cases h with
    | obj ascending each => exact ⟨ascending, each⟩
  · rintro ⟨ascending, each⟩
    exact .obj ascending each

end

mutual

/-- The document with the members of every object in order of their names. Of several under one name
the last stays. -/
def normal : Json → Json
  | .arr xs => .arr (normalElements xs)
  | .obj members => .obj (Keyed.sorted (normalMembers members).reverse)
  | j => j

def normalElements : List Json → List Json
  | [] => []
  | x :: xs => normal x :: normalElements xs

def normalMembers : List (String × Json) → List (String × Json)
  | [] => []
  | (name, x) :: rest => (name, normal x) :: normalMembers rest

end

theorem normalElements_eq_map (xs : List Json) : normalElements xs = xs.map normal := by
  induction xs with
  | nil => rfl
  | cons x xs ih => rw [normalElements, ih, List.map_cons]

theorem normalMembers_eq_map (members : List (String × Json)) :
    normalMembers members = members.map fun member => (member.1, member.2.normal) := by
  induction members with
  | nil => rfl
  | cons member members ih => rw [normalMembers, ih, List.map_cons]

theorem Ordered.normal_eq {j : Json} (h : Ordered j) : j.normal = j := by
  induction h with
  | @arr xs _ ih =>
    have same : xs.map normal = xs := by
      rw [List.map_congr_left ih]
      exact List.map_id xs
    rw [normal, normalElements_eq_map, same]
  | @obj members ascending _ ih =>
    have same : (members.map fun member => (member.1, member.2.normal)) = members := by
      have each : ∀ member ∈ members, (member.1, member.2.normal) = id member := by
        intro member inside
        rw [ih member inside]
        rfl
      rw [List.map_congr_left each]
      exact List.map_id members
    have distinct := Keyed.nodup_names ascending
    rw [normal, normalMembers_eq_map, same,
      Keyed.sorted_eq_of_perm distinct (List.reverse_perm members), Keyed.sorted_eq_self ascending]
  | _ => rfl

end EditorRpc.Json
