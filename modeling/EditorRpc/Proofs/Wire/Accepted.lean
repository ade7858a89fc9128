import EditorRpc.Proofs.Wire.Record
import Mathlib.Data.List.Forall2

/-!
Exactly which documents decode, and to which values. A record is decoded from an object or an array in
which every field has a value, be it one that stands in for it. Main statements:
`Record.exists_decode_iff`, with `Record.holds_field_iff` to take the fields off one by one, and
`decode_list_eq_ok_iff`.
-/

set_option autoImplicit false
set_option relaxedAutoImplicit false

namespace EditorRpc

/-- The node of a field in the document of a record: the element at its place if that is an array, and
otherwise the member of its name. -/
def Json.part? (document : Json) (name : String) (place : Nat) : Option Json :=
  match document with
  | .arr elements => elements[place]?
  | j => j.member? name

/-- The document is an object, or an array with no more than so many elements. -/
def Json.IsRecord (most : Nat) : Json → Prop
  | .obj _ => True
  | .arr elements => elements.length ≤ most
  | _ => False

def ReadsFrom {α : Type} [Wire α] (node : Option Json) (a : α) : Prop :=
  ∃ j, node = some j ∧ decode α j = .ok a

/-- What a value that may be missing is decoded from. It is missing if its node is, or is a null. -/
def ReadsOption {α : Type} [Wire α] (node : Option Json) : Option α → Prop
  | none => node = none ∨ node = some .null
  | some a => node ≠ some .null ∧ ReadsFrom node a

theorem ReadsOption.exists_decode {α : Type} [Wire α] {j : Json} {value : Option α}
    (read : ReadsOption (some j) value) (present : j ≠ .null) :
    ∃ a, value = some a ∧ decode α j = .ok a := by
  cases value with
  | none => exact absurd read (by simp [ReadsOption, present])
  | some a =>
    obtain ⟨_, node, same, decoded⟩ := read
    cases same
    exact ⟨a, rfl, decoded⟩

theorem decode_option_eq_ok_iff {α : Type} [Wire α] {j : Json} {value : Option α} :
    decode (Option α) j = .ok value ↔ ReadsOption (some j) value := by
  by_cases null : j = .null
  · have missing : decode (Option α) j = .ok none := by
      rw [null]
      rfl
    rw [missing]
    cases value <;> simp [ReadsOption, ReadsFrom, null]
  · rw [decode_option null, map_eq_ok_iff]
    cases value <;> simp [ReadsOption, ReadsFrom, null]

theorem decodeAll_eq_ok_iff {α : Type} {read : Json → Except Mismatch α} {nodes : List Json}
    {values : List α} :
    decodeAll read nodes = .ok values ↔
      List.Forall₂ (fun node value => read node = .ok value) nodes values := by
  induction nodes generalizing values with
  | nil =>
    rw [List.forall₂_nil_left_iff]
    exact ⟨fun same => (Except.ok.inj same).symm, fun none => none ▸ rfl⟩
  | cons node nodes ih =>
    rw [decodeAll, List.forall₂_cons_left_iff]
    constructor
    · intro decoded
      obtain ⟨value, first, later⟩ := bind_eq_ok_iff.mp decoded
      obtain ⟨others, rest, same⟩ := bind_eq_ok_iff.mp later
      exact ⟨value, others, first, ih.mp rest, (Except.ok.inj same).symm⟩
    · rintro ⟨value, others, first, rest, rfl⟩
      rw [first, ih.mpr rest]
      rfl

theorem decode_list_eq_ok_iff {α : Type} [Wire α] {j : Json} {values : List α} :
    decode (List α) j = .ok values ↔ ∃ nodes, j = .arr nodes ∧
      List.Forall₂ (fun node value => decode α node = .ok value) nodes values := by
  cases j with
  | arr nodes =>
    simp only [Json.arr.injEq, exists_eq_left']
    exact decodeAll_eq_ok_iff
  | _ => exact ⟨nofun, nofun⟩

/-! ### Fields -/

namespace Field

variable {α : Type}

/-- What stands in for a field that the document lacks. -/
def standIn (f : Field α) : Json → Option α
  | .arr _ => f.unreached
  | _ => f.absent

def Holds (f : Field α) (place : Nat) (document : Json) (a : α) : Prop :=
  (∃ j, document.part? f.name place = some j ∧ f.decode j = .ok a) ∨
    document.part? f.name place = none ∧ f.standIn document = some a

theorem reads_iff {f : Field α} {members : List (String × Json)} {a : α} (place : Nat) :
    f.Reads members a ↔ f.Holds place (.obj members) a := by
  have node : (Json.obj members).part? f.name place = members.lookup f.name := rfl
  rw [Holds, node, Reads, find]
  cases members.lookup f.name with
  | none => cases absent : f.absent <;> simp [settle, standIn, absent]
  | some j => cases decoded : f.decode j <;> simp [settle, Except.map, decoded]

theorem atPlace_eq_ok_iff {f : Field α} {short : Mismatch} {place : Nat} {elements : List Json}
    {a : α} : f.atPlace short place elements = .ok a ↔ f.Holds place (.arr elements) a := by
  have node : (Json.arr elements).part? f.name place = elements[place]? := rfl
  rw [Holds, node, atPlace]
  cases elements[place]? with
  | none => cases unreached : f.unreached <;> simp [standIn, unreached]
  | some j => simp

variable [Wire α] {place : Nat} {document : Json}

theorem holds_required_iff {name : String} {a : α} :
    (required α name).Holds place document a ↔ ReadsFrom (document.part? name place) a := by
  have none : (required α name).standIn document = none := by
    cases document <;> rfl
  rw [Holds, none]
  simp [required, ReadsFrom, EditorRpc.decode]

theorem holds_orElse_none_iff {name : String} {value : Option α} :
    ((optional α name).orElse none).Holds place document value ↔
      ReadsOption (document.part? name place) value := by
  have stands : ((optional α name).orElse none).standIn document = some none := by
    cases document <;> rfl
  rw [Holds, stands, name_orElse, name_optional]
  cases document.part? name place with
  | none => cases value <;> simp [ReadsOption, ReadsFrom]
  | some j =>
    rw [← decode_option_eq_ok_iff]
    simp [orElse, optional, required, EditorRpc.decode]

theorem holds_optional_iff {name : String} {value : Option α} :
    (optional α name).Holds place document value ↔
      ReadsOption (document.part? name place) value ∧
        ∀ elements, document = .arr elements → place < elements.length := by
  cases document with
  | arr elements =>
    have node : (Json.arr elements).part? name place = elements[place]? := rfl
    have stands : (optional α name).standIn (.arr elements) = none := rfl
    rw [Holds, stands, name_optional, node]
    cases there : elements[place]? with
    | none =>
      have past : ¬place < elements.length := Nat.not_lt.mpr (List.getElem?_eq_none_iff.mp there)
      simp [past]
    | some j =>
      have inside : place < elements.length := (List.getElem?_eq_some_iff.mp there).1
      rw [← decode_option_eq_ok_iff]
      simp [optional, required, EditorRpc.decode, inside]
  | _ =>
    -- everywhere else a missing value stands in, so the two kinds of field do not differ
    simp only [reduceCtorEq, false_imp_iff, implies_true, and_true]
    exact holds_orElse_none_iff

end Field

/-! ### Records -/

namespace Record

variable {α β : Type} {document : Json}

/-- All fields of the record have their values in the document, and make up that value. -/
def Holds (r : Record α) (short : Mismatch) : Json → α → Prop
  | .arr elements, a => r.walk short elements = .ok a
  | .obj members, a => r.Reads members a
  | _, a => r.Reads [] a

theorem holds_of_iff {short : Mismatch} {a b : α} :
    (Record.of a).Holds short document b ↔ b = a := by
  cases document <;> simp [Holds, Reads, Record.of, eq_comm]

theorem reads_field_iff {r : Record (α → β)} {f : Field α} {members : List (String × Json)} {b : β} :
    (r.field f).Reads members b ↔
      ∃ make a, r.Reads members make ∧ f.Reads members a ∧ make a = b := by
  constructor
  · intro whole
    have seen : (r.field f).scan members = ⟨[], .ok b⟩ := whole
    have faults := congrArg Scan.faults seen
    obtain ⟨make, a, before, last, same⟩ := exists_of_result_field (congrArg Scan.result seen)
    have none : (r.scan members).faults = [] := by
      simp only [Record.field] at faults
      split at faults
      · cases faults
      · exact faults
    have others : r.scan members = ⟨(r.scan members).faults, (r.scan members).result⟩ := rfl
    rw [none, before] at others
    exact ⟨make, a, others, last, same⟩
  · rintro ⟨make, a, others, last, rfl⟩
    exact others.field last

theorem walk_field_iff {r : Record (α → β)} {f : Field α} {short : Mismatch}
    {elements : List Json} {b : β} :
    (r.field f).walk short elements = .ok b ↔ ∃ make a, r.walk short elements = .ok make ∧
      f.atPlace short r.size elements = .ok a ∧ make a = b := by
  constructor
  · intro whole
    obtain ⟨make, before, later⟩ := bind_eq_ok_iff.mp whole
    obtain ⟨a, last, same⟩ := bind_eq_ok_iff.mp later
    exact ⟨make, a, before, last, Except.ok.inj same⟩
  · rintro ⟨make, a, before, last, rfl⟩
    simp only [Record.field, before, last]
    rfl

theorem holds_field_iff {r : Record (α → β)} {f : Field α} {short : Mismatch} {b : β} :
    (r.field f).Holds short document b ↔
      ∃ make a, r.Holds short document make ∧ f.Holds r.size document a ∧ make a = b := by
  cases document with
  | arr elements => simp only [Holds, walk_field_iff, Field.atPlace_eq_ok_iff]
  | obj members => simp only [Holds, reads_field_iff, Field.reads_iff r.size]
  | _ =>
    simp only [Holds, reads_field_iff, Field.reads_iff r.size]
    rfl

theorem holds_pair_iff {γ : Type} {make : α → β → γ} {f : Field α} {g : Field β} {short : Mismatch}
    {c : γ} : (((Record.of make).field f).field g).Holds short document c ↔
      ∃ a b, f.Holds 0 document a ∧ g.Holds 1 document b ∧ make a b = c := by
  rw [holds_field_iff]
  constructor
  · rintro ⟨_, b, before, last, same⟩
    obtain ⟨_, a, none, first, rfl⟩ := holds_field_iff.mp before
    obtain rfl := holds_of_iff.mp none
    exact ⟨a, b, first, last, same⟩
  · rintro ⟨a, b, first, last, same⟩
    exact ⟨make a, b, holds_field_iff.mpr ⟨make, a, holds_of_iff.mpr rfl, first, rfl⟩, last, same⟩

theorem holds_triple_iff {γ δ : Type} {make : α → β → γ → δ} {f : Field α} {g : Field β}
    {h : Field γ} {short : Mismatch} {d : δ} :
    ((((Record.of make).field f).field g).field h).Holds short document d ↔
      ∃ a b c, f.Holds 0 document a ∧ g.Holds 1 document b ∧ h.Holds 2 document c ∧
        make a b c = d := by
  rw [holds_field_iff]
  constructor
  · rintro ⟨_, c, before, last, same⟩
    obtain ⟨a, b, first, second, rfl⟩ := holds_pair_iff.mp before
    exact ⟨a, b, c, first, second, last, same⟩
  · rintro ⟨a, b, c, first, second, last, same⟩
    exact ⟨make a b, c, holds_pair_iff.mpr ⟨a, b, first, second, rfl⟩, last, same⟩

theorem ofMembers_eq_ok_iff {r : Record α} {members : List (String × Json)} {a : α} :
    r.ofMembers members = .ok a ↔ r.Reads members a := by
  constructor
  · intro decoded
    unfold ofMembers at decoded
    dsimp only at decoded
    split at decoded
    · next none =>
      -- entries of which none is left after sorting are none
      have faultless : (r.scan members).faults = [] := by
        cases faults : (r.scan members).faults with
        | nil => rfl
        | cons fault others =>
          have found := Keyed.lookup_sorted fault.1 (r.scan members).faults
          rw [none, faults, List.lookup_cons_self] at found
          cases found
      rw [Reads, ← faultless, ← decoded]
    · cases decoded
  · intro reads
    exact reads.decode_eq ""

theorem ofElements_eq_ok_iff {r : Record α} {expected : Expected} {elements : List Json} {a : α} :
    r.ofElements expected elements = .ok a ↔ elements.length ≤ r.size ∧
      r.Holds (.tooShort elements.length expected r.size) (.arr elements) a := by
  rw [Holds]
  constructor
  · intro decoded
    obtain ⟨value, walked, last⟩ := bind_eq_ok_iff.mp decoded
    split at last
    · cases last
    · next fits =>
      cases last
      exact ⟨Nat.not_lt.mp fits, walked⟩
  · rintro ⟨fits, walked⟩
    rw [ofElements, walked]
    simp only [bind, Except.bind, if_neg (Nat.not_lt.mpr fits)]
    rfl

/-- Exactly the documents that decode: objects, and arrays that are not too long, in which all fields
have their values. -/
theorem exists_decode_iff (r : Record α) (name : String) (document : Json) :
    ∃ short, ∀ a, r.decode name document = .ok a ↔
      document.IsRecord r.size ∧ r.Holds short document a := by
  cases document with
  | arr elements =>
    exact ⟨.tooShort elements.length (.record name) r.size, fun a => ofElements_eq_ok_iff⟩
  | obj members =>
    refine ⟨.missing name, fun a => ?_⟩
    simp only [Json.IsRecord, true_and]
    exact ofMembers_eq_ok_iff
  | _ => exact ⟨.missing name, fun a => ⟨nofun, fun h => h.1.elim⟩⟩

end Record

end EditorRpc
