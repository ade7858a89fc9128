import EditorRpc.Wire.Record
import EditorRpc.Json.Syntax

/-!
Records and their documents. A document of a record is read field by field, and each field depends only
on the member of its name. Main statements: `Record.Reads.decode_eq` says what is decoded from members
that are given, and `Record.yields_of_decode` what a value that was decoded is made of.
-/

set_option autoImplicit false
set_option relaxedAutoImplicit false

namespace EditorRpc

namespace Draft

theorem buildItems_eq_map (arrange : List (String × Json) → List (String × Json))
    (items : List Draft) : buildItems arrange items = items.map (build arrange) := by
  induction items with
  | nil => rfl
  | cons d rest ih => rw [buildItems, ih, List.map_cons]

theorem buildFields_eq_map (arrange : List (String × Json) → List (String × Json))
    (fields : List (String × Draft)) :
    buildFields arrange fields = fields.map fun field => (field.1, build arrange field.2) := by
  induction fields with
  | nil => rfl
  | cons field rest ih => rw [buildFields, ih, List.map_cons]

theorem lookup_buildFields (arrange : List (String × Json) → List (String × Json))
    (fields : List (String × Draft)) (name : String) :
    (buildFields arrange fields).lookup name = (fields.lookup name).map (build arrange) := by
  induction fields with
  | nil => rfl
  | cons field rest ih =>
    obtain ⟨n, d⟩ := field
    rw [buildFields, List.lookup_cons, List.lookup_cons, ih]
    cases name == n <;> rfl

theorem toJson_list (items : List Draft) : (list items).toJson = .arr (items.map toJson) := by
  rw [toJson, build, buildItems_eq_map]
  rfl

def members (fields : List (String × Draft)) : List (String × Json) :=
  Keyed.sorted (buildFields Keyed.sorted fields)

theorem toJson_record (fields : List (String × Draft)) :
    (record fields).toJson = .obj (members fields) := by
  rw [toJson, build, members]

@[simp]
theorem lookup_members (fields : List (String × Draft)) (name : String) :
    (members fields).lookup name = (fields.lookup name).map toJson := by
  rw [members, Keyed.lookup_sorted, lookup_buildFields]
  rfl

private theorem lookup_singleton (name other : String) (d : Draft) :
    [(name, d)].lookup other = if other = name then some d else none := by
  rw [List.lookup_cons, List.lookup_nil]
  by_cases same : other = name
  · simp [same]
  · simp [same, beq_eq_false_iff_ne.mpr same]

@[simp]
theorem lookup_member (name other : String) (d : Draft) :
    (member name d).lookup other = if other = name then some d else none :=
  lookup_singleton name other d

@[simp]
theorem lookup_given (name other : String) (d : Option Draft) :
    (given name d).lookup other = if other = name then d else none := by
  cases d with
  | none => simp [given]
  | some d => exact lookup_singleton name other d

end Draft

namespace Field

variable {α : Type} [Wire α]

@[simp]
theorem name_required (name : String) : (required α name).name = name := rfl

@[simp]
theorem name_optional (name : String) : (optional α name).name = name := rfl

@[simp]
theorem name_orElse {α : Type} (f : Field α) (value : α) : (f.orElse value).name = f.name := rfl

end Field

theorem decode_option {α : Type} [Wire α] {j : Json} (present : j ≠ .null) :
    decode (Option α) j = (decode α j).map some := by
  cases j with
  | null => exact absurd rfl present
  | _ => rfl

/-- The document of one value decodes to the other. -/
def ReadsBack {α : Type} [Wire α] (x y : α) : Prop :=
  decode α (encode x) = .ok y

@[simp]
theorem toJson_draft {α : Type} [Wire α] (x : α) : (Wire.draft x).toJson = encode x := rfl

@[simp]
theorem toJson_comp_draft {α : Type} [Wire α] :
    Draft.toJson ∘ (Wire.draft : α → Draft) = encode := rfl

theorem member?_encode {α : Type} [Wire α] {x : α} {fields : List (String × Draft)}
    (drafts : Wire.draft x = .record fields) (name : String) :
    (encode x).member? name = (fields.lookup name).map Draft.toJson := by
  rw [encode, drafts, Draft.toJson_record]
  exact Draft.lookup_members fields name

/-! ### Values that are given -/

def Field.Reads {α : Type} (f : Field α) (members : List (String × Json)) (a : α) : Prop :=
  ∃ found, f.find members = .ok found ∧ f.settle found = .ok a

/-- The record has that value among the members of an object, and none of its fields is at fault. -/
def Record.Reads {α : Type} (r : Record α) (members : List (String × Json)) (a : α) : Prop :=
  r.scan members = ⟨[], .ok a⟩

section

variable {α β : Type} {members : List (String × Json)}

theorem Field.Reads.of_lookup {f : Field α} {j : Json} {a : α}
    (found : members.lookup f.name = some j) (decoded : f.decode j = .ok a) :
    f.Reads members a := by
  refine ⟨some a, ?_, rfl⟩
  rw [find, found]
  change (f.decode j).map some = _
  rw [decoded]
  rfl

theorem Field.Reads.of_absent {f : Field α} {a : α} (missing : members.lookup f.name = none)
    (absent : f.absent = some a) : f.Reads members a := by
  refine ⟨none, ?_, ?_⟩
  · rw [find, missing]
  · rw [settle, absent]

theorem Field.Reads.member [Wire α] {f : Field α} {x y : α} (decodes : f.decode = Wire.decode)
    (found : members.lookup f.name = some (encode x)) (back : ReadsBack x y) :
    f.Reads members y := by
  refine of_lookup found ?_
  rw [decodes]
  exact back

theorem Field.Reads.given [Wire α] {f : Field (Option α)} {x y : Option α}
    (decodes : f.decode = Wire.decode) (absent : f.absent = some none)
    (found : members.lookup f.name = x.map encode) (back : ReadsBack x y) :
    f.Reads members y := by
  cases x with
  | none =>
    have none : y = none := (Except.ok.inj back).symm
    subst none
    exact of_absent found absent
  | some x =>
    refine of_lookup found ?_
    rw [decodes]
    exact back

namespace Record

theorem Reads.of (a : α) : (Record.of a).Reads members a := rfl

theorem Reads.field {r : Record (α → β)} {f : Field α} {make : α → β} {a : α}
    (others : r.Reads members make) (last : f.Reads members a) :
    (r.field f).Reads members (make a) := by
  obtain ⟨found, there, settled⟩ := last
  have before : r.scan members = ⟨[], .ok make⟩ := others
  simp only [Reads, Record.field, before, there, settled]
  rfl

theorem Reads.decode_eq {r : Record α} {a : α} (h : r.Reads members a) (name : String) :
    r.decode name (.obj members) = .ok a := by
  have seen : r.scan members = ⟨[], .ok a⟩ := h
  rw [decode, ofMembers, seen]
  rfl

theorem readsBack [Wire α] {r : Record α} {name : String} {fields : List (String × Draft)}
    {x y : α} (drafts : Wire.draft x = .record fields) (decodes : Wire.decode = r.decode name)
    (reads : r.Reads (Draft.members fields) y) : ReadsBack x y := by
  rw [ReadsBack, EditorRpc.decode, encode, drafts, Draft.toJson_record, decodes]
  exact reads.decode_eq name

theorem readsBack_single {γ : Type} [Wire α] [Wire γ] {make : α → γ} {label name : String}
    {x y : α} (drafts : Wire.draft (make x) = .record (Draft.member label (Wire.draft x)))
    (decodes : Wire.decode = ((Record.of make).field (.required α label)).decode name)
    (back : ReadsBack x y) : ReadsBack (make x) (make y) := by
  refine readsBack drafts decodes (.field (.of _) (.member rfl ?_ back))
  simp

theorem readsBack_pair {γ : Type} [Wire α] [Wire β] [Wire γ] {make : α → β → γ}
    {label other name : String} {x x' : α} {y y' : β}
    (drafts : Wire.draft (make x y) =
      .record (Draft.member label (Wire.draft x) ++ Draft.member other (Wire.draft y)))
    (decodes : Wire.decode =
      (((Record.of make).field (.required α label)).field (.required β other)).decode name)
    (different : other ≠ label) (back : ReadsBack x x') (others : ReadsBack y y') :
    ReadsBack (make x y) (make x' y') := by
  refine readsBack drafts decodes (.field (.field (.of _) (.member rfl ?_ back))
    (.member rfl ?_ others))
  · simp [List.lookup_append]
  · simp [List.lookup_append, different]

end Record

end

/-! ### Values in an array -/

def Record.Walks {α : Type} (r : Record α) (elements : List Json) (a : α) : Prop :=
  ∀ short, r.walk short elements = .ok a

namespace Record

variable {α β : Type} {elements : List Json}

theorem Walks.of (a : α) : (Record.of a).Walks elements a := fun _ => rfl

theorem Walks.field [Wire α] {r : Record (α → β)} {f : Field α} {make : α → β} {x y : α}
    (others : r.Walks elements make) (decodes : f.decode = Wire.decode)
    (here : elements[r.size]? = some (encode x)) (back : ReadsBack x y) :
    (r.field f).Walks elements (make y) := by
  intro short
  have taken : f.atPlace short r.size elements = .ok y := by
    rw [Field.atPlace, here, decodes]
    exact back
  simp only [Record.field, others short, taken]
  rfl

theorem Walks.ofElements_eq {r : Record α} {a : α} (h : r.Walks elements a)
    (all : elements.length ≤ r.size) (expected : Expected) :
    r.ofElements expected elements = .ok a := by
  rw [ofElements, h]
  simp only [bind, Except.bind, if_neg (Nat.not_lt.mpr all)]
  rfl

end Record

/-! ### Values that were decoded -/

/-- The value was decoded from some node or stands in for a missing one. -/
def Field.Yields {α : Type} (f : Field α) (a : α) : Prop :=
  (∃ j, f.decode j = .ok a) ∨ f.absent = some a ∨ f.unreached = some a

def Record.Yields {α : Type} (r : Record α) (a : α) : Prop :=
  (∃ members, (r.scan members).result = .ok a) ∨ ∃ short elements, r.walk short elements = .ok a

section

variable {α β : Type}

theorem Field.Yields.exists_decode [Wire α] {f : Field (Option α)} {a : α}
    (h : f.Yields (some a)) (decodes : f.decode = Wire.decode) (absent : f.absent = some none)
    (unreached : f.unreached ≠ some (some a)) : ∃ j, j ≠ .null ∧ EditorRpc.decode α j = .ok a := by
  rcases h with ⟨j, decoded⟩ | stands | stands
  · -- a null would have been read as a missing value
    rw [decodes] at decoded
    have whole : EditorRpc.decode (Option α) j = .ok (some a) := decoded
    by_cases null : j = .null
    · subst null
      cases whole
    · rw [decode_option null] at whole
      obtain ⟨b, value, same⟩ := map_eq_ok_iff.mp whole
      cases same
      exact ⟨j, null, value⟩
  · rw [absent] at stands
    cases stands
  · exact absurd stands unreached

theorem Field.Reads.exists_member [Wire α] {name : String} {members : List (String × Json)} {a : α}
    (h : (required α name).Reads members a) :
    ∃ node, members.lookup name = some node ∧ EditorRpc.decode α node = .ok a := by
  obtain ⟨found, looked, settled⟩ := h
  unfold find at looked
  split at looked
  · cases looked
    cases settled
  · next node there =>
    obtain ⟨value, decoded, rfl⟩ := map_eq_ok_iff.mp looked
    cases settled
    exact ⟨node, there, decoded⟩

private theorem Field.Reads.yields {f : Field α} {members : List (String × Json)} {a : α}
    (h : f.Reads members a) : f.Yields a := by
  obtain ⟨found, looked, settled⟩ := h
  unfold find at looked
  split at looked
  · cases looked
    cases absent : f.absent with
    | none =>
      rw [settle, absent] at settled
      cases settled
    | some value =>
      rw [settle, absent] at settled
      cases settled
      exact Or.inr (Or.inl absent)
  · next node _ =>
    obtain ⟨value, decoded, rfl⟩ := map_eq_ok_iff.mp looked
    cases settled
    exact Or.inl ⟨node, decoded⟩

private theorem Field.yields_of_atPlace {f : Field α} {short : Mismatch} {place : Nat}
    {elements : List Json} {a : α} (taken : f.atPlace short place elements = .ok a) :
    f.Yields a := by
  unfold atPlace at taken
  split at taken
  · exact Or.inl ⟨_, taken⟩
  · split at taken
    · next unreached =>
      cases taken
      exact Or.inr (Or.inr unreached)
    · cases taken

namespace Record

theorem Yields.eq_of {a b : α} (h : (Record.of a).Yields b) : b = a := by
  rcases h with ⟨_, same⟩ | ⟨_, _, same⟩ <;> exact (Except.ok.inj same).symm

theorem exists_of_result_field {r : Record (α → β)} {f : Field α}
    {members : List (String × Json)} {b : β} (h : ((r.field f).scan members).result = .ok b) :
    ∃ make a, (r.scan members).result = .ok make ∧ f.Reads members a ∧ make a = b := by
  simp only [Record.field] at h
  split at h
  · cases h
  · next found looked =>
    obtain ⟨make, before, last⟩ := bind_eq_ok_iff.mp h
    obtain ⟨a, settled, same⟩ := bind_eq_ok_iff.mp last
    exact ⟨make, a, before, ⟨found, looked, settled⟩, Except.ok.inj same⟩

/-- A value of a record with one more field is made of a value of that field. -/
@[elab_as_elim]
theorem Yields.of_field {r : Record (α → β)} {f : Field α} {motive : β → Prop} {b : β}
    (h : (r.field f).Yields b)
    (made : ∀ make a, r.Yields make → f.Yields a → motive (make a)) : motive b := by
  rcases h with ⟨members, result⟩ | ⟨short, elements, result⟩
  · obtain ⟨make, a, before, last, rfl⟩ := exists_of_result_field result
    exact made make a (Or.inl ⟨members, before⟩) last.yields
  · obtain ⟨make, before, last⟩ := bind_eq_ok_iff.mp result
    obtain ⟨a, taken, same⟩ := bind_eq_ok_iff.mp last
    cases same
    exact made make a (Or.inr ⟨short, elements, before⟩) (Field.yields_of_atPlace taken)

theorem result_of_decode {r : Record α} {name : String} {members : List (String × Json)} {a : α}
    (decoded : r.decode name (.obj members) = .ok a) : (r.scan members).result = .ok a := by
  unfold decode ofMembers at decoded
  dsimp only at decoded
  split at decoded
  · exact decoded
  · cases decoded

theorem yields_of_decode {r : Record α} {name : String} {document : Json} {a : α}
    (decoded : r.decode name document = .ok a) : r.Yields a := by
  cases document with
  | obj members => exact Or.inl ⟨members, result_of_decode decoded⟩
  | arr elements =>
    obtain ⟨value, walked, rest⟩ := bind_eq_ok_iff.mp decoded
    split at rest
    · cases rest
    · cases rest
      exact Or.inr ⟨_, elements, walked⟩
  | _ => cases decoded

end Record

end

end EditorRpc
