import EditorRpc.Incoming
import EditorRpc.Outgoing
import EditorRpc.WindowMessage
import EditorRpc.Proofs.Json.RoundTrip
import EditorRpc.Proofs.Wire.Record

/-!
Values as they are written. Their members stand in the order in which they are declared, and in order
of their names once they are read; none is lost on the way because no record names one twice. Main
statement: `Unambiguous.parse_written`.
-/

set_option autoImplicit false
set_option relaxedAutoImplicit false

namespace EditorRpc

namespace Draft

/-- Every record in the draft names each of its members once. -/
inductive Unambiguous : Draft → Prop
  | document (j : Json) : Unambiguous (.document j)
  | list {items : List Draft} : (∀ d ∈ items, Unambiguous d) → Unambiguous (.list items)
  | record {fields : List (String × Draft)} : (Keyed.names fields).Nodup →
      (∀ field ∈ fields, Unambiguous field.2) → Unambiguous (.record fields)

theorem written_list (items : List Draft) : (list items).written = .arr (items.map written) := by
  rw [written, build, buildItems_eq_map]
  rfl

theorem written_record (fields : List (String × Draft)) :
    (record fields).written = .obj (fields.map fun field => (field.1, field.2.written)) := by
  rw [written, build, buildFields_eq_map]
  rfl

theorem members_eq_sorted (fields : List (String × Draft)) :
    members fields = Keyed.sorted (fields.map fun field => (field.1, field.2.toJson)) := by
  rw [members, buildFields_eq_map]
  rfl

section

variable {fields : List (String × Draft)}

private theorem names_map (f : Draft → Json) (fields : List (String × Draft)) :
    Keyed.names (fields.map fun field => (field.1, f field.2)) = Keyed.names fields := by
  rw [Keyed.names, List.map_map]
  rfl

private theorem mem_members (distinct : (Keyed.names fields).Nodup) {field : String × Draft}
    (inside : field ∈ fields) : (field.1, field.2.toJson) ∈ members fields := by
  have moved : (members fields).Perm (fields.map fun field => (field.1, field.2.toJson)) := by
    rw [members_eq_sorted]
    apply Keyed.perm_sorted
    rw [names_map]
    exact distinct
  exact moved.mem_iff.mpr (List.mem_map_of_mem inside)

end

variable {d : Draft}

theorem Unambiguous.normal_written (h : d.Unambiguous) (ordered : d.toJson.Ordered) :
    d.written.normal = d.toJson := by
  induction h with
  | document j => exact ordered.normal_eq
  | @list items _ ih =>
    rw [toJson_list, Json.ordered_arr_iff] at ordered
    rw [toJson_list, written_list, Json.normal, Json.normalElements_eq_map, List.map_map]
    congr 1
    apply List.map_congr_left
    intro d inside
    exact ih d inside (ordered _ (List.mem_map_of_mem inside))
  | @record fields distinct _ ih =>
    rw [toJson_record, Json.ordered_obj_iff] at ordered
    have same : (fields.map fun field => (field.1, field.2.written.normal)) =
        fields.map fun field => (field.1, field.2.toJson) := by
      apply List.map_congr_left
      intro field inside
      rw [ih field inside (ordered.2 _ (mem_members distinct inside))]
    have names : (Keyed.names (fields.map fun field => (field.1, field.2.toJson))).Nodup := by
      rw [names_map]
      exact distinct
    have read : (Draft.record fields).written.normal = Json.obj
        (Keyed.sorted (fields.map fun field => (field.1, field.2.written.normal)).reverse) := by
      rw [written_record, Json.normal, Json.normalMembers_eq_map, List.map_map]
      rfl
    rw [read, same, Keyed.sorted_eq_of_perm names (List.reverse_perm _), toJson_record,
      members_eq_sorted]

theorem Unambiguous.plain_written (h : d.Unambiguous) {levels : Nat}
    (plain : d.toJson.Plain levels) : d.written.Plain levels := by
  induction h generalizing levels with
  | document j => exact plain
  | @list items _ ih =>
    rw [toJson_list] at plain
    cases plain with
    | arr each =>
      rw [written_list]
      apply Json.Plain.arr
      intro x inside
      obtain ⟨d, member, rfl⟩ := List.mem_map.mp inside
      exact ih d member (each _ (List.mem_map_of_mem member))
  | @record fields distinct _ ih =>
    rw [toJson_record] at plain
    cases plain with
    | obj each =>
      rw [written_record]
      apply Json.Plain.obj
      intro x inside
      obtain ⟨field, member, rfl⟩ := List.mem_map.mp inside
      exact ih field member (each _ (mem_members distinct member))

theorem Unambiguous.parse_written (h : d.Unambiguous) (ordered : d.toJson.Ordered)
    (plain : d.toJson.Plain Json.nestingLimit) : Json.parse d.written.octets = .ok d.toJson := by
  rw [Json.parse_octets (h.plain_written plain), h.normal_written ordered]

/-! ### Records -/

/-- The fields have names from the list, in its order, and their drafts name no member twice. -/
def Declares (names : List String) (fields : List (String × Draft)) : Prop :=
  (Keyed.names fields).Sublist names ∧ ∀ field ∈ fields, field.2.Unambiguous

theorem Declares.member (name : String) (h : d.Unambiguous) : Declares [name] (member name d) := by
  refine ⟨List.Sublist.refl _, ?_⟩
  intro field inside
  rw [List.mem_singleton.mp inside]
  exact h

theorem Declares.given (name : String) {d : Option Draft} (h : ∀ x ∈ d, x.Unambiguous) :
    Declares [name] (given name d) := by
  cases d with
  | none => exact ⟨List.nil_sublist _, nofun⟩
  | some d => exact Declares.member name (h d rfl)

theorem Declares.append {names others : List String} {fields later : List (String × Draft)}
    (h : Declares names fields) (last : Declares others later) :
    Declares (names ++ others) (fields ++ later) := by
  constructor
  · have split : Keyed.names (fields ++ later) = Keyed.names fields ++ Keyed.names later :=
      List.map_append
    rw [split]
    exact h.1.append last.1
  · intro field inside
    rcases List.mem_append.mp inside with before | after
    · exact h.2 field before
    · exact last.2 field after

theorem Declares.unambiguous {names : List String} {fields : List (String × Draft)}
    (h : Declares names fields) (distinct : names.Nodup) : (record fields).Unambiguous :=
  .record (h.1.nodup distinct) h.2

end Draft

/-- No draft of a value of the type names a member twice. -/
class Wire.Unambiguous (α : Type) [Wire α] : Prop where
  draft (x : α) : (Wire.draft x).Unambiguous

/-! ### The types whose values travel -/

section

open Draft (Declares)

variable {α : Type} [Wire α] [Wire.Unambiguous α]

private theorem declares_member (name : String) (x : α) :
    Declares [name] (Draft.member name (Wire.draft x)) :=
  .member name (Wire.Unambiguous.draft x)

private theorem declares_given (name : String) (x : Option α) :
    Declares [name] (Draft.given name (x.map Wire.draft)) := by
  apply Declares.given
  intro d given
  obtain ⟨y, _, rfl⟩ := Option.map_eq_some_iff.mp given
  exact Wire.Unambiguous.draft y

instance : Wire.Unambiguous Json where
  draft j := .document j

instance : Wire.Unambiguous String where
  draft s := .document (.str s)

instance : Wire.Unambiguous UInt8 where
  draft _ := .document _

instance : Wire.Unambiguous UInt32 where
  draft _ := .document _

instance : Wire.Unambiguous Int32 where
  draft _ := .document _

instance : Wire.Unambiguous (Option α) where
  draft
    | some x => Wire.Unambiguous.draft x
    | none => .document .null

instance : Wire.Unambiguous (List α) where
  draft xs := by
    apply Draft.Unambiguous.list
    intro d inside
    obtain ⟨x, _, rfl⟩ := List.mem_map.mp inside
    exact Wire.Unambiguous.draft x

instance : Wire.Unambiguous RequestId where
  draft id := .document id.toJson

instance : Wire.Unambiguous DocumentUri where
  draft uri := .document (.str uri.raw)

instance : Wire.Unambiguous TraceLevel where
  draft level := .document (.str level.name)

instance : Wire.Unambiguous MessageKind where
  draft kind := Wire.Unambiguous.draft kind.number

instance : Wire.Unambiguous Position where
  draft p := ((declares_member "line" p.line).append
    (declares_member "character" p.character)).unambiguous (by decide)

instance : Wire.Unambiguous Range where
  draft r := ((declares_member "start" r.start).append
    (declares_member "end" r.stop)).unambiguous (by decide)

instance : Wire.Unambiguous Location where
  draft l := ((declares_member "uri" l.uri).append
    (declares_member "range" l.range)).unambiguous (by decide)

instance : Wire.Unambiguous CommandArguments where
  draft a := by
    apply Draft.Unambiguous.list
    intro d inside
    simp only [List.mem_cons, List.not_mem_nil, or_false] at inside
    rcases inside with rfl | rfl | rfl
    · exact Wire.Unambiguous.draft a.uri
    · exact Wire.Unambiguous.draft a.position
    · exact Wire.Unambiguous.draft a.locations

instance : Wire.Unambiguous (Command α) where
  draft c := (((declares_member "title" c.title).append
    (declares_member "command" c.command)).append
    (declares_given "arguments" c.arguments)).unambiguous (by decide)

instance : Wire.Unambiguous CodeLens where
  draft l := (((declares_member "range" l.range).append (declares_given "command" l.command)).append
    (declares_given "data" l.data)).unambiguous (by decide)

instance : Wire.Unambiguous TextDocumentIdentifier where
  draft d := (declares_member "uri" d.uri).unambiguous (by decide)

instance : Wire.Unambiguous DocumentSymbolParams where
  draft p := (declares_member "textDocument" p.textDocument).unambiguous (by decide)

instance : Wire.Unambiguous CodeLensParams where
  draft p := (declares_member "textDocument" p.textDocument).unambiguous (by decide)

instance : Wire.Unambiguous WorkspaceSymbolParams where
  draft p := (declares_member "query" p.query).unambiguous (by decide)

instance : Wire.Unambiguous CancelParams where
  draft p := (declares_member "id" p.id).unambiguous (by decide)

instance : Wire.Unambiguous LogMessageParams where
  draft p := ((declares_member "type" p.kind).append
    (declares_member "message" p.message)).unambiguous (by decide)

instance : Wire.Unambiguous ClientInfo where
  draft c := ((declares_member "name" c.name).append
    (declares_given "version" c.version)).unambiguous (by decide)

instance : Wire.Unambiguous InitializeParams where
  draft p := (((((((declares_member "processId" p.processId).append
    (declares_given "clientInfo" p.clientInfo)).append
    (declares_given "rootPath" p.rootPath)).append
    (declares_member "rootUri" p.rootUri)).append
    (declares_given "initializationOptions" p.initializationOptions)).append
    (declares_member "capabilities" p.capabilities)).append
    (declares_given "trace" p.trace)).unambiguous (by decide)

instance : Wire.Unambiguous ResponseError where
  draft e := (((declares_member "code" e.code).append (declares_member "message" e.message)).append
    (declares_given "data" e.data)).unambiguous (by decide)

instance : Wire.Unambiguous (Response α) where
  draft r := ((((declares_member "jsonrpc" r.version).append (declares_member "id" r.id)).append
    (declares_given "result" r.result)).append
    (declares_given "error" r.error)).unambiguous (by decide)

instance : Wire.Unambiguous (Notification α) where
  draft n := (((declares_member "jsonrpc" n.version).append
    (declares_member "method" n.method)).append
    (declares_given "params" n.params)).unambiguous (by decide)

instance : Wire.Unambiguous (Request α) where
  draft r := ((declares_member "id" r.id).append
    (declares_member "params" r.params)).unambiguous (by decide)

end

theorem parse_written {α : Type} [Wire α] [Wire.Unambiguous α] {x : α}
    (ordered : (encode x).Ordered) (plain : (encode x).Plain Json.nestingLimit) :
    Json.parse (written x).octets = .ok (encode x) :=
  (Wire.Unambiguous.draft x).parse_written ordered plain

end EditorRpc
