import EditorRpc.Incoming
import EditorRpc.Proofs.Wire.Record

/-!
What the types of values read of their documents, and what they do not. A record looks at the members
of its fields and passes over all others, at every depth; free members are read as a whole. Main
statement: `Respects`, proved for each type, by which documents that differ only in what is not read
decode to the same value or fail in the same way.
-/

set_option autoImplicit false
set_option relaxedAutoImplicit false

namespace EditorRpc

/-- What is read of a document. -/
inductive Shape
  | whole
  | setting
  | list (item : Shape)
  | tuple (items : List Shape)
  /-- The members of an object that have one of these names, or the elements of an array in that
  order. -/
  | record (fields : List (String × Shape))

/-- Two nodes, which may both be missing, do not differ in what is read of them. -/
inductive Alike : Shape → Option Json → Option Json → Prop
  | same (shape : Shape) (node : Option Json) : Alike shape node node
  /-- A setting that is not known stands for no trace. -/
  | unknown {setting : String} : setting ∉ ["off", "messages", "verbose"] →
      Alike .setting (some (.str setting)) (some (.str "off"))
  | list {item : Shape} {xs ys : List Json} :
      (∀ i : Nat, Alike item xs[i]? ys[i]?) → Alike (.list item) (some (.arr xs)) (some (.arr ys))
  | tuple {items : List Shape} {xs ys : List Json} : xs.length = ys.length →
      (∀ (i : Nat) shape, items[i]? = some shape → Alike shape xs[i]? ys[i]?) →
      Alike (.tuple items) (some (.arr xs)) (some (.arr ys))
  | elements {fields : List (String × Shape)} {xs ys : List Json} : xs.length = ys.length →
      (∀ (i : Nat) name shape, fields[i]? = some (name, shape) → Alike shape xs[i]? ys[i]?) →
      Alike (.record fields) (some (.arr xs)) (some (.arr ys))
  /-- Nothing is said about members of other names. -/
  | members {fields : List (String × Shape)} {as bs : List (String × Json)} :
      (∀ name shape, (name, shape) ∈ fields → Alike shape (as.lookup name) (bs.lookup name)) →
      Alike (.record fields) (some (.obj as)) (some (.obj bs))

/-- The values of a type depend only on what that shape reads. -/
def Respects (α : Type) [Wire α] (shape : Shape) : Prop :=
  ∀ a b : Json, Alike shape (some a) (some b) → decode α a = decode α b

theorem Alike.isSome_eq {shape : Shape} {a b : Option Json} (h : Alike shape a b) :
    a.isSome = b.isSome := by
  cases h <;> rfl

theorem Alike.both_or_neither {shape : Shape} {a b : Option Json} (h : Alike shape a b) :
    a = none ∧ b = none ∨ ∃ x y, a = some x ∧ b = some y ∧ Alike shape (some x) (some y) := by
  cases a with
  | none =>
    cases h
    exact Or.inl ⟨rfl, rfl⟩
  | some x =>
    cases b with
    | none => cases h
    | some y => exact Or.inr ⟨x, y, rfl, rfl, h⟩

theorem Alike.eq_null_iff {shape : Shape} {a b : Json} (h : Alike shape (some a) (some b)) :
    a = .null ↔ b = .null := by
  cases h <;> simp

/-! ### Types that are not records -/

theorem respects_whole (α : Type) [Wire α] : Respects α .whole := by
  intro a b alike
  cases alike
  rfl

theorem TraceLevel.respects : Respects TraceLevel .setting := by
  intro a b alike
  cases alike with
  | same => rfl
  | @unknown setting other =>
    have none : TraceLevel.ofName? setting = none := by
      apply List.find?_eq_none.mpr
      intro level _ same
      rw [beq_iff_eq] at same
      subst same
      apply other
      cases level <;> decide
    show Except.ok ((default : TraceLevel).update setting) = .ok _
    rw [update, none]
    rfl

section

variable {α β : Type} {shape : Shape}

theorem Respects.option [Wire α] (h : Respects α shape) : Respects (Option α) shape := by
  intro a b alike
  by_cases null : a = .null
  · rw [null, alike.eq_null_iff.mp null]
  · have present : b ≠ .null := fun same => null (alike.eq_null_iff.mpr same)
    rw [decode_option null, decode_option present, h a b alike]

private theorem decodeAll_eq {read : Json → Except Mismatch α}
    (h : ∀ a b, Alike shape (some a) (some b) → read a = read b) {xs ys : List Json}
    (alike : ∀ i : Nat, Alike shape xs[i]? ys[i]?) : decodeAll read xs = decodeAll read ys := by
  induction xs generalizing ys with
  | nil =>
    cases ys with
    | nil => rfl
    | cons y ys => cases (alike 0).isSome_eq
  | cons x xs ih =>
    cases ys with
    | nil => cases (alike 0).isSome_eq
    | cons y ys =>
      have first : read x = read y := h x y (alike 0)
      have later : decodeAll read xs = decodeAll read ys := ih fun i => alike (i + 1)
      rw [decodeAll, decodeAll, first, later]

theorem Respects.list [Wire α] (h : Respects α shape) : Respects (List α) (.list shape) := by
  intro a b alike
  cases alike with
  | same => rfl
  | list items => exact decodeAll_eq h items

end

/-! ### Records -/

/-- What is read of a record are fields of those names, in that order. -/
structure Record.Follows {α : Type} (r : Record α) (fields : List (String × Shape)) : Prop where
  size : r.size = fields.length
  scan : ∀ {as bs : List (String × Json)},
    (∀ name shape, (name, shape) ∈ fields → Alike shape (as.lookup name) (bs.lookup name)) →
    r.scan as = r.scan bs
  walk : ∀ {xs ys : List Json} (short : Mismatch),
    (∀ (i : Nat) name shape, fields[i]? = some (name, shape) → Alike shape xs[i]? ys[i]?) →
    r.walk short xs = r.walk short ys

namespace Field

variable {α : Type} {f : Field α} {shape : Shape}

theorem find_eq (respects : ∀ a b, Alike shape (some a) (some b) → f.decode a = f.decode b)
    {as bs : List (String × Json)} (alike : Alike shape (as.lookup f.name) (bs.lookup f.name)) :
    f.find as = f.find bs := by
  unfold find
  rcases alike.both_or_neither with ⟨noneA, noneB⟩ | ⟨a, b, someA, someB, nodes⟩
  · rw [noneA, noneB]
  · rw [someA, someB]
    simp only [respects a b nodes]

theorem atPlace_eq (respects : ∀ a b, Alike shape (some a) (some b) → f.decode a = f.decode b)
    (short : Mismatch) {place : Nat} {xs ys : List Json} (alike : Alike shape xs[place]? ys[place]?) :
    f.atPlace short place xs = f.atPlace short place ys := by
  unfold atPlace
  rcases alike.both_or_neither with ⟨noneA, noneB⟩ | ⟨a, b, someA, someB, nodes⟩
  · rw [noneA, noneB]
  · rw [someA, someB]
    exact respects a b nodes

end Field

namespace Record.Follows

variable {α β : Type} {fields : List (String × Shape)}

theorem of (a : α) : (Record.of a).Follows [] :=
  ⟨rfl, fun _ => rfl, fun _ _ => rfl⟩

theorem field {r : Record (α → β)} {f : Field α} {shape : Shape} (h : r.Follows fields)
    (respects : ∀ a b, Alike shape (some a) (some b) → f.decode a = f.decode b) :
    (r.field f).Follows (fields ++ [(f.name, shape)]) where
  size := by
    simp [Record.field, h.size]
  scan := by
    intro as bs alike
    have before : r.scan as = r.scan bs :=
      h.scan fun name shape member => alike name shape (List.mem_append_left _ member)
    have last : f.find as = f.find bs :=
      Field.find_eq respects (alike f.name shape List.mem_concat_self)
    simp only [Record.field, before, last]
  walk := by
    intro xs ys short alike
    have before : r.walk short xs = r.walk short ys := by
      apply h.walk short
      intro i name shape there
      obtain ⟨inside, _⟩ := List.getElem?_eq_some_iff.mp there
      apply alike i name shape
      rw [List.getElem?_append_left inside, there]
    have place : (fields ++ [(f.name, shape)])[r.size]? = some (f.name, shape) := by
      rw [h.size, List.getElem?_concat_length]
    have last : f.atPlace short r.size xs = f.atPlace short r.size ys :=
      Field.atPlace_eq respects short (alike r.size f.name shape place)
    simp only [Record.field, before, last]

theorem ofElements_eq {r : Record α} (h : r.Follows fields) {xs ys : List Json}
    (lengths : xs.length = ys.length)
    (alike : ∀ (i : Nat) name shape, fields[i]? = some (name, shape) → Alike shape xs[i]? ys[i]?)
    (expected : Expected) : r.ofElements expected xs = r.ofElements expected ys := by
  rw [ofElements, ofElements, lengths, h.walk _ alike]

theorem respects {r : Record α} [Wire α] (h : r.Follows fields) {label : String}
    (decodes : Wire.decode = r.decode label) : Respects α (.record fields) := by
  intro a b alike
  rw [EditorRpc.decode, EditorRpc.decode, decodes]
  cases alike with
  | same => rfl
  | elements lengths items => exact h.ofElements_eq lengths items (.record label)
  | members items => rw [decode, decode, ofMembers, ofMembers, h.scan items]

end Record.Follows

/-! ### All types -/

namespace Shape

def position : Shape :=
  .record [("line", .whole), ("character", .whole)]

def range : Shape :=
  .record [("start", position), ("end", position)]

def location : Shape :=
  .record [("uri", .whole), ("range", range)]

def commandArguments : Shape :=
  .tuple [.whole, position, .list location]

def command : Shape :=
  .record [("title", .whole), ("command", .whole), ("arguments", commandArguments)]

/-- The data of a code lens are free. -/
def codeLens : Shape :=
  .record [("range", range), ("command", command), ("data", .whole)]

def textDocument : Shape :=
  .record [("uri", .whole)]

def documentParams : Shape :=
  .record [("textDocument", textDocument)]

def workspaceSymbolParams : Shape :=
  .record [("query", .whole)]

def cancelParams : Shape :=
  .record [("id", .whole)]

def clientInfo : Shape :=
  .record [("name", .whole), ("version", .whole)]

/-- The capabilities and the options are free. -/
def initializeParams : Shape :=
  .record [("processId", .whole), ("clientInfo", clientInfo), ("rootPath", .whole),
    ("rootUri", .whole), ("initializationOptions", .whole), ("capabilities", .whole),
    ("trace", .setting)]

end Shape

theorem Position.respects : Respects Position .position := by
  have follows : fields.Follows _ :=
    .field (.field (.of _) (respects_whole UInt32)) (respects_whole UInt32)
  exact follows.respects rfl

theorem Range.respects : Respects Range .range := by
  have follows : fields.Follows _ := .field (.field (.of _) Position.respects) Position.respects
  exact follows.respects rfl

theorem Location.respects : Respects Location .location := by
  have follows : fields.Follows _ :=
    .field (.field (.of _) (respects_whole DocumentUri)) Range.respects
  exact follows.respects rfl

/-- The arguments are no record: an object in their place is refused as it is. -/
theorem CommandArguments.respects : Respects CommandArguments .commandArguments := by
  have follows : fields.Follows _ := .field (.field (.field (.of _) (respects_whole DocumentUri))
    Position.respects) Location.respects.list
  intro a b alike
  cases alike with
  | same => rfl
  | tuple lengths items =>
    apply follows.ofElements_eq lengths
    intro i name shape there
    apply items i shape
    have unnamed := congrArg (Option.map Prod.snd) there
    rwa [← List.getElem?_map] at unnamed

theorem Command.respects {α : Type} [Wire α] {shape : Shape} (h : Respects α shape) :
    Respects (Command α)
      (.record [("title", .whole), ("command", .whole), ("arguments", shape)]) := by
  have follows : (fields α).Follows _ :=
    .field (.field (.field (.of _) (respects_whole String)) (respects_whole String)) h.option
  exact follows.respects rfl

theorem CodeLens.respects : Respects CodeLens .codeLens := by
  have command : Respects (Command CommandArguments) .command :=
    Command.respects CommandArguments.respects
  have follows : fields.Follows _ :=
    .field (.field (.field (.of _) Range.respects) command.option) (respects_whole (Option Json))
  exact follows.respects rfl

theorem TextDocumentIdentifier.respects : Respects TextDocumentIdentifier .textDocument := by
  have follows : fields.Follows _ := .field (.of _) (respects_whole DocumentUri)
  exact follows.respects rfl

theorem DocumentSymbolParams.respects : Respects DocumentSymbolParams .documentParams := by
  have follows : fields.Follows _ := .field (.of _) TextDocumentIdentifier.respects
  exact follows.respects rfl

theorem CodeLensParams.respects : Respects CodeLensParams .documentParams := by
  have follows : fields.Follows _ := .field (.of _) TextDocumentIdentifier.respects
  exact follows.respects rfl

theorem WorkspaceSymbolParams.respects : Respects WorkspaceSymbolParams .workspaceSymbolParams := by
  have follows : fields.Follows _ := .field (.of _) (respects_whole String)
  exact follows.respects rfl

theorem CancelParams.respects : Respects CancelParams .cancelParams := by
  have follows : fields.Follows _ := .field (.of _) (respects_whole RequestId)
  exact follows.respects rfl

theorem ClientInfo.respects : Respects ClientInfo .clientInfo := by
  have follows : fields.Follows _ :=
    .field (.field (.of _) (respects_whole String)) (respects_whole (Option String))
  exact follows.respects rfl

theorem InitializeParams.respects : Respects InitializeParams .initializeParams := by
  have follows : fields.Follows _ := .field (.field (.field (.field (.field (.field (.field (.of _)
    (respects_whole (Option UInt32))) ClientInfo.respects.option)
    (respects_whole (Option String))) (respects_whole (Option DocumentUri)))
    (respects_whole (Option Json))) (respects_whole Json)) TraceLevel.respects.option
  exact follows.respects rfl

theorem Respects.request {α : Type} [Wire α] {shape : Shape} (h : Respects α shape) :
    Respects (Request α) (.record [("id", .whole), ("params", shape)]) := by
  have follows : (Request.fields α).Follows _ :=
    .field (.field (.of _) (respects_whole RequestId)) h
  exact follows.respects rfl

end EditorRpc
