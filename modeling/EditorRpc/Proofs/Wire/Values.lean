import EditorRpc.Incoming
import EditorRpc.Outgoing
import EditorRpc.WindowMessage
import EditorRpc.Proofs.Wire.Record

/-!
What the document of a value decodes to, type by type. All values come back as they are, but for an
explicit null in a free member that may be missing: it comes back as a missing member.
-/

set_option autoImplicit false
set_option relaxedAutoImplicit false

namespace EditorRpc

/-! ### Words, texts and names -/

theorem readsBack_json (j : Json) : ReadsBack j j := rfl

theorem readsBack_string (s : String) : ReadsBack s s := rfl

private theorem readsBack_word {α : Type} [Wire α] {low high : Int} {ofWord : WideInt → α}
    {fault : WideInt → Mismatch}
    (decodes : ∀ w : WideInt, decode α (.int w) =
      if low ≤ w.value ∧ w.value < high then .ok (ofWord w) else .error (fault w))
    {x : α} {w : WideInt} (document : encode x = .int w) (lower : low ≤ w.value)
    (upper : w.value < high) (value : ofWord w = x) : ReadsBack x x := by
  rw [ReadsBack, document, decodes, if_pos ⟨lower, upper⟩, value]

theorem readsBack_uInt8 (n : UInt8) : ReadsBack n n := by
  obtain ⟨w, document, value⟩ : ∃ w : WideInt, encode n = .int w ∧ w.value = n.toNat :=
    ⟨_, rfl, rfl⟩
  have decodes (w : WideInt) : decode UInt8 (.int w) = if 0 ≤ w.value ∧ w.value < 256 then
      .ok (UInt8.ofNat w.value.toNat) else .error (.range w.value (.unsigned 8)) := rfl
  have bound := n.toNat_lt
  exact readsBack_word decodes document (by omega) (by omega) (by simp [value])

theorem readsBack_uInt32 (n : UInt32) : ReadsBack n n := by
  obtain ⟨w, document, value⟩ : ∃ w : WideInt, encode n = .int w ∧ w.value = n.toNat :=
    ⟨_, rfl, rfl⟩
  have decodes (w : WideInt) : decode UInt32 (.int w) =
      if 0 ≤ w.value ∧ w.value < 4294967296 then .ok (UInt32.ofNat w.value.toNat)
      else .error (.range w.value (.unsigned 32)) := rfl
  have bound := n.toNat_lt
  exact readsBack_word decodes document (by omega) (by omega) (by simp [value])

theorem readsBack_int32 (n : Int32) : ReadsBack n n := by
  obtain ⟨w, document, value⟩ : ∃ w : WideInt, encode n = .int w ∧ w.value = n.toInt :=
    ⟨_, rfl, rfl⟩
  have decodes (w : WideInt) : decode Int32 (.int w) =
      if -2147483648 ≤ w.value ∧ w.value < 2147483648 then .ok (Int32.ofInt w.value)
      else .error (.range w.value (.signed 32)) := rfl
  have lower := n.le_toInt
  have upper := n.toInt_lt
  exact readsBack_word decodes document (by omega) (by omega) (by rw [value, Int32.ofInt_toInt])

theorem RequestId.readsBack (id : RequestId) : ReadsBack id id := by
  cases id with
  | number n =>
    have upper : n.toInt < 9223372036854775808 := n.toInt_lt
    change (if n.toInt < 9223372036854775808 then _ else _) = _
    rw [if_pos upper, Int64.ofInt_toInt]
  | text s => rfl

theorem DocumentUri.readsBack (uri : DocumentUri) : ReadsBack uri uri := rfl

theorem TraceLevel.readsBack (level : TraceLevel) : ReadsBack level level := by
  have known : (default : TraceLevel).update level.name = level := by
    cases level <;> decide
  change Except.ok ((default : TraceLevel).update level.name) = _
  rw [known]

theorem MessageKind.readsBack (kind : MessageKind) : ReadsBack kind kind := by
  have number : (Wire.decode (encode kind.number) : Except Mismatch UInt8) = .ok kind.number :=
    readsBack_uInt8 kind.number
  have known : MessageKind.ofNumber? kind.number = some kind := by
    cases kind <;> decide
  change (Wire.decode (encode kind.number) >>= _) = _
  rw [number]
  simp only [bind, Except.bind, known]
  rfl

/-! ### Values that may be missing, and lists -/

section

variable {α : Type} [Wire α]

theorem ReadsBack.some {x y : α} (present : encode x ≠ .null) (back : ReadsBack x y) :
    ReadsBack (some x) (some y) := by
  have same : encode (Option.some x) = encode x := rfl
  have decoded : decode α (encode x) = .ok y := back
  rw [ReadsBack, same, decode_option present, decoded]
  rfl

theorem ReadsBack.option (present : ∀ x : α, encode x ≠ .null) (back : ∀ x : α, ReadsBack x x)
    (x : Option α) : ReadsBack x x := by
  cases x with
  | none => rfl
  | some x => exact (back x).some (present x)

theorem encode_list (xs : List α) : encode xs = .arr (xs.map encode) := by
  have drafts : Wire.draft xs = .list (xs.map Wire.draft) := rfl
  rw [encode, drafts, Draft.toJson_list, List.map_map]
  rfl

theorem decodeAll_map_encode (back : ∀ x : α, ReadsBack x x) (xs : List α) :
    decodeAll Wire.decode (xs.map encode) = .ok xs := by
  induction xs with
  | nil => rfl
  | cons x xs ih =>
    have first : (Wire.decode (encode x) : Except Mismatch α) = .ok x := back x
    rw [List.map_cons, decodeAll, first]
    simp only [bind, Except.bind, ih]
    rfl

theorem ReadsBack.list (back : ∀ x : α, ReadsBack x x) (xs : List α) : ReadsBack xs xs := by
  rw [ReadsBack, encode_list]
  exact decodeAll_map_encode back xs

theorem encode_list_ne_null (xs : List α) : encode xs ≠ .null := by
  rw [encode_list]
  exact Json.noConfusion

theorem encode_record_ne_null {x : α} {fields : List (String × Draft)}
    (drafts : Wire.draft x = .record fields) : encode x ≠ .null := by
  rw [encode, drafts, Draft.toJson_record]
  exact Json.noConfusion

end

theorem encode_string_ne_null (s : String) : encode s ≠ .null := Json.noConfusion

theorem encode_uInt32_ne_null (n : UInt32) : encode n ≠ .null := Json.noConfusion

theorem RequestId.encode_ne_null (id : RequestId) : encode id ≠ .null := by
  cases id <;> exact Json.noConfusion

/-- A free member that may be missing, as it comes back. -/
def settledMember (free : Option Json) : Option Json :=
  free.filter (· ≠ .null)

theorem settledMember_eq_self_iff {free : Option Json} :
    settledMember free = free ↔ free ≠ some .null := by
  cases free with
  | none => simp [settledMember]
  | some j => by_cases null : j = .null <;> simp [settledMember, null]

theorem ReadsBack.free (free : Option Json) : ReadsBack free (settledMember free) := by
  cases free with
  | none => rfl
  | some j =>
    by_cases null : j = .null
    · subst null
      rfl
    · have kept : settledMember (Option.some j) = Option.some j :=
        settledMember_eq_self_iff.mpr fun same => null (Option.some.inj same)
      rw [kept]
      exact (readsBack_json j).some null

/-! ### Places -/

theorem Position.readsBack : ∀ p : Position, ReadsBack p p
  | ⟨line, character⟩ =>
    Record.readsBack_pair rfl rfl (by decide) (readsBack_uInt32 line) (readsBack_uInt32 character)

theorem Range.readsBack : ∀ r : Range, ReadsBack r r
  | ⟨start, stop⟩ => Record.readsBack_pair rfl rfl (by decide) start.readsBack stop.readsBack

theorem Location.readsBack : ∀ l : Location, ReadsBack l l
  | ⟨uri, range⟩ => Record.readsBack_pair rfl rfl (by decide) uri.readsBack range.readsBack

/-! ### Commands and code lenses -/

theorem CommandArguments.encode_eq (a : CommandArguments) :
    encode a = .arr [encode a.uri, encode a.position, encode a.locations] :=
  Draft.toJson_list [Wire.draft a.uri, Wire.draft a.position, Wire.draft a.locations]

theorem CommandArguments.encode_ne_null (a : CommandArguments) : encode a ≠ .null := by
  rw [a.encode_eq]
  exact Json.noConfusion

theorem CommandArguments.readsBack (a : CommandArguments) : ReadsBack a a := by
  have triple : fields.Walks [encode a.uri, encode a.position, encode a.locations] a :=
    .field (.field (.field (.of _) rfl rfl a.uri.readsBack) rfl rfl a.position.readsBack) rfl rfl
      (ReadsBack.list Location.readsBack a.locations)
  have decodes (elements : List Json) :
      decode CommandArguments (.arr elements) = fields.ofElements .argumentTriple elements := rfl
  rw [ReadsBack, a.encode_eq, decodes]
  exact triple.ofElements_eq (Nat.le_refl 3) .argumentTriple

theorem Command.readsBack {α : Type} [Wire α] (present : ∀ x : α, encode x ≠ .null)
    (back : ∀ x : α, ReadsBack x x) (c : Command α) : ReadsBack c c := by
  refine Record.readsBack rfl rfl (.field (.field (.field (.of _)
    (.member rfl ?_ (readsBack_string c.title)))
    (.member rfl ?_ (readsBack_string c.command)))
    (.given rfl rfl ?_ (ReadsBack.option present back c.arguments)))
  all_goals simp [List.lookup_append]

theorem Command.encode_ne_null {α : Type} [Wire α] (c : Command α) : encode c ≠ .null :=
  encode_record_ne_null rfl

def CodeLens.settled (l : CodeLens) : CodeLens :=
  { l with data := settledMember l.data }

theorem CodeLens.readsBack (l : CodeLens) : ReadsBack l l.settled := by
  have command : ReadsBack l.command l.command :=
    ReadsBack.option Command.encode_ne_null
      (Command.readsBack CommandArguments.encode_ne_null CommandArguments.readsBack) l.command
  refine Record.readsBack rfl rfl (.field (.field (.field (.of _)
    (.member rfl ?_ l.range.readsBack)) (.given rfl rfl ?_ command))
    (.given rfl rfl ?_ (ReadsBack.free l.data)))
  all_goals simp [List.lookup_append]

/-! ### Parameters -/

theorem TextDocumentIdentifier.readsBack : ∀ d : TextDocumentIdentifier, ReadsBack d d
  | ⟨uri⟩ => Record.readsBack_single rfl rfl uri.readsBack

theorem DocumentSymbolParams.readsBack : ∀ p : DocumentSymbolParams, ReadsBack p p
  | ⟨textDocument⟩ => Record.readsBack_single rfl rfl textDocument.readsBack

theorem CodeLensParams.readsBack : ∀ p : CodeLensParams, ReadsBack p p
  | ⟨textDocument⟩ => Record.readsBack_single rfl rfl textDocument.readsBack

theorem WorkspaceSymbolParams.readsBack : ∀ p : WorkspaceSymbolParams, ReadsBack p p
  | ⟨query⟩ => Record.readsBack_single rfl rfl (readsBack_string query)

theorem CancelParams.readsBack : ∀ p : CancelParams, ReadsBack p p
  | ⟨id⟩ => Record.readsBack_single rfl rfl id.readsBack

theorem LogMessageParams.readsBack : ∀ p : LogMessageParams, ReadsBack p p
  | ⟨kind, message⟩ =>
    Record.readsBack_pair rfl rfl (by decide) kind.readsBack (readsBack_string message)

theorem ClientInfo.readsBack (c : ClientInfo) : ReadsBack c c := by
  have version := ReadsBack.option encode_string_ne_null readsBack_string c.version
  refine Record.readsBack rfl rfl (.field (.field (.of _)
    (.member rfl ?_ (readsBack_string c.name))) (.given rfl rfl ?_ version))
  all_goals simp [List.lookup_append]

def InitializeParams.settled (p : InitializeParams) : InitializeParams :=
  { p with initializationOptions := settledMember p.initializationOptions }

theorem InitializeParams.readsBack (p : InitializeParams) : ReadsBack p p.settled := by
  have processId := ReadsBack.option encode_uInt32_ne_null readsBack_uInt32 p.processId
  have clientInfo := ReadsBack.option (fun _ => encode_record_ne_null rfl) ClientInfo.readsBack
    p.clientInfo
  have rootPath := ReadsBack.option encode_string_ne_null readsBack_string p.rootPath
  have rootUri := ReadsBack.option (fun uri => encode_string_ne_null uri.raw)
    DocumentUri.readsBack p.rootUri
  have trace := ReadsBack.option (fun level => encode_string_ne_null level.name)
    TraceLevel.readsBack p.trace
  refine Record.readsBack rfl rfl (.field (.field (.field (.field (.field (.field (.field (.of _)
    (.member rfl ?_ processId)) (.given rfl rfl ?_ clientInfo)) (.given rfl rfl ?_ rootPath))
    (.member rfl ?_ rootUri)) (.given rfl rfl ?_ (ReadsBack.free p.initializationOptions)))
    (.member rfl ?_ (readsBack_json p.capabilities))) (.given rfl rfl ?_ trace))
  all_goals simp [List.lookup_append]

/-! ### Messages -/

theorem Request.readsBack {α : Type} [Wire α] (id : RequestId) {params params' : α}
    (back : ReadsBack params params') : ReadsBack (Request.mk id params) ⟨id, params'⟩ :=
  Record.readsBack_pair rfl rfl (by decide) id.readsBack back

def ResponseError.settled (e : ResponseError) : ResponseError :=
  { e with data := settledMember e.data }

theorem ResponseError.readsBack (e : ResponseError) : ReadsBack e e.settled := by
  refine Record.readsBack rfl rfl (.field (.field (.field (.of _)
    (.member rfl ?_ (readsBack_int32 e.code))) (.member rfl ?_ (readsBack_string e.message)))
    (.given rfl rfl ?_ (ReadsBack.free e.data)))
  all_goals simp [List.lookup_append]

def Response.settled (r : Response Json) : Response Json :=
  { r with result := settledMember r.result, error := r.error.map ResponseError.settled }

theorem Response.readsBack (r : Response Json) : ReadsBack r r.settled := by
  have id := ReadsBack.option RequestId.encode_ne_null RequestId.readsBack r.id
  have error : ReadsBack r.error (r.error.map ResponseError.settled) := by
    cases r.error with
    | none => rfl
    | some e => exact e.readsBack.some (encode_record_ne_null rfl)
  refine Record.readsBack rfl rfl (.field (.field (.field (.field (.of _)
    (.member rfl ?_ (readsBack_string r.version))) (.member rfl ?_ id))
    (.given rfl rfl ?_ (ReadsBack.free r.result))) (.given rfl rfl ?_ error))
  all_goals simp [List.lookup_append]

def Notification.settled (n : Notification Json) : Notification Json :=
  { n with params := settledMember n.params }

theorem Notification.readsBack (n : Notification Json) : ReadsBack n n.settled := by
  refine Record.readsBack rfl rfl (.field (.field (.field (.of _)
    (.member rfl ?_ (readsBack_string n.version))) (.member rfl ?_ (readsBack_string n.method)))
    (.given rfl rfl ?_ (ReadsBack.free n.params)))
  all_goals simp [List.lookup_append]

end EditorRpc
