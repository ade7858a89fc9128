import EditorRpc.Proofs.Wire.Values

/-!
Encoding and decoding are inverse to each other, up to an explicit null in a free member that may be
missing. Main statement: `decode_encode`, for every type whose values travel.
-/

set_option autoImplicit false
set_option relaxedAutoImplicit false

namespace EditorRpc

/-! ### Explicit nulls -/

def CodeLens.HoldsNull (l : CodeLens) : Prop :=
  l.data = some .null

def InitializeParams.HoldsNull (p : InitializeParams) : Prop :=
  p.initializationOptions = some .null

def ResponseError.HoldsNull (e : ResponseError) : Prop :=
  e.data = some .null

def Response.HoldsNull (r : Response Json) : Prop :=
  r.result = some .null ∨ ∃ e, r.error = some e ∧ e.HoldsNull

def Notification.HoldsNull (n : Notification Json) : Prop :=
  n.params = some .null

theorem CodeLens.settled_eq_self_iff {l : CodeLens} : l.settled = l ↔ ¬l.HoldsNull := by
  cases l
  simp [settled, HoldsNull, settledMember_eq_self_iff]

theorem InitializeParams.settled_eq_self_iff {p : InitializeParams} :
    p.settled = p ↔ ¬p.HoldsNull := by
  cases p
  simp [settled, HoldsNull, settledMember_eq_self_iff]

theorem ResponseError.settled_eq_self_iff {e : ResponseError} :
    e.settled = e ↔ ¬e.HoldsNull := by
  cases e
  simp [settled, HoldsNull, settledMember_eq_self_iff]

theorem Response.settled_eq_self_iff {r : Response Json} : r.settled = r ↔ ¬r.HoldsNull := by
  obtain ⟨version, id, result, error⟩ := r
  cases error <;>
    simp [settled, HoldsNull, settledMember_eq_self_iff, ResponseError.settled_eq_self_iff]

theorem Notification.settled_eq_self_iff {n : Notification Json} :
    n.settled = n ↔ ¬n.HoldsNull := by
  cases n
  simp [settled, HoldsNull, settledMember_eq_self_iff]

/-! ### Decoded values -/

theorem Field.Yields.ne_null {f : Field (Option Json)} {free : Option Json} (h : f.Yields free)
    (decodes : f.decode = Wire.decode) (absent : f.absent = some none)
    (unreached : f.unreached ≠ some (some .null)) : free ≠ some .null := by
  rintro rfl
  obtain ⟨j, present, decoded⟩ := h.exists_decode decodes absent unreached
  cases decoded
  exact present rfl

variable {document : Json}

theorem CodeLens.not_holdsNull_of_decode {l : CodeLens}
    (decoded : decode CodeLens document = .ok l) : ¬l.HoldsNull := by
  -- the fields of the record are taken off one by one, from the last
  have yields : fields.Yields l := Record.yields_of_decode decoded
  refine yields.of_field ?_
  intro _ data yields last
  refine yields.of_field ?_
  intro _ command yields _
  refine yields.of_field ?_
  intro _ range yields _
  obtain rfl := yields.eq_of
  exact last.ne_null rfl rfl nofun

theorem InitializeParams.not_holdsNull_of_decode {p : InitializeParams}
    (decoded : decode InitializeParams document = .ok p) : ¬p.HoldsNull := by
  have yields : fields.Yields p := Record.yields_of_decode decoded
  refine yields.of_field ?_
  intro _ trace yields _
  refine yields.of_field ?_
  intro _ capabilities yields _
  refine yields.of_field ?_
  intro _ options yields free
  refine yields.of_field ?_
  intro _ rootUri yields _
  refine yields.of_field ?_
  intro _ rootPath yields _
  refine yields.of_field ?_
  intro _ clientInfo yields _
  refine yields.of_field ?_
  intro _ processId yields _
  obtain rfl := yields.eq_of
  exact free.ne_null rfl rfl nofun

theorem ResponseError.not_holdsNull_of_decode {e : ResponseError}
    (decoded : decode ResponseError document = .ok e) : ¬e.HoldsNull := by
  have yields : fields.Yields e := Record.yields_of_decode decoded
  refine yields.of_field ?_
  intro _ data yields last
  refine yields.of_field ?_
  intro _ message yields _
  refine yields.of_field ?_
  intro _ code yields _
  obtain rfl := yields.eq_of
  exact last.ne_null rfl rfl nofun

theorem Response.not_holdsNull_of_decode {r : Response Json}
    (decoded : decode (Response Json) document = .ok r) : ¬r.HoldsNull := by
  have yields : (fields Json).Yields r := Record.yields_of_decode decoded
  refine yields.of_field ?_
  intro _ error yields last
  refine yields.of_field ?_
  intro _ result yields free
  refine yields.of_field ?_
  intro _ id yields _
  refine yields.of_field ?_
  intro _ version yields _
  obtain rfl := yields.eq_of
  rintro (null | ⟨e, rfl, null⟩)
  · exact free.ne_null rfl rfl nofun null
  · obtain ⟨j, _, value⟩ := last.exists_decode rfl rfl nofun
    exact ResponseError.not_holdsNull_of_decode value null

theorem Notification.not_holdsNull_of_decode {n : Notification Json}
    (decoded : decode (Notification Json) document = .ok n) : ¬n.HoldsNull := by
  have yields : (fields Json).Yields n := Record.yields_of_decode decoded
  refine yields.of_field ?_
  intro _ params yields last
  refine yields.of_field ?_
  intro _ method yields _
  refine yields.of_field ?_
  intro _ version yields _
  obtain rfl := yields.eq_of
  exact last.ne_null rfl rfl nofun

theorem Request.exists_decode_params {α : Type} [Wire α] {r : Request α}
    (decoded : decode (Request α) document = .ok r) :
    ∃ j, decode α j = .ok r.params := by
  have yields : (fields α).Yields r := Record.yields_of_decode decoded
  refine yields.of_field ?_
  intro _ params yields last
  refine yields.of_field ?_
  intro _ id yields _
  obtain rfl := yields.eq_of
  rcases last with ⟨j, value⟩ | absent | unreached
  · exact ⟨j, value⟩
  · cases absent
  · cases unreached

/-! ### All types -/

/-- The types whose values travel. -/
inductive WireType : (α : Type) → [Wire α] → Type 1
  | requestId : WireType RequestId
  | documentUri : WireType DocumentUri
  | position : WireType Position
  | range : WireType Range
  | location : WireType Location
  | traceLevel : WireType TraceLevel
  | messageKind : WireType MessageKind
  | commandArguments : WireType CommandArguments
  | command : WireType (Command (List Json))
  | referenceCommand : WireType (Command CommandArguments)
  | codeLens : WireType CodeLens
  | textDocumentIdentifier : WireType TextDocumentIdentifier
  | documentSymbolParams : WireType DocumentSymbolParams
  | codeLensParams : WireType CodeLensParams
  | workspaceSymbolParams : WireType WorkspaceSymbolParams
  | logMessageParams : WireType LogMessageParams
  | cancelParams : WireType CancelParams
  | clientInfo : WireType ClientInfo
  | initializeParams : WireType InitializeParams
  | responseError : WireType ResponseError
  | response : WireType (Response Json)
  | notification : WireType (Notification Json)
  | request {α : Type} [Wire α] : WireType α → WireType (Request α)

namespace WireType

/-- The value as it comes back: an explicit null in a free member that may be missing is gone. -/
def settled : {α : Type} → [Wire α] → WireType α → α → α
  | _, _, codeLens, l => l.settled
  | _, _, initializeParams, p => p.settled
  | _, _, responseError, e => e.settled
  | _, _, response, r => r.settled
  | _, _, notification, n => n.settled
  | _, _, request t, r => ⟨r.id, t.settled r.params⟩
  | _, _, _, x => x

/-- The value holds an explicit null in a free member that may be missing. -/
def HoldsNull : {α : Type} → [Wire α] → WireType α → α → Prop
  | _, _, codeLens, l => l.HoldsNull
  | _, _, initializeParams, p => p.HoldsNull
  | _, _, responseError, e => e.HoldsNull
  | _, _, response, r => r.HoldsNull
  | _, _, notification, n => n.HoldsNull
  | _, _, request t, r => t.HoldsNull r.params
  | _, _, _, _ => False

variable {α : Type} [Wire α]

theorem readsBack (t : WireType α) (x : α) : ReadsBack x (t.settled x) := by
  induction t with
  | requestId => exact x.readsBack
  | documentUri => exact x.readsBack
  | position => exact x.readsBack
  | range => exact x.readsBack
  | location => exact x.readsBack
  | traceLevel => exact x.readsBack
  | messageKind => exact x.readsBack
  | commandArguments => exact x.readsBack
  | command => exact x.readsBack encode_list_ne_null (ReadsBack.list readsBack_json)
  | referenceCommand =>
    exact x.readsBack CommandArguments.encode_ne_null CommandArguments.readsBack
  | codeLens => exact x.readsBack
  | textDocumentIdentifier => exact x.readsBack
  | documentSymbolParams => exact x.readsBack
  | codeLensParams => exact x.readsBack
  | workspaceSymbolParams => exact x.readsBack
  | logMessageParams => exact x.readsBack
  | cancelParams => exact x.readsBack
  | clientInfo => exact x.readsBack
  | initializeParams => exact x.readsBack
  | responseError => exact x.readsBack
  | response => exact x.readsBack
  | notification => exact x.readsBack
  | request params ih => exact Request.readsBack x.id (ih x.params)

theorem settled_eq_self_iff (t : WireType α) (x : α) : t.settled x = x ↔ ¬t.HoldsNull x := by
  induction t with
  | codeLens => exact CodeLens.settled_eq_self_iff
  | initializeParams => exact InitializeParams.settled_eq_self_iff
  | responseError => exact ResponseError.settled_eq_self_iff
  | response => exact Response.settled_eq_self_iff
  | notification => exact Notification.settled_eq_self_iff
  | request params ih =>
    obtain ⟨id, p⟩ := x
    simp only [settled, HoldsNull, ← ih p, Request.mk.injEq, true_and]
  | _ => simp [settled, HoldsNull]

theorem readsBack_of_not_holdsNull (t : WireType α) {x : α} (free : ¬t.HoldsNull x) :
    ReadsBack x x := by
  have back : ReadsBack x (t.settled x) := t.readsBack x
  rw [(t.settled_eq_self_iff x).mpr free] at back
  exact back

theorem not_holdsNull_of_decode (t : WireType α) {x : α} {document : Json}
    (decoded : decode α document = .ok x) : ¬t.HoldsNull x := by
  induction t generalizing document with
  | codeLens => exact CodeLens.not_holdsNull_of_decode decoded
  | initializeParams => exact InitializeParams.not_holdsNull_of_decode decoded
  | responseError => exact ResponseError.not_holdsNull_of_decode decoded
  | response => exact Response.not_holdsNull_of_decode decoded
  | notification => exact Notification.not_holdsNull_of_decode decoded
  | request params ih =>
    obtain ⟨j, value⟩ := Request.exists_decode_params decoded
    exact ih value
  | _ => exact not_false

/-- A value comes back from its document, less any explicit null in a free member that may be missing;
so it comes back as it is exactly if it holds none. What was decoded holds none. -/
theorem decode_encode (t : WireType α) (x : α) :
    decode α (encode x) = .ok (t.settled x) ∧
      (decode α (encode x) = .ok x ↔ ¬t.HoldsNull x) ∧
      ∀ document, decode α document = .ok x → decode α (encode x) = .ok x := by
  have back : decode α (encode x) = .ok (t.settled x) := t.readsBack x
  have same : decode α (encode x) = .ok x ↔ ¬t.HoldsNull x := by
    rw [back, Except.ok.injEq]
    exact t.settled_eq_self_iff x
  refine ⟨back, same, ?_⟩
  intro document decoded
  exact same.mpr (t.not_holdsNull_of_decode decoded)

/-- An explicit null as the result of a response is lost. -/
theorem decode_encode_null_result :
    let response : Response Json := ⟨protocolVersion, some (.number 7), some .null, none⟩
    decode (Response Json) (encode response) = .ok { response with result := none } ∧
      decode (Response Json) (encode response) ≠ .ok response := by
  intro response
  refine ⟨(WireType.response.decode_encode response).1, ?_⟩
  intro same
  exact (WireType.response.decode_encode response).2.1.mp same (Or.inl rfl)

end WireType

end EditorRpc
