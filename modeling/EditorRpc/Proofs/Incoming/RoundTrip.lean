import EditorRpc.Proofs.Registry.Dispatch
import EditorRpc.Proofs.Wire.Symmetry

/-!
Messages and the documents that carry them. What is read of a document are the members of its message
and no others, so the registry of all methods makes the same message of every document that carries it.
Main statement: `dispatch_envelope`.
-/

set_option autoImplicit false
set_option relaxedAutoImplicit false

namespace EditorRpc

open Registry (RightVersion)

namespace Incoming

def params? : Incoming → Option Json
  | .cancelRequest p => some (encode p)
  | .beginSession r => some (encode r.params)
  | .initialized => none
  | .documentSymbol r => some (encode r.params)
  | .codeLens r => some (encode r.params)
  | .codeLensResolve r => some (encode r.params)
  | .workspaceSymbol r => some (encode r.params)

/-- The document has the members of the message, and any others. -/
structure CarriedBy (m : Incoming) (document : Json) : Prop where
  version : RightVersion document
  method : document.member? "method" = some (.str m.method.name)
  id : ∀ id, m.id? = some id → document.member? "id" = some (encode id)
  params : ∀ params, m.params? = some params → document.member? "params" = some params

/-- The document of a message. Further members have other names than its own. -/
def envelope (m : Incoming) (further : List (String × Json)) : Json :=
  .obj (Keyed.sorted (("jsonrpc", .str protocolVersion) :: ("method", .str m.method.name) ::
    ((m.id?.map fun id => ("id", encode id)).toList ++
      (m.params?.map fun params => ("params", params)).toList ++ further)))

theorem carriedBy_envelope (m : Incoming) (further : List (String × Json)) :
    m.CarriedBy (m.envelope further) := by
  constructor
  · simp [RightVersion, envelope, Json.member?, Keyed.lookup_sorted]
  · simp [envelope, Json.member?, Keyed.lookup_sorted, List.lookup_cons]
  · intro id some
    simp [envelope, Json.member?, Keyed.lookup_sorted, List.lookup_cons, some]
  · intro params some
    cases answered : m.id? <;>
      simp [envelope, Json.member?, Keyed.lookup_sorted, List.lookup_cons, some, answered]

/-- The message holds an explicit null in a free member that may be missing. -/
def HoldsNull : Incoming → Prop
  | .beginSession r => r.params.HoldsNull
  | .codeLensResolve r => r.params.HoldsNull
  | _ => False

theorem isSome_id?_iff {m : Incoming} : m.id?.isSome ↔ m.isRequest := by
  cases m <;> simp [id?, isRequest, isNotification, method, Method.isNotification]

end Incoming

theorem Request.decode_of_members {α : Type} [Wire α] {r : Request α} {document : Json}
    (id : document.member? "id" = some (encode r.id))
    (params : document.member? "params" = some (encode r.params))
    (back : ReadsBack r.params r.params) : decode (Request α) document = .ok r := by
  cases document with
  | obj members =>
    have reads : (fields α).Reads members ⟨r.id, r.params⟩ :=
      .field (.field (.of _) (.member rfl id r.id.readsBack)) (.member rfl params back)
    exact reads.decode_eq "Request"
  | _ => cases id

section

variable {document : Json} {method : Method} {m : Incoming}

theorem Method.method_of_decode (decoded : method.decode document = .ok m) :
    m.method = method := by
  cases method with
  | initialized =>
    cases decoded
    rfl
  | _ =>
    obtain ⟨_, _, rfl⟩ := map_eq_ok_iff.mp decoded
    rfl

theorem Incoming.not_holdsNull_of_decode (decoded : method.decode document = .ok m) :
    ¬m.HoldsNull := by
  cases method with
  | initialized =>
    cases decoded
    exact not_false
  | beginSession =>
    obtain ⟨_, request, rfl⟩ := map_eq_ok_iff.mp decoded
    exact (WireType.request .initializeParams).not_holdsNull_of_decode request
  | codeLensResolve =>
    obtain ⟨_, request, rfl⟩ := map_eq_ok_iff.mp decoded
    exact (WireType.request .codeLens).not_holdsNull_of_decode request
  | _ =>
    obtain ⟨_, _, rfl⟩ := map_eq_ok_iff.mp decoded
    exact not_false

private theorem request_of_carriedBy {α : Type} [Wire α] (t : WireType α) {r : Request α}
    {wrap : Request α → Incoming} (carried : (wrap r).CarriedBy document)
    (id : (wrap r).id? = some r.id) (params : (wrap r).params? = some (encode r.params))
    (free : ¬t.HoldsNull r.params) :
    (decode (Request α) document).map wrap = .ok (wrap r) := by
  have back : ReadsBack r.params r.params := t.readsBack_of_not_holdsNull free
  have read : decode (Request α) document = .ok r :=
    Request.decode_of_members (carried.id r.id id) (carried.params _ params) back
  rw [read]
  rfl

theorem Incoming.decode_of_carriedBy (carried : m.CarriedBy document) (free : ¬m.HoldsNull) :
    m.method.decode document = .ok m := by
  cases m with
  | cancelRequest p =>
    have found : document.member? "params" = some (encode p) := carried.params _ rfl
    have back : decode CancelParams (encode p) = .ok p := p.readsBack
    have read : decodeMember CancelParams document "params" = .ok p := by
      rw [decodeMember, found]
      exact back
    exact map_eq_ok_iff.mpr ⟨p, read, rfl⟩
  | initialized => rfl
  | beginSession r => exact request_of_carriedBy .initializeParams carried rfl rfl free
  | documentSymbol r => exact request_of_carriedBy .documentSymbolParams carried rfl rfl free
  | codeLens r => exact request_of_carriedBy .codeLensParams carried rfl rfl free
  | codeLensResolve r => exact request_of_carriedBy .codeLens carried rfl rfl free
  | workspaceSymbol r => exact request_of_carriedBy .workspaceSymbolParams carried rfl rfl free

namespace Registry

theorem dispatch_defaults_eq_some_iff :
    defaults.dispatch document = .ok (some m) ↔
      RightVersion document ∧ document.member? "method" = some (.str m.method.name) ∧
        m.method.decode document = .ok m := by
  rw [dispatch_eq_some_iff]
  constructor
  · rintro ⟨version, name, decoder, named, found, decoded⟩
    obtain ⟨method, rfl, rfl⟩ := find?_defaults_eq_some_iff.mp found
    have read : method.decode document = .ok m := decoderOf_eq_ok_iff.mp decoded
    obtain rfl := Method.method_of_decode read
    exact ⟨version, named, read⟩
  · rintro ⟨version, named, read⟩
    exact ⟨version, m.method.name, decoderOf m.method, named,
      find?_defaults_eq_some_iff.mpr ⟨m.method, rfl, rfl⟩, decoderOf_eq_ok_iff.mpr read⟩

end Registry

namespace Incoming

theorem dispatch_of_carriedBy (carried : m.CarriedBy document) (free : ¬m.HoldsNull) :
    Registry.defaults.dispatch document = .ok (some m) :=
  Registry.dispatch_defaults_eq_some_iff.mpr
    ⟨carried.version, carried.method, decode_of_carriedBy carried free⟩

/-- A message comes back from its document, whatever further members that has, exactly if it holds no
explicit null in a free member that may be missing. A document of which a message was made names the
version and the method, and the message also comes back from its own document. -/
theorem dispatch_envelope (m : Incoming) (further : List (String × Json)) :
    (Registry.defaults.dispatch (m.envelope further) = .ok (some m) ↔ ¬m.HoldsNull) ∧
      ∀ document, Registry.defaults.dispatch document = .ok (some m) →
        RightVersion document ∧ document.member? "method" = some (.str m.method.name) ∧
          (m.id?.isSome ↔ m.isRequest) ∧
          Registry.defaults.dispatch (m.envelope further) = .ok (some m) := by
  have carried : m.CarriedBy (m.envelope further) := m.carriedBy_envelope further
  refine ⟨⟨?_, fun free => dispatch_of_carriedBy carried free⟩, ?_⟩
  · intro dispatched
    obtain ⟨_, _, read⟩ := Registry.dispatch_defaults_eq_some_iff.mp dispatched
    exact not_holdsNull_of_decode read
  · intro document dispatched
    obtain ⟨version, named, read⟩ := Registry.dispatch_defaults_eq_some_iff.mp dispatched
    have free : ¬m.HoldsNull := not_holdsNull_of_decode read
    exact ⟨version, named, isSome_id?_iff, dispatch_of_carriedBy carried free⟩

/-- A lens to resolve, with a command and with data that are not null but hold one. The further member
of the name of the parameters is not read. -/
theorem dispatch_envelope_lens :
    let command : Command CommandArguments :=
      ⟨"2 references", "show", some ⟨⟨"file:///a"⟩, ⟨1, 2⟩, [⟨⟨"file:///b"⟩, ⟨⟨3, 4⟩, ⟨3, 5⟩⟩⟩]⟩⟩
    let lens : CodeLens := ⟨⟨⟨1, 2⟩, ⟨1, 7⟩⟩, some command, some (.arr [.null])⟩
    let message : Incoming := .codeLensResolve ⟨.text "7", lens⟩
    let document := message.envelope [("params", .null), ("trace", .str "off")]
    Registry.defaults.dispatch document = .ok (some message) ∧ RightVersion document := by
  intro command lens message document
  have free : ¬message.HoldsNull := nofun
  have sent : Registry.defaults.dispatch document = .ok (some message) :=
    (dispatch_envelope message _).1.mpr free
  exact ⟨sent, ((dispatch_envelope message []).2 document sent).1⟩

end Incoming

end

end EditorRpc
