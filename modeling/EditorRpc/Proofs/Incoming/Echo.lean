import EditorRpc.Proofs.Incoming.RoundTrip

/-!
Identifiers of requests come back in the answers as they were sent. Main statements: `decode_eq_ok_iff`,
by which an identifier and its node determine each other, and `dispatch_echo`.
-/

set_option autoImplicit false
set_option relaxedAutoImplicit false

namespace EditorRpc

open Registry (RightVersion)

theorem WideInt.eq_of_value_eq {a b : WideInt} (same : a.value = b.value) : a = b := by
  obtain ⟨value, _, _⟩ := a
  obtain ⟨other, _, _⟩ := b
  obtain rfl : value = other := same
  rfl

namespace RequestId

/-- The node is an integer that a signed word of 64 bits holds, or a string. -/
def IsNode (node : Json) : Prop :=
  (∃ n : WideInt, node = .int n ∧ -9223372036854775808 ≤ n.value ∧ n.value ≤ 9223372036854775807) ∨
    ∃ s, node = .str s

theorem encode_number (n : Int64) : ∃ w : WideInt, encode (number n) = .int w ∧ w.value = n.toInt :=
  ⟨_, rfl, rfl⟩

theorem decode_eq_ok_iff {node : Json} {id : RequestId} :
    decode RequestId node = .ok id ↔ encode id = node := by
  constructor
  · intro decoded
    cases node with
    | int n =>
      have range : (if n.value < 9223372036854775808 then .ok (.number (Int64.ofInt n.value))
          else .error (.idRange n.value) : Except Mismatch RequestId) = .ok id := decoded
      split at range
      · next upper =>
        cases range
        obtain ⟨w, document, value⟩ := encode_number (Int64.ofInt n.value)
        rw [Int64.toInt_ofInt_of_le n.lower upper] at value
        rw [document, WideInt.eq_of_value_eq value]
      · cases range
    | str s =>
      cases decoded
      rfl
    | _ => cases decoded
  · rintro rfl
    exact id.readsBack

theorem isNode_encode (id : RequestId) : IsNode (encode id) := by
  cases id with
  | number n =>
    obtain ⟨w, document, value⟩ := encode_number n
    have lower := n.le_toInt
    have upper := n.toInt_lt
    exact Or.inl ⟨w, document, by omega, by omega⟩
  | text s => exact Or.inr ⟨s, rfl⟩

theorem exists_decode_iff {node : Json} : (∃ id, decode RequestId node = .ok id) ↔ IsNode node := by
  constructor
  · rintro ⟨id, decoded⟩
    rw [← decode_eq_ok_iff.mp decoded]
    exact id.isNode_encode
  · rintro (⟨n, rfl, _, upper⟩ | ⟨s, rfl⟩)
    · refine ⟨.number (Int64.ofInt n.value), ?_⟩
      have below : n.value < 9223372036854775808 := by omega
      show (if n.value < 9223372036854775808 then _ else _) = _
      rw [if_pos below]
    · exact ⟨.text s, rfl⟩

/-- The document answers a request of that identifier, with a result or with an error. -/
inductive AnsweredBy (id : RequestId) : Json → Prop
  | success {α : Type} [Wire α] (result : α) : AnsweredBy id (encode (Response.success id result))
  | failure {α : Type} [Wire α] (error : ResponseError) :
      AnsweredBy id (encode (Response.failure (some id) error : Response α))

theorem AnsweredBy.member?_id {id : RequestId} {answer : Json} (h : id.AnsweredBy answer) :
    answer.member? "id" = some (encode id) := by
  have echoed {α : Type} [Wire α] (r : Response α) (own : r.id = some id) :
      (encode r).member? "id" = some (encode id) := by
    have same : encode (some id) = encode id := rfl
    rw [member?_encode rfl, own, ← same]
    simp [List.lookup_append]
  cases h with
  | success result => exact echoed _ rfl
  | failure error => exact echoed _ rfl

end RequestId

theorem Request.member?_id_of_decode {α : Type} [Wire α] {r : Request α}
    {members : List (String × Json)} (decoded : decode (Request α) (.obj members) = .ok r) :
    members.lookup "id" = some (encode r.id) := by
  have whole : (fields α).decode "Request" (.obj members) = .ok r := decoded
  have result := Record.result_of_decode whole
  obtain ⟨_, params, before, _, rfl⟩ := Record.exists_of_result_field result
  obtain ⟨_, id, made, last, rfl⟩ := Record.exists_of_result_field before
  cases made
  obtain ⟨node, found, value⟩ := last.exists_member
  rw [found, ← RequestId.decode_eq_ok_iff.mp value]

namespace Incoming

variable {m : Incoming} {method : Method}

private theorem member?_id_of_request {α : Type} [Wire α] {wrap : Request α → Incoming}
    {members : List (String × Json)} (own : ∀ r, (wrap r).id? = some r.id)
    (decoded : (decode (Request α) (.obj members)).map wrap = .ok m) :
    ∃ id, m.id? = some id ∧ members.lookup "id" = some (encode id) := by
  obtain ⟨r, request, rfl⟩ := map_eq_ok_iff.mp decoded
  exact ⟨r.id, own r, Request.member?_id_of_decode request⟩

theorem member?_id_of_decode {members : List (String × Json)}
    (decoded : method.decode (.obj members) = .ok m) (asks : method.isNotification = false) :
    ∃ id, m.id? = some id ∧ members.lookup "id" = some (encode id) := by
  cases method with
  | cancelRequest => cases asks
  | initialized => cases asks
  | beginSession => exact member?_id_of_request (fun _ => rfl) decoded
  | documentSymbol => exact member?_id_of_request (fun _ => rfl) decoded
  | codeLens => exact member?_id_of_request (fun _ => rfl) decoded
  | codeLensResolve => exact member?_id_of_request (fun _ => rfl) decoded
  | workspaceSymbol => exact member?_id_of_request (fun _ => rfl) decoded

variable {document : Json}

theorem member?_id_of_dispatch (dispatched : Registry.defaults.dispatch document = .ok (some m))
    (asks : m.isRequest) : ∃ id, m.id? = some id ∧ document.member? "id" = some (encode id) := by
  obtain ⟨_, named, decoded⟩ := Registry.dispatch_defaults_eq_some_iff.mp dispatched
  have request : m.method.isNotification = false := by
    rw [isRequest, Bool.not_eq_true'] at asks
    exact asks
  cases document with
  | obj members => exact member?_id_of_decode decoded request
  | _ => cases named

end Incoming

theorem Method.eq_of_name_eq {a b : Method} (same : a.name = b.name) : a = b := by
  revert same
  cases a <;> cases b <;> decide

namespace Registry

variable {document : Json}

theorem dispatch_eq_none_of_id {method : Method} (version : RightVersion document)
    (named : document.member? "method" = some (.str method.name))
    (asks : method.isNotification = false)
    (odd : ∀ node, document.member? "id" = some node → ¬RequestId.IsNode node) :
    defaults.dispatch document = .ok none := by
  cases dispatched : defaults.dispatch document with
  | error f => exact absurd version (dispatch_eq_error_iff.mp dispatched).1
  | ok message =>
    cases message with
    | none => rfl
    | some m =>
      obtain ⟨_, other, _⟩ := dispatch_defaults_eq_some_iff.mp dispatched
      have text : Json.str m.method.name = .str method.name :=
        Option.some.inj (other.symm.trans named)
      have names : m.method.name = method.name := Json.str.inj text
      have request : m.isRequest := by
        rw [Incoming.isRequest, Incoming.isNotification, Method.eq_of_name_eq names, asks]
        rfl
      obtain ⟨id, _, found⟩ := Incoming.member?_id_of_dispatch dispatched request
      exact absurd id.isNode_encode (odd _ found)

/-- The answers to a request have the identifier that the document of the request has, node for node,
so requests with different nodes are never answered under the same one. An identifier is decoded from
an integer that a signed word holds and from a string, and from nothing else; a document of a request
that has anything else for an identifier, or has none, is dropped. -/
theorem dispatch_echo :
    (∀ document m, defaults.dispatch document = .ok (some m) → m.isRequest →
      ∃ id node, m.id? = some id ∧ document.member? "id" = some node ∧
        ∀ answer, id.AnsweredBy answer → answer.member? "id" = some node) ∧
    (∀ document other m n, defaults.dispatch document = .ok (some m) →
      defaults.dispatch other = .ok (some n) →
      document.member? "id" ≠ other.member? "id" →
      ∀ id id' answer answer', m.id? = some id → n.id? = some id' → id.AnsweredBy answer →
        id'.AnsweredBy answer' → answer.member? "id" ≠ answer'.member? "id") ∧
    (∀ node, (∃ id, decode RequestId node = .ok id) ↔ RequestId.IsNode node) ∧
    ∀ document (method : Method), RightVersion document →
      document.member? "method" = some (.str method.name) → method.isNotification = false →
      (∀ node, document.member? "id" = some node → ¬RequestId.IsNode node) →
      defaults.dispatch document = .ok none := by
  have echo (document : Json) (m : Incoming) (id : RequestId)
      (dispatched : defaults.dispatch document = .ok (some m)) (own : m.id? = some id) :
      document.member? "id" = some (encode id) := by
    have request : m.isRequest := by
      rw [← Incoming.isSome_id?_iff, own]
      rfl
    obtain ⟨other, same, found⟩ := Incoming.member?_id_of_dispatch dispatched request
    rw [own] at same
    cases same
    exact found
  refine ⟨?_, ?_, fun node => RequestId.exists_decode_iff, ?_⟩
  · intro document m dispatched request
    obtain ⟨id, own, found⟩ := Incoming.member?_id_of_dispatch dispatched request
    exact ⟨id, encode id, own, found, fun answer answered => answered.member?_id⟩
  · intro document other m n dispatched second different id id' answer answer' own own' first last
    rw [first.member?_id, last.member?_id, ← echo document m id dispatched own,
      ← echo other n id' second own']
    exact different
  · intro document method version named asks odd
    exact dispatch_eq_none_of_id version named asks odd

/-- The number one and its digit are different identifiers, and stay so in the answers. -/
theorem dispatch_echo_digit :
    let document (id : Json) : Json := .obj [("id", id), ("jsonrpc", .str "2.0"),
      ("method", .str "workspace/symbol"), ("params", .obj [("query", .str "")])]
    let number : Json := .int ⟨1, by decide, by decide⟩
    let message (id : RequestId) : Incoming := .workspaceSymbol ⟨id, ⟨""⟩⟩
    let answer : Json := encode (Response.success (.number 1) ([] : List Location))
    let error : Json := encode (Response.failure (some (.text "1"))
      (.ofCode .internalError "no index") : Response Json)
    defaults.dispatch (document number) = .ok (some (message (.number 1))) ∧
      defaults.dispatch (document (.str "1")) = .ok (some (message (.text "1"))) ∧
      answer.member? "id" = some number ∧ answer.member? "id" ≠ error.member? "id" ∧
      ¬RequestId.IsNode .null ∧ defaults.dispatch (document .null) = .ok none := by
  intro document number message answer error
  have first : defaults.dispatch (document number) = .ok (some (message (.number 1))) := rfl
  have second : defaults.dispatch (document (.str "1")) = .ok (some (message (.text "1"))) := rfl
  obtain ⟨echo, different, nodes, dropped⟩ := dispatch_echo
  have odd : ¬RequestId.IsNode .null := by
    rintro (⟨_, none, _⟩ | ⟨_, none⟩) <;> cases none
  refine ⟨first, second, ?_, ?_, odd, ?_⟩
  · obtain ⟨id, node, own, found, same⟩ := echo _ _ first rfl
    cases own
    cases found
    exact same answer (.success [])
  · exact different _ _ _ _ first second (by decide) _ _ answer error rfl rfl (.success [])
      (.failure _)
  · refine dropped _ .workspaceSymbol rfl rfl rfl ?_
    intro node found
    cases found
    exact odd

end Registry

end EditorRpc
