import EditorRpc.Proofs.Connection.Refinement
import EditorRpc.Proofs.Incoming.Echo
import EditorRpc.Proofs.Stream.Sink
import EditorRpc.Proofs.Wire.Written

/-!
Two connections that talk to each other. Of all that one of them can send, the other hears the end of
the handshake and cancellations; everything else is dropped, and nothing ends its loop but the end of
the stream. Main statement: `receive_of_sendAll`.
-/

set_option autoImplicit false
set_option relaxedAutoImplicit false

namespace EditorRpc

open Registry (RightVersion)

/-! ### What a peer makes of a message -/

def heardOf (method : String) (params : Json) : Option Incoming :=
  if method = Method.initialized.name then some .initialized
  else if method = Method.cancelRequest.name then
    (decode CancelParams params).toOption.map .cancelRequest
  else none

section

variable {α : Type} [Wire α]

namespace Registry

theorem dispatch_response (r : Response α) (version : r.version = protocolVersion) :
    defaults.dispatch (encode r) = .ok none := by
  have right : RightVersion (encode r) := by
    rw [RightVersion, member?_encode rfl, version]
    simp [List.lookup_append]
    rfl
  have silent : (encode r).member? "method" = none := by
    rw [member?_encode rfl]
    simp [List.lookup_append]
  exact dispatch_eq_none_iff.mpr ⟨right, .noMethod silent⟩

variable (method : String) (params : Option α)

private theorem rightVersion_notification :
    RightVersion (encode (Notification.of method params)) := by
  rw [RightVersion, member?_encode rfl]
  simp [List.lookup_append]
  rfl

private theorem method_notification :
    (encode (Notification.of method params)).member? "method" = some (.str method) := by
  rw [member?_encode rfl]
  simp [List.lookup_append]
  rfl

private theorem id_notification :
    (encode (Notification.of method params)).member? "id" = none := by
  rw [member?_encode rfl]
  simp [List.lookup_append]

private theorem decode_cancelRequest :
    Method.cancelRequest.decode (encode (Notification.of method params)) =
      (decode CancelParams (encode params)).map .cancelRequest := by
  have given : ((encode (Notification.of method params)).member? "params").getD .null =
      encode params := by
    rw [member?_encode rfl]
    cases params <;> simp [List.lookup_append, Notification.of]
    · rfl
    · rfl
  show (Wire.decode (((encode (Notification.of method params)).member? "params").getD
    .null)).map _ = _
  rw [given]
  rfl

private theorem heardOf_eq_none {method : String} (params : Json)
    (start : method ≠ Method.initialized.name) (cancel : method ≠ Method.cancelRequest.name) :
    heardOf method params = none := by
  rw [heardOf, if_neg start, if_neg cancel]

/-- A notification is heard if it ends the handshake or cancels a request. One that is named like a
request has no identifier and is dropped. -/
theorem dispatch_notification :
    defaults.dispatch (encode (Notification.of method params)) =
      .ok (heardOf method (encode params)) := by
  have version := rightVersion_notification method params
  have named := method_notification method params
  by_cases known : ∃ m : Method, m.name = method
  · obtain ⟨m, rfl⟩ := known
    by_cases asks : m.isNotification = false
    · have start : m.name ≠ Method.initialized.name := by
        intro same
        rw [Method.eq_of_name_eq same] at asks
        cases asks
      have cancel : m.name ≠ Method.cancelRequest.name := by
        intro same
        rw [Method.eq_of_name_eq same] at asks
        cases asks
      have odd : ∀ node, (encode (Notification.of m.name params)).member? "id" = some node →
          ¬RequestId.IsNode node := by
        intro node found
        rw [id_notification] at found
        cases found
      rw [heardOf_eq_none _ start cancel]
      exact dispatch_eq_none_of_id version named asks odd
    · have found : defaults.find? m.name = some (decoderOf m) :=
        find?_defaults_eq_some_iff.mpr ⟨m, rfl, rfl⟩
      rw [dispatch_of_rightVersion version, Json.stringMember?_eq_some_iff.mpr named,
        Option.bind_some, found, Option.bind_some, decoderOf]
      cases m with
      | initialized => rfl
      | cancelRequest =>
        rw [decode_cancelRequest, heardOf, if_neg (by decide), if_pos rfl]
        cases decode CancelParams (encode params) <;> rfl
      | _ => exact absurd rfl asks
  · have start : method ≠ Method.initialized.name := fun same => known ⟨_, same.symm⟩
    have cancel : method ≠ Method.cancelRequest.name := fun same => known ⟨_, same.symm⟩
    have unknown : defaults.find? method = none := by
      cases found : defaults.find? method with
      | none => rfl
      | some decoder =>
        obtain ⟨m, same, _⟩ := find?_defaults_eq_some_iff.mp found
        exact absurd ⟨m, same⟩ known
    rw [heardOf_eq_none _ start cancel]
    exact dispatch_eq_none_iff.mpr ⟨version, .unknown named unknown⟩

end Registry

end

namespace Connection

inductive Sending : Type 1
  | response {α : Type} [Wire α] [Wire.Unambiguous α] (id : RequestId) (result : α)
  | error (id : Option RequestId) (error : ResponseError)
  | notification {α : Type} [Wire α] [Wire.Unambiguous α] (method : String) (params : Option α)
  | window (display : Display) (kind : MessageKind) (message : String)

namespace Sending

def perform (c : Connection) : Sending → Except Failure Unit × Connection
  | @response _ _ _ id result => c.sendResponse id result
  | error id e => c.sendError id e
  | @notification _ _ _ method params => c.sendNotification method params
  | window display kind message => c.sendWindowMessage display kind message

def draft : Sending → Draft
  | @response _ _ _ id result => Wire.draft (Response.success id result)
  | error id e => Wire.draft (Response.failure id e : Response Json)
  | @notification _ _ _ method params => Wire.draft (Notification.of method params)
  | window display kind message =>
    Wire.draft (WindowMessage.toNotification ⟨display, ⟨kind, message⟩⟩)

def document (s : Sending) : Json :=
  s.draft.toJson

def body (s : Sending) : Bytes :=
  s.draft.written.octets

/-- What a peer hears of the message. -/
def heard : Sending → Option Incoming
  | @notification _ _ _ method params => heardOf method (encode params)
  | _ => none

theorem unambiguous_draft (s : Sending) : s.draft.Unambiguous := by
  cases s <;> exact Wire.Unambiguous.draft _

theorem dispatch_document (s : Sending) :
    Registry.defaults.dispatch s.document = .ok s.heard := by
  cases s with
  | response id result => exact Registry.dispatch_response _ rfl
  | error id e => exact Registry.dispatch_response _ rfl
  | notification method params => exact Registry.dispatch_notification method params
  | window display kind message =>
    have dropped := Registry.dispatch_notification display.method
      (some (⟨kind, message⟩ : LogMessageParams))
    have start : display.method ≠ Method.initialized.name := by cases display <;> decide
    have cancel : display.method ≠ Method.cancelRequest.name := by cases display <;> decide
    rw [Registry.heardOf_eq_none _ start cancel] at dropped
    exact dropped

end Sending

def sendAll : List Sending → Connection → List (Except Failure Unit) × Connection
  | [], c => ([], c)
  | s :: sends, c =>
    let (result, after) := s.perform c
    let (later, last) := sendAll sends after
    (result :: later, last)

variable {c : Connection}

theorem sink_giveWay (c : Connection) : c.giveWay.sink = c.sink := by
  unfold giveWay
  split
  · rfl
  · unfold Connection.start
    split <;> rfl

theorem Sending.perform_eq (s : Sending) (takes : c.sink.room = none) :
    (s.perform c).1 = .ok () ∧ (s.perform c).2.sink.room = none ∧
      (s.perform c).2.sink.stored = c.sink.stored ++ Frame.encode s.body := by
  have sent : (s.perform c).1 = (c.giveWay.sink.write (Frame.encode s.body)).1 ∧
      (s.perform c).2.sink = (c.giveWay.sink.write (Frame.encode s.body)).2 := by
    cases s <;> exact ⟨rfl, rfl⟩
  have fits : Sink.Fits c.sink.room (Frame.encode s.body).length := by
    rw [takes]
    nofun
  rw [sent.1, sent.2, sink_giveWay, Sink.snd_write, Sink.fitting_of_fits fits, takes]
  exact ⟨Sink.fst_write_of_fits fits, rfl, rfl⟩

theorem sendAll_eq (sends : List Sending) (takes : c.sink.room = none) :
    (sendAll sends c).1 = sends.map (fun _ => .ok ()) ∧
      (sendAll sends c).2.sink.stored =
        c.sink.stored ++ sends.flatMap fun s => Frame.encode s.body := by
  induction sends generalizing c with
  | nil => exact ⟨rfl, (List.append_nil _).symm⟩
  | cons s sends ih =>
    obtain ⟨sent, room, stored⟩ := s.perform_eq takes
    obtain ⟨results, all⟩ := ih room
    rw [sendAll]
    dsimp only
    rw [sent, results, all, stored, List.flatMap_cons, List.append_assoc]
    exact ⟨rfl, rfl⟩

/-! ### What the peer receives -/

/-- The message is read back: its document is in order, has no floating point numbers and nests no
deeper than is read, and its body is within the limits by default. -/
structure Sending.Readable (s : Sending) : Prop where
  ordered : s.document.Ordered
  plain : s.document.Plain Json.nestingLimit
  fits : s.body.length ≤ (default : Limits).bodyBytes

theorem Sending.Readable.settles {s : Sending} (h : s.Readable) :
    Settles (Frame.encode s.body) (Inbox.readMessage .defaults default) (.ok s.heard) := by
  have parsed : Json.parse s.body = .ok s.document :=
    s.unambiguous_draft.parse_written h.ordered h.plain
  have bound : (default : Limits).bodyBytes < 100000000 := by decide
  have line := Frame.length_lengthLine_le (Nat.lt_of_le_of_lt h.fits bound)
  have lineFits : (Frame.lengthLine s.body.length).length ≤ (default : Limits).lineBytes :=
    Nat.le_trans line (by decide)
  exact Inbox.settles_frame (by decide) h.fits lineFits parsed s.dispatch_document

theorem reads_sends {sends : List Sending} (readable : ∀ s ∈ sends, s.Readable) :
    Inbox.Reads .defaults default (.ofBytes (sends.flatMap fun s => Frame.encode s.body))
      (sends.map Sending.heard) (.ofBytes []) := by
  induction sends with
  | nil => exact .nil _
  | cons s sends ih =>
    obtain ⟨first, others⟩ := List.forall_mem_cons.mp readable
    have read := first.settles (sends.flatMap fun s => Frame.encode s.body) .closed
    rw [List.flatMap_cons, List.map_cons]
    exact .cons read (ih others)

private theorem map_range_getElem? (messages : List Incoming) :
    ((List.range messages.length).map fun i => (.ok messages[i]? : Except Stop (Option Incoming))) =
      messages.map fun message => .ok (some message) := by
  apply List.ext_getElem
  · simp
  · intro i _ inside
    simp

/-- Send to a sink that takes everything, and let a peer read what it took. All calls succeed. The peer
receives, in order, the end of the handshake for each notification of that name and the cancellation
for each notification that carries one, and nothing else; then its loop ends well. -/
theorem receive_of_sendAll (c : Connection) (takes : c.sink.room = none) (sends : List Sending)
    (readable : ∀ s ∈ sends, s.Readable) (sink : Sink) (cancellation : String) :
    let run := sendAll sends c
    let heard := sends.filterMap Sending.heard
    run.1 = sends.map (fun _ => .ok ()) ∧
    ∃ bytes, run.2.sink.stored = c.sink.stored ++ bytes ∧
      let peer := of .defaults default (.ofBytes bytes) sink cancellation
      (readTimes receive (heard.length + 1) peer).1 =
        heard.map (fun message => .ok (some message)) ++ [.ok none] ∧
      (readTimes receive (heard.length + 1) peer).2.join = .ok () ∧
      peer.incoming.1 = heard ∧ peer.incoming.2.join = .ok () := by
  intro run heard
  obtain ⟨results, stored⟩ := sendAll_eq sends takes
  refine ⟨results, _, stored, ?_⟩
  intro peer
  have ends : Inbox.readMessage .defaults default (.ofBytes []) =
      (.error (.failed (.io .endOfStream)), .ofBytes []) :=
    Inbox.readMessage_nil .defaults (by decide)
  have messages : (sends.map Sending.heard).filterMap id = heard := by
    rw [List.filterMap_map]
    rfl
  have awaits : peer.Awaits heard (.ok ()) := by
    rw [← messages]
    exact awaits_of_call ⟨reads_sends readable, ends⟩ sink cancellation
  obtain ⟨received, last⟩ := awaits.readTimes_receive (heard.length + 1)
  obtain ⟨stream, drained⟩ := awaits.incoming_eq
  refine ⟨?_, (last (Nat.le_add_left 1 _)).join_eq, stream, drained.join_eq⟩
  rw [received, List.range_succ, List.map_append, map_range_getElem?, List.map_singleton,
    List.getElem?_eq_none (Nat.le_refl _)]

/-- The end of the handshake, a response, and a cancellation. -/
theorem receive_of_sendAll_cancelled :
    let fault : IoFault := ⟨.brokenPipe, "no space left"⟩
    let c := of .defaults default (.ofBytes []) (.ofRoom none fault)
    let sends : List Sending := [.notification "initialized" (none : Option Json),
      .response (.number 1) ([] : List Location),
      .notification "$/cancelRequest" (some (⟨.text "7"⟩ : CancelParams))]
    c.sink.room = none ∧ (∀ s ∈ sends, s.Readable) ∧
      (sendAll sends c).1 = [.ok (), .ok (), .ok ()] ∧
      (readTimes receive 3 (of .defaults default (.ofBytes (sendAll sends c).2.sink.stored)
        (.ofRoom none fault))).1 =
          [.ok (some .initialized), .ok (some (.cancelRequest ⟨.text "7"⟩)), .ok none] := by
  intro fault c sends
  have started : (Sending.notification "initialized" (none : Option Json)).Readable := by
    have document : (Sending.notification "initialized" (none : Option Json)).document =
        .obj [("jsonrpc", .str "2.0"), ("method", .str "initialized")] := by decide +kernel
    refine ⟨?_, ?_, by decide +kernel⟩
    · rw [document, Json.ordered_obj_iff]
      exact ⟨by decide +kernel, by simp⟩
    · rw [document]
      simp [Json.nestingLimit]
  have answered : (Sending.response (.number 1) ([] : List Location)).Readable := by
    have document : (Sending.response (.number 1) ([] : List Location)).document =
        .obj [("id", .int ⟨1, by decide, by decide⟩), ("jsonrpc", .str "2.0"),
          ("result", .arr [])] := by decide +kernel
    refine ⟨?_, ?_, by decide +kernel⟩
    · rw [document, Json.ordered_obj_iff]
      exact ⟨by decide +kernel, by simp⟩
    · rw [document]
      simp [Json.nestingLimit]
  have cancelled : (Sending.notification "$/cancelRequest"
      (some (⟨.text "7"⟩ : CancelParams))).Readable := by
    have document : (Sending.notification "$/cancelRequest"
        (some (⟨.text "7"⟩ : CancelParams))).document =
          .obj [("jsonrpc", .str "2.0"), ("method", .str "$/cancelRequest"),
            ("params", .obj [("id", .str "7")])] := by decide +kernel
    refine ⟨?_, ?_, by decide +kernel⟩
    · rw [document, Json.ordered_obj_iff]
      exact ⟨by decide +kernel, by simp [Keyed.Ascending]⟩
    · rw [document]
      simp [Json.nestingLimit]
  have readable : ∀ s ∈ sends, s.Readable := by
    intro s member
    simp only [sends, List.mem_cons, List.not_mem_nil, or_false] at member
    rcases member with rfl | rfl | rfl
    · exact started
    · exact answered
    · exact cancelled
  obtain ⟨results, bytes, stored, received, _⟩ :=
    receive_of_sendAll c rfl sends readable (.ofRoom none fault) ""
  have heard : sends.filterMap Sending.heard = [.initialized, .cancelRequest ⟨.text "7"⟩] := by
    decide +kernel
  have all : (sendAll sends c).2.sink.stored = bytes := stored
  rw [heard] at received
  rw [all]
  exact ⟨rfl, readable, results, received⟩

end Connection

end EditorRpc
