import EditorRpc.Proofs.Inbox.Calls
import EditorRpc.Proofs.Registry.Dispatch

/-!
Blocks that are dropped: frames whose documents are no messages, and header blocks that give no length.
A call takes such a block and nothing else. Main statement: `readAll_insert_dropped`, by which a block
between two frames changes neither the messages nor the end of a reading.
-/

set_option autoImplicit false
set_option relaxedAutoImplicit false

namespace EditorRpc.Inbox

/-- A line that is passed over and says nothing of the length. -/
structure IdleLine (limits : Limits) (line : Bytes) : Prop extends Frame.PassedOver limits line where
  lengthless : ∀ n, ¬Frame.GivesLength (Frame.withoutReturn line) n

/-- A block of bytes that is read and makes no message, within the limits. -/
inductive DroppedBlock (registry : Registry) (limits : Limits) : Bytes → Prop
  | frame {body : Bytes} {document : Json} : 2 ≤ limits.headerLines →
      body.length ≤ limits.bodyBytes →
      (Frame.lengthLine body.length).length ≤ limits.lineBytes →
      Json.parse body = .ok document → Registry.RightVersion document →
      registry.Unresolved document → DroppedBlock registry limits (Frame.encode body)
  | headers {lines : List Bytes} {blank : Bytes} : lines.length < limits.headerLines →
      (∀ line ∈ lines, IdleLine limits line) → blank = [] ∨ blank = [0x0D] →
      blank.length < limits.lineBytes →
      DroppedBlock registry limits (Frame.wire lines ++ (blank ++ [Json.lineFeed]))

variable {registry : Registry} {limits : Limits}

theorem idleLine_of_other {line : Bytes} (one : Json.lineFeed ∉ line)
    (fits : line.length < limits.lineBytes)
    (other : Frame.HeaderLine.ofBytes limits.bodyBytes line = .other) : IdleLine limits line := by
  have admitted : ¬Frame.GivesTooMuch limits.bodyBytes (Frame.withoutReturn line) := by
    intro tooMuch
    obtain ⟨value, oversize⟩ := Frame.exists_ofBytes_eq_oversize_iff.mpr tooMuch
    rw [other] at oversize
    cases oversize
  refine ⟨⟨one, fits, ?_, admitted⟩, ?_⟩
  · intro blank
    rw [Frame.ofBytes_eq_blank_iff.mpr blank] at other
    cases other
  · intro n gives
    by_cases within : n ≤ limits.bodyBytes
    · rw [(Frame.ofBytes_eq_length_iff limits.bodyBytes_lt).mpr ⟨gives, within⟩] at other
      cases other
    · exact admitted (Or.inl ⟨n, gives, Nat.not_le.mp within⟩)

private theorem settles_headers {lines : List Bytes} {blank : Bytes}
    (room : lines.length < limits.headerLines) (idle : ∀ line ∈ lines, IdleLine limits line)
    (ends : blank = [] ∨ blank = [0x0D]) (fits : blank.length < limits.lineBytes) :
    Settles (Frame.wire lines ++ (blank ++ [Json.lineFeed])) (readMessage registry limits)
      (.ok none) := by
  have unset : Frame.LastLength limits lines none :=
    .unset fun line member n sets => (idle line member).lengthless n sets.1
  have decision : Frame.Decision limits lines (blank ++ [Json.lineFeed]) [] (.ok none) :=
    .blank room fits ends unset
  have headers := decision.settles (fun line member => (idle line member).toPassedOver)
    (Nat.one_le_of_lt fits) (not_byEnd_ok _)
  -- without a length there is no body to read, and the frame ends with its header block
  have alone : ∀ length, (.ok none : Except Stop (Option Nat)) ≠ .ok (some length) := by
    intro length same
    cases same
  have frame := Frame.read_of_headers headers alone
  rw [readMessage_eq, Frame.readDocument_eq]
  exact (frame.andThen Frame.documentOf).andThen (messageOf registry)

theorem DroppedBlock.settles {block : Bytes} (h : DroppedBlock registry limits block) :
    Settles block (readMessage registry limits) (.ok none) := by
  cases h with
  | frame lines bodyFits lineFits parsed version reason =>
    exact settles_frame lines bodyFits lineFits parsed
      (Registry.dispatch_eq_none_iff.mpr ⟨version, reason⟩)
  | headers room idle ends fits => exact settles_headers room idle ends fits

private theorem DroppedBlock.positive {block : Bytes} (h : DroppedBlock registry limits block) :
    1 ≤ limits.lineBytes := by
  cases h with
  | frame _ _ lineFits => exact Nat.le_trans (Frame.one_le_length_lengthLine _) lineFits
  | headers _ _ _ fits => exact Nat.one_le_of_lt fits

theorem Reads.readAll_append (positive : 1 ≤ limits.lineBytes) {before : Bytes}
    {results : List (Option Incoming)}
    (reads : Reads registry limits (.ofBytes before) results (.ofBytes [])) (after : Bytes)
    (ending : Ending) :
    readAll registry limits ⟨before ++ after, ending⟩ =
      ⟨results ++ (readAll registry limits ⟨after, ending⟩).results,
        (readAll registry limits ⟨after, ending⟩).stop⟩ := by
  obtain ⟨left, none, first⟩ := reads.append positive rfl after ending
  cases none
  obtain ⟨start, rest, later, stops⟩ := exists_call_readAll registry limits ⟨after, ending⟩
  exact readAll_of_reads ⟨first.trans later, stops⟩

theorem DroppedBlock.readAll_append {block : Bytes} (h : DroppedBlock registry limits block)
    (after : Bytes) (ending : Ending) :
    readAll registry limits ⟨block ++ after, ending⟩ =
      ⟨none :: (readAll registry limits ⟨after, ending⟩).results,
        (readAll registry limits ⟨after, ending⟩).stop⟩ := by
  rw [readAll_eq, h.settles after ending]

/-- A dropped block after some whole frames changes neither the messages that are read nor the stop
that ends the reading. -/
theorem readAll_insert_dropped {before block : Bytes} {results : List (Option Incoming)}
    (reads : Reads registry limits (.ofBytes before) results (.ofBytes []))
    (dropped : DroppedBlock registry limits block) (after : Bytes) (ending : Ending) :
    (readAll registry limits ⟨before ++ block ++ after, ending⟩).messages =
        (readAll registry limits ⟨before ++ after, ending⟩).messages ∧
      (readAll registry limits ⟨before ++ block ++ after, ending⟩).stop =
        (readAll registry limits ⟨before ++ after, ending⟩).stop := by
  have positive := dropped.positive
  rw [List.append_assoc, reads.readAll_append positive, reads.readAll_append positive,
    dropped.readAll_append after ending]
  constructor
  · simp only [Transcript.messages, List.filterMap_append, List.filterMap_cons, id]
  · rfl

/-- Two blocks between a frame and a cut one: a frame whose method is unknown, and a header block whose
only length is no number. -/
theorem readAll_insert_dropped_before_cut :
    let limits : Limits := ⟨2, 20, 40, by decide⟩
    let first := Utf8.ofString
      "Content-Length: 40\r\n\r\n\x7b\"jsonrpc\":\"2.0\",\"method\":\"initialized\"\x7d"
    let unknown := Frame.encode (Utf8.ofString "\x7b\"jsonrpc\":\"2.0\",\"method\":\"a\"\x7d")
    let lengthless := Frame.wire [Utf8.ofString "Content-Length: x\r"] ++ ([] ++ [Json.lineFeed])
    let cut := Utf8.ofString "Content"
    Reads .defaults limits (.ofBytes first) [some .initialized] (.ofBytes []) ∧
      DroppedBlock .defaults limits unknown ∧ DroppedBlock .defaults limits lengthless ∧
      (readAll .defaults limits ⟨first ++ unknown ++ cut, .closed⟩).messages = [.initialized] ∧
      (readAll .defaults limits ⟨first ++ lengthless ++ cut, .closed⟩).stop =
        .failed (.truncatedFrame (.inHeader 0)) := by
  intro limits first unknown lengthless cut
  have read : readMessage .defaults limits (.ofBytes first) =
      (.ok (some .initialized), .ofBytes []) := by decide +kernel
  have reads : Reads .defaults limits (.ofBytes first) [some .initialized] (.ofBytes []) :=
    .cons read (.nil _)
  have parsed : Json.parse (Utf8.ofString "\x7b\"jsonrpc\":\"2.0\",\"method\":\"a\"\x7d") =
      .ok (.obj [("jsonrpc", .str "2.0"), ("method", .str "a")]) := by decide +kernel
  have absent : (Registry.defaults.find? "a").isNone = true := by decide +kernel
  have frame : DroppedBlock .defaults limits unknown :=
    .frame (by decide) (by decide) (by decide) parsed rfl
      (.unknown rfl (Option.isNone_iff_eq_none.mp absent))
  have other : Frame.HeaderLine.ofBytes limits.bodyBytes (Utf8.ofString "Content-Length: x\r") =
      .other := by decide +kernel
  have idle : IdleLine limits (Utf8.ofString "Content-Length: x\r") :=
    idleLine_of_other (by decide) (by decide) other
  have headers : DroppedBlock .defaults limits lengthless :=
    .headers (by decide) (by simpa using idle) (Or.inl rfl) (by decide)
  have stops : readMessage .defaults limits (.ofBytes cut) =
      (.error (.failed (.truncatedFrame (.inHeader 0))), .ofBytes []) := by decide +kernel
  have tail : readAll .defaults limits ⟨cut, .closed⟩ =
      ⟨[], .failed (.truncatedFrame (.inHeader 0))⟩ := readAll_of_reads ⟨.nil _, stops⟩
  have without := reads.readAll_append (by decide) cut .closed
  rw [tail] at without
  refine ⟨reads, frame, headers, ?_, ?_⟩
  · rw [(readAll_insert_dropped reads frame cut .closed).1, without]
    rfl
  · rw [(readAll_insert_dropped reads headers cut .closed).2, without]

end EditorRpc.Inbox
