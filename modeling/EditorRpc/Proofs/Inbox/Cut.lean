import EditorRpc.Proofs.Inbox.Calls

/-!
A stream that is cut somewhere. The calls before the cut give what they gave, the cut itself is
reported as the end of the stream or as a truncated frame, and nothing is made of a part of a frame.
Main statement: `readAll_cut`.
-/

set_option autoImplicit false
set_option relaxedAutoImplicit false

namespace EditorRpc.Inbox

variable {registry : Registry} {limits : Limits}

theorem Reads.of_append (positive : 1 ≤ limits.lineBytes) {s rest : Source}
    {results : List (Option Incoming)} (h : Reads registry limits s results rest)
    {before after : Bytes} (whole : s = .ofBytes (before ++ after))
    (inside : after.length ≤ rest.bytes.length) :
    ∃ left, rest = .ofBytes (left ++ after) ∧
      Reads registry limits (.ofBytes before) results (.ofBytes left) := by
  induction h generalizing before with
  | nil s => exact ⟨before, whole, .nil _⟩
  | cons first others ih =>
    subst whole
    obtain ⟨left, rfl, reads⟩ := (readMessage_delimited registry positive).of_append first
      (not_byEnd_ok _) (Nat.le_trans inside others.length_le)
    obtain ⟨last, rfl, more⟩ := ih rfl inside
    exact ⟨last, rfl, .cons reads more⟩

theorem Reads.closed (positive : 1 ≤ limits.lineBytes) {bytes : Bytes} {rest : Source}
    {results : List (Option Incoming)} (h : Reads registry limits (.ofBytes bytes) results rest) :
    ∃ left, rest = .ofBytes left := by
  obtain ⟨left, same, _⟩ := h.append positive rfl [] .closed
  exact ⟨left, same⟩

/-! ### A call and a cut -/

section

variable {before after : Bytes} {results : List (Option Incoming)} {start rest : Source}
  {result : Except Stop (Option Incoming)}

theorem Call.of_append (positive : 1 ≤ limits.lineBytes)
    (call : Call registry limits (.ofBytes (before ++ after)) results start result rest)
    (own : ¬ByEnd result) (inside : after.length ≤ rest.bytes.length) :
    ∃ left unread, start = .ofBytes (left ++ after) ∧ rest = .ofBytes (unread ++ after) ∧
      Call registry limits (.ofBytes before) results (.ofBytes left) result
        (.ofBytes unread) := by
  obtain ⟨reads, last⟩ := call
  obtain ⟨opened, rfl⟩ := reads.closed positive
  obtain ⟨taken, unread, rfl, rfl, _⟩ :=
    (readMessage_delimited registry positive).settles last own
  have later : after.length ≤ (taken ++ unread).length := by
    rw [List.length_append]
    exact Nat.le_trans inside (Nat.le_add_left _ _)
  obtain ⟨left, same, part⟩ := reads.of_append positive rfl later
  rw [same] at last
  obtain ⟨remaining, whole, again⟩ :=
    (readMessage_delimited registry positive).of_append last own inside
  exact ⟨left, remaining, same, whole, part, again⟩

/-- If the stream ends where a call starts, the calls before it are followed by the end of the
stream. -/
theorem readAll_of_cut_between (lines : 1 ≤ limits.headerLines) (positive : 1 ≤ limits.lineBytes)
    (reads : Reads registry limits (.ofBytes (before ++ after)) results start)
    (here : start.bytes.length = after.length) :
    readAll registry limits (.ofBytes before) = ⟨results, .failed (.io .endOfStream)⟩ := by
  obtain ⟨left, rfl, part⟩ := reads.of_append positive rfl (Nat.le_of_eq here.symm)
  have none : left = [] := by
    have lengths : (left ++ after).length = after.length := here
    rw [List.length_append] at lengths
    exact List.eq_nil_of_length_eq_zero (by omega)
  subst none
  exact readAll_of_reads ⟨part, readMessage_nil registry lines⟩

/-- If the stream ends within the bytes that a call takes, the calls before it are followed by a
truncated frame. -/
theorem readAll_of_cut_within (positive : 1 ≤ limits.lineBytes)
    (call : Call registry limits (.ofBytes (before ++ after)) results start result rest)
    (begun : after.length < start.bytes.length) (beyond : rest.bytes.length < after.length) :
    ∃ where?, readAll registry limits (.ofBytes before) =
      ⟨results, .failed (.truncatedFrame where?)⟩ := by
  obtain ⟨reads, last⟩ := call
  obtain ⟨left, rfl, part⟩ := reads.of_append positive rfl (Nat.le_of_lt begun)
  have some : left ≠ [] := by
    rintro rfl
    exact Nat.lt_irrefl _ begun
  obtain ⟨where?, cut⟩ := (readMessage_delimited registry positive).truncated last some beyond
  exact ⟨where?, readAll_of_reads ⟨part, cut⟩⟩

theorem messages_prefix (positive : 1 ≤ limits.lineBytes) (before after : Bytes) :
    (readAll registry limits (.ofBytes before)).messages <+:
      (readAll registry limits (.ofBytes (before ++ after))).messages := by
  obtain ⟨start, rest, reads, _⟩ := exists_call_readAll registry limits (.ofBytes before)
  obtain ⟨left, _, whole⟩ := reads.append positive rfl after .closed
  exact whole.results_prefix.filterMap id

theorem isEof_iff (lines : 1 ≤ limits.headerLines) (positive : 1 ≤ limits.lineBytes)
    (before after : Bytes) :
    (∃ f, (readAll registry limits (.ofBytes before)).stop = .failed f ∧ f.isEof = true) ↔
      ∃ results, Reads registry limits (.ofBytes (before ++ after)) results (.ofBytes after) := by
  constructor
  · rintro ⟨f, stop, eof⟩
    obtain ⟨start, rest, reads, stops⟩ := exists_call_readAll registry limits (.ofBytes before)
    obtain ⟨left, rfl, whole⟩ := reads.append positive rfl after .closed
    rw [stop] at stops
    have none := (readMessage_delimited registry positive).eq_nil_of_isEof stops eof
    subst none
    exact ⟨_, whole⟩
  · rintro ⟨results, reads⟩
    rw [readAll_of_cut_between lines positive reads rfl]
    exact ⟨_, rfl, rfl⟩

end

/-- Cut a stream anywhere. A call that takes only bytes before the cut, and is not caused by the end,
is the same call of the cut stream; a cut where a call starts is reported as the end of the stream, and
a cut within the bytes of a call as a truncated frame. So each result from the cut stream comes from
the same bytes of the whole one, its messages are the first ones of the whole, and the end of the
stream is reported exactly if the cut is between two frames. -/
theorem readAll_cut (registry : Registry) (limits : Limits) (lines : 1 ≤ limits.headerLines)
    (positive : 1 ≤ limits.lineBytes) (before after : Bytes) :
    (∀ results start result rest,
      Call registry limits (.ofBytes (before ++ after)) results start result rest →
      (¬ByEnd result → after.length ≤ rest.bytes.length →
        ∃ left unread, start = .ofBytes (left ++ after) ∧ rest = .ofBytes (unread ++ after) ∧
          Call registry limits (.ofBytes before) results (.ofBytes left) result
            (.ofBytes unread)) ∧
      (start.bytes.length = after.length →
        readAll registry limits (.ofBytes before) = ⟨results, .failed (.io .endOfStream)⟩) ∧
      (after.length < start.bytes.length → rest.bytes.length < after.length →
        ∃ where?, readAll registry limits (.ofBytes before) =
          ⟨results, .failed (.truncatedFrame where?)⟩)) ∧
    (∀ results start, Reads registry limits (.ofBytes before) results start →
      ∃ left, start = .ofBytes left ∧
        Reads registry limits (.ofBytes (before ++ after)) results (.ofBytes (left ++ after))) ∧
    (readAll registry limits (.ofBytes before)).messages <+:
      (readAll registry limits (.ofBytes (before ++ after))).messages ∧
    ((∃ f, (readAll registry limits (.ofBytes before)).stop = .failed f ∧ f.isEof = true) ↔
      ∃ results,
        Reads registry limits (.ofBytes (before ++ after)) results (.ofBytes after)) := by
  refine ⟨?_, ?_, messages_prefix positive before after, isEof_iff lines positive before after⟩
  · intro results start result rest call
    exact ⟨call.of_append positive, readAll_of_cut_between lines positive call.1,
      readAll_of_cut_within positive call⟩
  · intro results start reads
    exact reads.append positive rfl after .closed

/-- A message, and after it a frame that ends within its body or is not there at all. -/
theorem readAll_cut_second_frame :
    let limits : Limits := ⟨3, 30, 40, by decide⟩
    let message := Utf8.ofString
      "Content-Length: 40\r\n\r\n\x7b\"jsonrpc\":\"2.0\",\"method\":\"initialized\"\x7d"
    let begun := Utf8.ofString "Content-Length: 2\r\n\r\n\x7b"
    1 ≤ limits.headerLines ∧ 1 ≤ limits.lineBytes ∧
      readAll .defaults limits (.ofBytes message) =
        ⟨[some .initialized], .failed (.io .endOfStream)⟩ ∧
      ∃ where?, readAll .defaults limits (.ofBytes (message ++ begun)) =
        ⟨[some .initialized], .failed (.truncatedFrame where?)⟩ := by
  intro limits message begun
  let second := begun ++ Utf8.ofString "\x7d"
  have lines : 1 ≤ limits.headerLines := by decide
  have positive : 1 ≤ limits.lineBytes := by decide
  have first : readMessage .defaults limits (.ofBytes (message ++ second)) =
      (.ok (some .initialized), .ofBytes second) := by decide +kernel
  have reads := Reads.cons first (.nil _)
  refine ⟨lines, positive, ?_, ?_⟩
  · have cut := readAll_cut .defaults limits lines positive message second
    exact (cut.1 _ _ _ _ ⟨reads, rfl⟩).2.1 rfl
  · have cut := readAll_cut .defaults limits lines positive (message ++ begun)
      (Utf8.ofString "\x7d")
    rw [List.append_assoc] at cut
    exact (cut.1 _ _ _ _ ⟨reads, rfl⟩).2.2 (by decide) (by decide +kernel)

end EditorRpc.Inbox
