import EditorRpc.Inbox
import EditorRpc.Proofs.Frame.RoundTrip

/-!
The calls by which a stream is read. Some calls give a result each, and the first that gives none ends
the reading. Main statements: `readAll_of_reads` and `exists_call_readAll` say that a reading is just
that, and `readMessage_delimited` says that the bytes which a call takes settle it.
-/

set_option autoImplicit false
set_option relaxedAutoImplicit false

namespace EditorRpc.Inbox

/-- Calls that all give a result lead from one stream to another. -/
inductive Reads (registry : Registry) (limits : Limits) :
    Source → List (Option Incoming) → Source → Prop
  | nil (s : Source) : Reads registry limits s [] s
  | cons {s next rest : Source} {result : Option Incoming} {results : List (Option Incoming)} :
      readMessage registry limits s = (.ok result, next) →
      Reads registry limits next results rest → Reads registry limits s (result :: results) rest

/-- A call in the reading of a stream: the results of the calls before it, the stream on which it
starts, and its own result with the stream as it leaves it. -/
def Call (registry : Registry) (limits : Limits) (s : Source) (results : List (Option Incoming))
    (start : Source) (result : Except Stop (Option Incoming)) (rest : Source) : Prop :=
  Reads registry limits s results start ∧ readMessage registry limits start = (result, rest)

def messageOf (registry : Registry) : Option Json → Except Stop (Option Incoming)
  | none => .ok none
  | some document => resolve registry document

variable {registry : Registry} {limits : Limits}

theorem readMessage_eq (registry : Registry) (limits : Limits) :
    readMessage registry limits = andThen (Frame.readDocument limits) (messageOf registry) := by
  funext s
  rw [readMessage, andThen]
  rcases Frame.readDocument limits s with ⟨result, rest⟩
  cases result with
  | error stop => rfl
  | ok document => cases document <;> rfl

theorem not_byEnd_messageOf (document : Option Json) : ¬ByEnd (messageOf registry document) := by
  cases document with
  | none => exact not_byEnd_ok _
  | some document =>
    rw [messageOf, resolve, Registry.dispatch]
    split
    · split <;> exact not_byEnd_ok _
    · simp [ByEnd, Except.mapError, Failure.isEof]

theorem readMessage_delimited (registry : Registry) (positive : 1 ≤ limits.lineBytes) :
    Delimited (readMessage registry limits) := by
  rw [readMessage_eq]
  exact (Frame.readDocument_delimited positive).andThen not_byEnd_messageOf

theorem readMessage_nil (registry : Registry) (lines : 1 ≤ limits.headerLines) :
    readMessage registry limits (.ofBytes []) =
      (.error (.failed (.io .endOfStream)), .ofBytes []) := by
  rw [readMessage, Frame.readDocument_nil lines]

theorem settles_frame {body : Bytes} {document : Json} {message : Option Incoming}
    (lines : 2 ≤ limits.headerLines) (bodyFits : body.length ≤ limits.bodyBytes)
    (lineFits : (Frame.lengthLine body.length).length ≤ limits.lineBytes)
    (parsed : Json.parse body = .ok document)
    (resolved : registry.dispatch document = .ok message) :
    Settles (Frame.encode body) (readMessage registry limits) (.ok message) := by
  have result : (Frame.documentOf (some body)).bind (messageOf registry) = .ok message := by
    rw [Frame.documentOf, Frame.parseBody, parsed]
    show resolve registry document = _
    rw [resolve, resolved]
    rfl
  have frame := Frame.settles_encode lines bodyFits lineFits
  rw [readMessage_eq, ← result]
  exact frame.andThen (messageOf registry)

/-! ### Runs of calls -/

theorem Reads.length_le {s rest : Source} {results : List (Option Incoming)}
    (h : Reads registry limits s results rest) : rest.bytes.length ≤ s.bytes.length := by
  induction h with
  | nil s => exact Nat.le_refl _
  | cons reads _ ih => exact Nat.le_trans ih (Nat.le_of_lt (length_lt_of_readMessage reads))

theorem Reads.trans {s next rest : Source} {results later : List (Option Incoming)}
    (h : Reads registry limits s results next) (others : Reads registry limits next later rest) :
    Reads registry limits s (results ++ later) rest := by
  induction h with
  | nil s => exact others
  | cons first _ ih => exact .cons first (ih others)

theorem Reads.append (positive : 1 ≤ limits.lineBytes) {s rest : Source}
    {results : List (Option Incoming)} (h : Reads registry limits s results rest)
    {before : Bytes} (part : s = .ofBytes before) (after : Bytes) (ending : Ending) :
    ∃ left, rest = .ofBytes left ∧
      Reads registry limits ⟨before ++ after, ending⟩ results ⟨left ++ after, ending⟩ := by
  induction h generalizing before with
  | nil s => exact ⟨before, part, .nil _⟩
  | cons first others ih =>
    subst part
    obtain ⟨left, rfl, reads⟩ := (readMessage_delimited registry positive).append first
      (not_byEnd_ok _) after ending
    obtain ⟨last, rfl, more⟩ := ih rfl
    exact ⟨last, rfl, .cons reads more⟩

theorem readAll_of_reads {s start rest : Source} {results : List (Option Incoming)} {stop : Stop}
    (call : Call registry limits s results start (.error stop) rest) :
    readAll registry limits s = ⟨results, stop⟩ := by
  obtain ⟨reads, stops⟩ := call
  induction reads with
  | nil s => rw [readAll_eq, stops]
  | cons first _ ih =>
    rw [readAll_eq, first]
    dsimp only
    rw [ih stops]

theorem exists_call_readAll (registry : Registry) (limits : Limits) (s : Source) :
    ∃ start rest, Call registry limits s (readAll registry limits s).results start
      (.error (readAll registry limits s).stop) rest := by
  fun_induction readAll registry limits s with
  | case1 s stop rest stops => exact ⟨s, rest, .nil s, stops⟩
  | case2 s result next first _ later ih =>
    obtain ⟨start, rest, reads, stops⟩ := ih
    exact ⟨start, rest, .cons first reads, stops⟩

theorem Reads.results_prefix {s rest : Source} {results : List (Option Incoming)}
    (h : Reads registry limits s results rest) :
    results <+: (readAll registry limits s).results := by
  obtain ⟨start, last, reads, stops⟩ := exists_call_readAll registry limits rest
  rw [readAll_of_reads ⟨h.trans reads, stops⟩]
  exact List.prefix_append _ _

end EditorRpc.Inbox
