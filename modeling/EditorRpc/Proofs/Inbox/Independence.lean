import EditorRpc.Frame.Writer
import EditorRpc.Proofs.Inbox.Calls
import EditorRpc.Proofs.Registry.Dispatch

/-!
What a registry decides about a call, and what it does not. The bytes that a call takes and the failure
that it gives, if any, are those of the frame and of the version in its document; decoders decide only
what message a call gives. Main statement: `readMessage_independent`.
-/

set_option autoImplicit false
set_option relaxedAutoImplicit false

namespace EditorRpc

/-- A failure of the stream or of a frame around its body. -/
inductive FrameFault : Failure → Prop
  | io (fault : IoFault) : FrameFault (.io fault)
  | headerOverflow (limit : Nat) : FrameFault (.headerOverflow limit)
  | headerLineTooLong (limit : Nat) : FrameFault (.headerLineTooLong limit)
  | contentTooLarge (value : String) (limit : Nat) : FrameFault (.contentTooLarge value limit)
  | truncatedFrame (where? : Truncation) : FrameFault (.truncatedFrame where?)

/-- A failure that ends a reading: of a frame, of the text in it, or of its version. -/
inductive ReadFault : Failure → Prop
  | frame {f : Failure} : FrameFault f → ReadFault f
  | malformedBody (e : Json.SyntaxError) : ReadFault (.malformedBody e)
  | versionMismatch (found : Option Json) : ReadFault (.versionMismatch found)

theorem ReadFault.isFatal {f : Failure} (h : ReadFault f) : f.isFatal = true := by
  cases h with
  | frame fault => cases fault <;> rfl
  | malformedBody e => rfl
  | versionMismatch found => rfl

def FailsByFrame {α : Type} (outcome : Except Stop α × Source) : Prop :=
  ∀ f, outcome.1 = .error (.failed f) → FrameFault f

section

variable {α β : Type} {rest : Source}

theorem failsByFrame_ok (a : α) : FailsByFrame ((.ok a : Except Stop α), rest) := by
  intro f same
  cases same

theorem failsByFrame_failed {f : Failure} (fault : FrameFault f) :
    FailsByFrame ((.error (.failed f) : Except Stop α), rest) := by
  intro g same
  cases same
  exact fault

theorem FailsByFrame.map {outcome : Except Stop α × Source} (h : FailsByFrame outcome)
    (f : α → β) : FailsByFrame (outcome.1.map f, outcome.2) := by
  obtain ⟨result, left⟩ := outcome
  intro fault same
  cases result with
  | error stop =>
    cases same
    exact h fault rfl
  | ok a => cases same

end

namespace Source

theorem drain_failsByFrame (s : Source) : FailsByFrame s.drain := by
  unfold drain
  split
  · exact failsByFrame_ok ()
  · next fault _ => exact failsByFrame_failed (.io fault)
  · intro f same
    cases same

theorem readLine_failsByFrame (limit : Nat) (s : Source) : FailsByFrame (s.readLine limit) := by
  unfold readLine
  split
  · exact failsByFrame_ok _
  · split
    · exact failsByFrame_ok _
    · exact (drain_failsByFrame s).map _

theorem readUpTo_failsByFrame (count : Nat) (s : Source) : FailsByFrame (s.readUpTo count) := by
  unfold readUpTo
  dsimp only
  split
  · exact failsByFrame_ok _
  · exact (drain_failsByFrame s).map _

end Source

namespace Frame

theorem readHeaders_failsByFrame (limits : Limits) (lines index : Nat) (length : Option Nat)
    (s : Source) : FailsByFrame (readHeaders limits lines index length s) := by
  induction lines generalizing index length s with
  | zero => exact failsByFrame_failed (.headerOverflow _)
  | succ lines ih =>
    have line := Source.readLine_failsByFrame limits.lineBytes s
    rw [readHeaders]
    split
    · next read =>
      rw [read] at line
      exact line.map fun _ => length
    · split
      · exact failsByFrame_failed (.io _)
      · split
        · exact failsByFrame_failed (.headerLineTooLong _)
        · exact failsByFrame_failed (.truncatedFrame _)
    · split
      · exact failsByFrame_ok _
      · exact ih _ _ _
      · exact failsByFrame_failed (.contentTooLarge _ _)
      · exact ih _ _ _

theorem readBody_failsByFrame (length : Nat) (s : Source) : FailsByFrame (readBody length s) := by
  have body := Source.readUpTo_failsByFrame length s
  rw [readBody]
  split
  · next read =>
    rw [read] at body
    exact body
  · split
    · exact failsByFrame_failed (.truncatedFrame _)
    · exact failsByFrame_ok _

theorem read_failsByFrame (limits : Limits) (s : Source) : FailsByFrame (read limits s) := by
  have headers := readHeaders_failsByFrame limits limits.headerLines 0 none s
  rw [read]
  split
  · next found =>
    rw [found] at headers
    exact headers.map fun _ => none
  · exact failsByFrame_ok _
  · next length rest _ => exact (readBody_failsByFrame length rest).map some

theorem documentOf_eq_error_iff {body : Option Bytes} {stop : Stop} :
    documentOf body = .error stop ↔
      ∃ bytes e, body = some bytes ∧ Json.parse bytes = .error e ∧
        stop = .failed (.malformedBody e) := by
  cases body with
  | none => simp [documentOf]
  | some bytes =>
    cases parsed : Json.parse bytes with
    | error e => simp [documentOf, parseBody, parsed, Except.map, Except.mapError, eq_comm]
    | ok document => simp [documentOf, parseBody, parsed, Except.map, Except.mapError]

theorem documentOf_eq_some_iff {body : Option Bytes} {document : Json} :
    documentOf body = .ok (some document) ↔
      ∃ bytes, body = some bytes ∧ Json.parse bytes = .ok document := by
  cases body with
  | none => simp [documentOf]
  | some bytes =>
    cases parsed : Json.parse bytes with
    | error e => simp [documentOf, parseBody, parsed, Except.map, Except.mapError]
    | ok document => simp [documentOf, parseBody, parsed, Except.map, Except.mapError]

end Frame

namespace Inbox

open Registry (RightVersion)

variable {registry : Registry} {limits : Limits} {s : Source}

/-- Only the version of a document can make it a failure, whatever the decoders are. -/
theorem messageOf_eq_error_iff {document : Option Json} {stop : Stop} :
    messageOf registry document = .error stop ↔
      ∃ j, document = some j ∧ ¬RightVersion j ∧
        stop = .failed (.versionMismatch (j.member? "jsonrpc")) := by
  cases document with
  | none => simp [messageOf]
  | some j =>
    have fails : messageOf registry (some j) = .error stop ↔
        ∃ f, registry.dispatch j = .error f ∧ stop = .failed f := by
      rw [messageOf, resolve]
      cases registry.dispatch j <;> simp [Except.mapError, eq_comm]
    simp [fails, Registry.dispatch_eq_error_iff, and_assoc]

theorem readMessage_snd (registry : Registry) (limits : Limits) (s : Source) :
    (readMessage registry limits s).2 = (Frame.read limits s).2 := by
  rw [readMessage_eq, Frame.readDocument_eq]
  rfl

private theorem bind_eq_error_iff {ε α β : Type} {x : Except ε α} {f : α → Except ε β} {e : ε} :
    x.bind f = .error e ↔ x = .error e ∨ ∃ a, x = .ok a ∧ f a = .error e := by
  cases x <;> simp [Except.bind]

theorem readMessage_eq_error_iff {stop : Stop} :
    (readMessage registry limits s).1 = .error stop ↔
      (Frame.read limits s).1 = .error stop ∨
        ∃ body, (Frame.read limits s).1 = .ok (some body) ∧
          ((∃ e, Json.parse body = .error e ∧ stop = .failed (.malformedBody e)) ∨
            ∃ document, Json.parse body = .ok document ∧ ¬RightVersion document ∧
              stop = .failed (.versionMismatch (document.member? "jsonrpc"))) := by
  have parts : (readMessage registry limits s).1 =
      ((Frame.read limits s).1.bind Frame.documentOf).bind (messageOf registry) := by
    rw [readMessage_eq, Frame.readDocument_eq]
    rfl
  -- the frame, the parse and the version are tried in this order, and the first that fails decides
  rw [parts, bind_eq_error_iff, bind_eq_error_iff]
  cases (Frame.read limits s).1 with
  | error stop' => simp [Except.bind]
  | ok body =>
    simp only [Except.bind, reduceCtorEq, false_or, Except.ok.injEq, exists_eq_left',
      Frame.documentOf_eq_error_iff, messageOf_eq_error_iff]
    constructor
    · rintro (⟨bytes, e, rfl, parsed, rfl⟩ | ⟨_, given, document, rfl, version, rfl⟩)
      · exact ⟨bytes, rfl, Or.inl ⟨e, parsed, rfl⟩⟩
      · obtain ⟨bytes, rfl, parsed⟩ := Frame.documentOf_eq_some_iff.mp given
        exact ⟨bytes, rfl, Or.inr ⟨document, parsed, version, rfl⟩⟩
    · rintro ⟨bytes, rfl, ⟨e, parsed, rfl⟩ | ⟨document, parsed, version, rfl⟩⟩
      · exact Or.inl ⟨bytes, e, rfl, parsed, rfl⟩
      · exact Or.inr ⟨some document, Frame.documentOf_eq_some_iff.mpr ⟨bytes, rfl, parsed⟩,
          document, rfl, version, rfl⟩

theorem readMessage_readFault {f : Failure}
    (fails : (readMessage registry limits s).1 = .error (.failed f)) : ReadFault f := by
  rcases readMessage_eq_error_iff.mp fails with frame | ⟨_, _, ⟨e, _, same⟩ | ⟨_, _, _, same⟩⟩
  · exact .frame (Frame.read_failsByFrame limits s f frame)
  · cases same
    exact .malformedBody e
  · cases same
    exact .versionMismatch _

theorem readMessage_eq_versionMismatch_iff {found : Option Json} :
    (readMessage registry limits s).1 = .error (.failed (.versionMismatch found)) ↔
      ∃ body document, (Frame.read limits s).1 = .ok (some body) ∧
        Json.parse body = .ok document ∧ document.member? "jsonrpc" = found ∧
        found ≠ some (.str protocolVersion) := by
  rw [readMessage_eq_error_iff]
  constructor
  · rintro (frame | ⟨body, frame, ⟨e, _, same⟩ | ⟨document, parsed, version, same⟩⟩)
    · cases Frame.read_failsByFrame limits s _ frame
    · cases same
    · cases same
      exact ⟨body, document, frame, parsed, rfl, version⟩
  · rintro ⟨body, document, frame, parsed, rfl, version⟩
    exact Or.inr ⟨body, frame, Or.inr ⟨document, parsed, version, rfl⟩⟩

theorem readMessage_of_document {body : Bytes} {document : Json}
    (frame : (Frame.read limits s).1 = .ok (some body)) (parsed : Json.parse body = .ok document) :
    (readMessage registry limits s).1 = resolve registry document := by
  have given : Frame.documentOf (some body) = .ok (some document) :=
    Frame.documentOf_eq_some_iff.mpr ⟨body, rfl, parsed⟩
  rw [readMessage_eq, Frame.readDocument_eq]
  simp only [andThen, frame, Except.bind, given]
  rfl

theorem readTimes_readMessage_snd (registry other : Registry) (limits : Limits) (s : Source)
    (n : Nat) :
    (readTimes (readMessage registry limits) n s).2 =
      (readTimes (readMessage other limits) n s).2 := by
  induction n generalizing s with
  | zero => rfl
  | succ n ih =>
    have next : (readMessage registry limits s).2 = (readMessage other limits s).2 := by
      rw [readMessage_snd, readMessage_snd]
    simp only [readTimes, next]
    exact ih _

/-- Two registries side by side, after any number of calls. The next call finds the same stream, takes
the same bytes and gives the same failure, if it gives one. All failures are fatal and of a kind that a
frame or a document can have by itself; what a decoder fails with only drops the document. -/
theorem readMessage_independent (registry other : Registry) (limits : Limits) (s : Source)
    (n : Nat) :
    let start := (readTimes (readMessage registry limits) n s).2
    let call := readMessage registry limits start
    (readTimes (readMessage other limits) n s).2 = start ∧
      (readMessage other limits start).2 = call.2 ∧
      (∀ stop, (readMessage other limits start).1 = .error stop ↔ call.1 = .error stop) ∧
      (∀ f, call.1 = .error (.failed f) → f.isFatal = true ∧ ReadFault f) ∧
      (∀ found, call.1 = .error (.failed (.versionMismatch found)) ↔
        ∃ body document, (Frame.read limits start).1 = .ok (some body) ∧
          Json.parse body = .ok document ∧ document.member? "jsonrpc" = found ∧
          found ≠ some (.str protocolVersion)) ∧
      ∀ body document name decoder f, (Frame.read limits start).1 = .ok (some body) →
        Json.parse body = .ok document → RightVersion document →
        document.member? "method" = some (.str name) → registry.find? name = some decoder →
        decoder document = .error f → call.1 = .ok none := by
  intro start call
  refine ⟨readTimes_readMessage_snd other registry limits s n, ?_, ?_, ?_, ?_, ?_⟩
  · rw [readMessage_snd, readMessage_snd]
  · intro stop
    rw [readMessage_eq_error_iff, readMessage_eq_error_iff]
  · intro f fails
    have fault := readMessage_readFault fails
    exact ⟨fault.isFatal, fault⟩
  · intro found
    exact readMessage_eq_versionMismatch_iff
  · intro body document name decoder f frame parsed version method found refused
    have dropped : registry.dispatch document = .ok none :=
      Registry.dispatch_eq_none_iff.mpr ⟨version, .refused method found refused⟩
    change (readMessage registry limits start).1 = _
    rw [readMessage_of_document frame parsed, resolve, dropped]
    rfl

/-- A decoder that fails with the end of a stream drops its document, and the next call goes on after
the frame as it would without the decoder. -/
theorem readMessage_independent_refused :
    let limits : Limits := ⟨2, 20, 40, by decide⟩
    let registry := (Registry.empty.register "a" fun _ => .error (.io .endOfStream)).2
    let frame := Frame.encode (Utf8.ofString "\x7b\"jsonrpc\":\"2.0\",\"method\":\"a\"\x7d")
    let stream := Source.ofBytes (frame ++ Utf8.ofString "Content")
    (readMessage registry limits stream).1 = .ok none ∧
      (readTimes (readMessage registry limits) 1 stream).2 =
        (readTimes (readMessage .empty limits) 1 stream).2 := by
  intro limits registry frame stream
  have read : (Frame.read limits stream).1 =
      .ok (some (Utf8.ofString "\x7b\"jsonrpc\":\"2.0\",\"method\":\"a\"\x7d")) := by
    decide +kernel
  have parsed : Json.parse (Utf8.ofString "\x7b\"jsonrpc\":\"2.0\",\"method\":\"a\"\x7d") =
      .ok (.obj [("jsonrpc", .str "2.0"), ("method", .str "a")]) := by decide +kernel
  have first := readMessage_independent registry .empty limits stream 0
  have second := readMessage_independent .empty registry limits stream 1
  refine ⟨first.2.2.2.2.2 _ _ "a" _ _ read parsed rfl rfl rfl rfl, second.1⟩

end Inbox

end EditorRpc
