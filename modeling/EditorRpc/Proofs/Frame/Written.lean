import EditorRpc.Proofs.Frame.RoundTrip
import EditorRpc.Proofs.Stream.Sink
import EditorRpc.Proofs.Wire.Written

/-!
What a writer leaves in a sink that may fill up is what a reader gets back: the documents of the steps
that succeeded, and then the end of the stream or a truncated frame. Main statement:
`readTimes_writeSteps`.
-/

set_option autoImplicit false
set_option relaxedAutoImplicit false

namespace EditorRpc.Frame

/-- A step of a writer: a body that was made before, or a message. -/
inductive WriteStep : Type 1
  | body (bytes : Bytes)
  | message {α : Type} [Wire α] (x : α)

def WriteStep.bytes : WriteStep → Bytes
  | .body bytes => bytes
  | @message _ _ x => bodyOf x

def WriteStep.perform (sink : Sink) : WriteStep → Except Failure Unit × Sink
  | .body bytes => write sink bytes
  | @message _ _ x => writeMessage sink x

/-- One step after the other, whatever becomes of each. -/
def writeSteps : List WriteStep → Sink → List (Except Failure Unit) × Sink
  | [], sink => ([], sink)
  | step :: steps, sink =>
    let (result, after) := step.perform sink
    let (later, last) := writeSteps steps after
    (result :: later, last)

theorem writeSteps_eq (steps : List WriteStep) (sink : Sink) :
    writeSteps steps sink = sink.writeEach ((steps.map WriteStep.bytes).map encode) := by
  induction steps generalizing sink with
  | nil => rfl
  | cons step steps ih =>
    have one : step.perform sink = sink.write (encode step.bytes) := by
      cases step <;> rfl
    rw [writeSteps, one, List.map_cons, List.map_cons, Sink.writeEach_cons]
    dsimp only
    rw [ih]

/-- A reader of these limits takes the frames of all bodies. -/
structure Admits (limits : Limits) (bodies : List Bytes) : Prop where
  lines : 2 ≤ limits.headerLines
  bodyFits : ∀ body ∈ bodies, body.length ≤ limits.bodyBytes
  lineFits : ∀ body ∈ bodies, (lengthLine body.length).length ≤ limits.lineBytes

section

variable {limits : Limits} {bodies : List Bytes} {documents : List Json}

private theorem Admits.settles (admits : Admits limits bodies) {body : Bytes}
    (member : body ∈ bodies) :
    Settles (encode body) (readDocument limits) (documentOf (some body)) :=
  settles_encode admits.lines (admits.bodyFits body member) (admits.lineFits body member)

private theorem Admits.truncated (admits : Admits limits bodies) {body : Bytes}
    (member : body ∈ bodies) {rest missing : Bytes} (frame : encode body = rest ++ missing)
    (begun : rest ≠ []) (part : missing ≠ []) :
    ∃ where?, readDocument limits (.ofBytes rest) =
      (.error (.failed (.truncatedFrame where?)), .ofBytes []) := by
  have positive : 1 ≤ limits.lineBytes :=
    Nat.le_trans (one_le_length_lengthLine _) (admits.lineFits body member)
  have whole := admits.settles member [] .closed
  rw [List.append_nil, frame] at whole
  exact (readDocument_delimited positive).truncated whole begun (List.length_pos_iff.mpr part)

private theorem map_documentOf (parsed : bodies.map Json.parse = documents.map .ok) :
    (bodies.map fun body => documentOf (some body)) =
      documents.map fun document => .ok (some document) := by
  have each := congrArg (List.map fun outcome : Except Json.SyntaxError Json =>
    (outcome.mapError fun e => Stop.failed (.malformedBody e)).map some) parsed
  rw [List.map_map, List.map_map] at each
  exact each

private theorem readDocument_part (admits : Admits limits bodies) {count : Nat} {rest : Bytes}
    (next : rest ≠ [] → ∃ missing, missing ≠ [] ∧
      (bodies.map encode)[count]? = some (rest ++ missing)) :
    ∃ f, readDocument limits (.ofBytes rest) = (.error (.failed f), .ofBytes []) ∧
      (rest = [] → f = .io .endOfStream) ∧ (rest ≠ [] → ∃ where?, f = .truncatedFrame where?) := by
  by_cases none : rest = []
  · subst none
    have lines : 1 ≤ limits.headerLines := Nat.le_trans (by decide) admits.lines
    exact ⟨_, readDocument_nil lines, fun _ => rfl, fun some => absurd rfl some⟩
  · obtain ⟨missing, part, found⟩ := next none
    rw [List.getElem?_map] at found
    obtain ⟨body, here, frame⟩ := Option.map_eq_some_iff.mp found
    obtain ⟨where?, cut⟩ := admits.truncated (List.mem_of_getElem? here) frame none part
    exact ⟨_, cut, fun same => absurd same none, fun _ => ⟨where?, rfl⟩⟩

/-- The frames of some bodies and a part of the next one give the documents of those bodies, and then
the end of the stream or a truncated frame. -/
private theorem readTimes_part (admits : Admits limits bodies)
    (parsed : bodies.map Json.parse = documents.map .ok) {count : Nat}
    (within : count ≤ bodies.length) {rest : Bytes}
    (next : rest ≠ [] → ∃ missing, missing ≠ [] ∧
      (bodies.map encode)[count]? = some (rest ++ missing)) :
    ∃ f, (readTimes (readDocument limits) (count + 1)
        (.ofBytes (((bodies.map encode).take count).flatten ++ rest))).1 =
          (documents.take count).map (fun document => .ok (some document)) ++
            [.error (.failed f)] ∧
      (rest = [] → f = .io .endOfStream) ∧ (rest ≠ [] → ∃ where?, f = .truncatedFrame where?) := by
  obtain ⟨f, stops, way⟩ := readDocument_part admits next
  refine ⟨f, ?_, way⟩
  have settled : ∀ body ∈ bodies.take count,
      Settles (encode body) (readDocument limits) (documentOf (some body)) :=
    fun body member => admits.settles (List.mem_of_mem_take member)
  have reads := readTimes_flatMap settled rest .closed
  have results : (bodies.take count).map (fun body => documentOf (some body)) =
      (documents.take count).map fun document => .ok (some document) := by
    rw [List.map_take, map_documentOf parsed, List.map_take]
  rw [List.length_take_of_le within, results] at reads
  rw [readTimes_add, ← List.map_take, ← List.flatMap_def, Source.ofBytes, reads]
  dsimp only
  rw [readTimes, ← Source.ofBytes, stops]
  rfl

private theorem document_of_message {steps : List WriteStep}
    (parsed : (steps.map WriteStep.bytes).map Json.parse = documents.map .ok) {i : Nat}
    {α : Type} [Wire α] [Wire.Unambiguous α] {x : α} (here : steps[i]? = some (.message x))
    (ordered : (EditorRpc.encode x).Ordered)
    (plain : (EditorRpc.encode x).Plain Json.nestingLimit) :
    documents[i]? = some (EditorRpc.encode x) := by
  have text : Json.parse (WriteStep.message x).bytes = .ok (EditorRpc.encode x) :=
    parse_written ordered plain
  have there : (documents.map (.ok : Json → Except Json.SyntaxError Json))[i]? =
      some (.ok (EditorRpc.encode x)) := by
    rw [← parsed, List.getElem?_map, List.getElem?_map, here, ← text]
    rfl
  rw [List.getElem?_map] at there
  obtain ⟨document, found, same⟩ := Option.map_eq_some_iff.mp there
  cases same
  exact found

end

/-- Write to a sink of some room. What is stored is as much of all frames as fits, and a step succeeds
exactly if the frames up to its own fit. A reader gets back the documents of the steps that succeeded,
in order, and then the end of the stream if what is stored ends where a frame ends, and otherwise a
truncated frame. The document of a message is the one that it encodes to, if that is a document in
order without floating point numbers that nests no deeper than is read. -/
theorem readTimes_writeSteps (steps : List WriteStep) (room : Option Nat) (fault : IoFault) :
    let bodies := steps.map WriteStep.bytes
    let frames := bodies.map encode
    let run := writeSteps steps (.ofRoom room fault)
    run.2.stored = Sink.fitting room frames.flatten ∧
    run.1.length = steps.length ∧
    (∀ i < steps.length,
      (Sink.Fits room (frames.take (i + 1)).flatten.length → run.1[i]? = some (.ok ())) ∧
      (¬Sink.Fits room (frames.take (i + 1)).flatten.length →
        run.1[i]? = some (.error (.io fault)))) ∧
    ∀ (limits : Limits) (documents : List Json), Admits limits bodies →
      bodies.map Json.parse = documents.map .ok →
      (∃ count f, (∀ i < steps.length, run.1[i]? = some (.ok ()) ↔ i < count) ∧
        (readTimes (readDocument limits) (count + 1) (.ofBytes run.2.stored)).1 =
          (documents.take count).map (fun document => .ok (some document)) ++
            [.error (.failed f)] ∧
        ((∃ j, run.2.stored = (frames.take j).flatten) → f = .io .endOfStream) ∧
        ((¬∃ j, run.2.stored = (frames.take j).flatten) → ∃ where?, f = .truncatedFrame where?)) ∧
      ∀ (i : Nat) (α : Type) [Wire α] [Wire.Unambiguous α] (x : α),
        steps[i]? = some (.message x) → (EditorRpc.encode x).Ordered →
        (EditorRpc.encode x).Plain Json.nestingLimit →
        documents[i]? = some (EditorRpc.encode x) := by
  intro bodies frames run
  have each : run = Sink.writeEach frames (.ofRoom room fault) := writeSteps_eq steps _
  have bodiesSize : bodies.length = steps.length := List.length_map _
  have size : frames.length = steps.length := (List.length_map _).trans bodiesSize
  have solid : ∀ frame ∈ frames, frame ≠ [] := by
    intro frame member
    obtain ⟨body, _, rfl⟩ := List.mem_map.mp member
    exact encode_ne_nil body
  have stored : run.2.stored = Sink.fitting room frames.flatten := by
    rw [each, Sink.stored_writeEach]
    rfl
  refine ⟨stored, ?_, ?_, ?_⟩
  · rw [each, Sink.length_writeEach, size]
  · intro i inside
    rw [each]
    exact Sink.getElem?_writeEach solid (.ofRoom room fault) (size.symm ▸ inside)
  intro limits documents admits parsed
  refine ⟨?_, fun i α _ _ x => document_of_message parsed⟩
  obtain ⟨count, rest, within, first, kept, next⟩ := Sink.exists_count solid room
  obtain ⟨f, reads, whole, part⟩ :=
    readTimes_part admits parsed (bodiesSize.trans size.symm ▸ within) next
  have boundary := Sink.flatten_take_append_eq_iff next
  rw [stored, kept]
  refine ⟨count, f, ?_, reads, fun ends => whole (boundary.mp ends),
    fun cut => part (mt boundary.mpr cut)⟩
  intro i inside
  rw [← size] at inside
  rw [each, Sink.getElem?_writeEach_eq_ok_iff solid (.ofRoom room fault) inside]
  exact first i inside

/-- The second step finds the sink full within its header, so the reader gets only the first document
and then a truncated frame. -/
theorem readTimes_writeSteps_within_header :
    let limits : Limits := ⟨2, 20, 10, by decide⟩
    let fault : IoFault := ⟨.brokenPipe, "no space left"⟩
    let params : CancelParams := ⟨.number 7⟩
    let steps : List WriteStep := [.message params, .body (Utf8.ofString "[1]")]
    let run := writeSteps steps (.ofRoom (some 40) fault)
    Admits limits (steps.map WriteStep.bytes) ∧ (EditorRpc.encode params).Ordered ∧
      (EditorRpc.encode params).Plain Json.nestingLimit ∧
      run.1 = [.ok (), .error (.io fault)] ∧
      ∃ where?, (readTimes (readDocument limits) 2 (.ofBytes run.2.stored)).1 =
        [.ok (some (EditorRpc.encode params)), .error (.failed (.truncatedFrame where?))] := by
  intro limits fault params steps run
  have admits : Admits limits (steps.map WriteStep.bytes) :=
    ⟨by decide, by decide +kernel, by decide +kernel⟩
  have document : EditorRpc.encode params = .obj [("id", .int ⟨7, by decide, by decide⟩)] := by
    decide +kernel
  have ordered : (EditorRpc.encode params).Ordered := by
    rw [document]
    simp [Keyed.Ascending]
  have plain : (EditorRpc.encode params).Plain Json.nestingLimit := by
    rw [document]
    simp [Json.nestingLimit]
  obtain ⟨documents, parsed⟩ : ∃ documents : List Json,
      (steps.map WriteStep.bytes).map Json.parse = documents.map .ok :=
    ⟨[.obj [("id", .int ⟨7, by decide, by decide⟩)], .arr [.int ⟨1, by decide, by decide⟩]],
      by decide +kernel⟩
  have results : run.1 = [.ok (), .error (.io fault)] := by decide +kernel
  obtain ⟨stored, _, _, reads⟩ := readTimes_writeSteps steps (some 40) fault
  obtain ⟨⟨count, f, first, given, _, within⟩, messages⟩ := reads limits documents admits parsed
  have one : count = 1 := by
    have started : 0 < count := (first 0 (by decide)).mp (congrArg (·[0]?) results)
    have ended : ¬1 < count := by
      intro more
      have success := (first 1 (by decide)).mpr more
      have failure : run.1[1]? = some (.error (.io fault)) := congrArg (·[1]?) results
      cases failure.symm.trans success
    omega
  subst one
  have frame : documents[0]? = some (EditorRpc.encode params) :=
    messages 0 CancelParams params rfl ordered plain
  have inside : ¬∃ j, run.2.stored =
      (((steps.map WriteStep.bytes).map encode).take j).flatten := by
    rintro ⟨j, same⟩
    have lengths := congrArg List.length same
    rcases j with _ | _ | j
    · exact absurd lengths (by decide +kernel)
    · exact absurd lengths (by decide +kernel)
    · rw [List.take_of_length_le (Nat.le_add_left 2 j)] at lengths
      exact absurd lengths (by decide +kernel)
  obtain ⟨where?, rfl⟩ := within inside
  refine ⟨admits, ordered, plain, results, where?, ?_⟩
  cases documents with
  | nil => cases frame
  | cons first later =>
    cases frame
    exact given

end EditorRpc.Frame
