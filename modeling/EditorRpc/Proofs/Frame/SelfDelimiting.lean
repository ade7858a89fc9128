import EditorRpc.Proofs.Frame.HeaderBlock

/-!
Frames are self-delimiting: a frame is settled by its header block and by the bytes of the body that
the block announces. `read_delimited` and `readDocument_delimited` say so for every closed stream. Main
statement: `readDocument_selfDelimiting`, by which the bytes that a read takes give its result whatever
follows them, and no proper beginning of them gives any.
-/

set_option autoImplicit false
set_option relaxedAutoImplicit false

namespace EditorRpc.Frame

variable {limits : Limits}

theorem readBody_length (body : Bytes) : Settles body (readBody body.length) (.ok body) := by
  intro rest ending
  rw [readBody, Source.readUpTo_length]
  exact if_neg (Nat.lt_irrefl _)

private theorem readBody_meetsEnd {bytes : Bytes} {length : Nat} (short : bytes.length < length) :
    MeetsEnd bytes (readBody length) (.truncatedFrame (.inBody length bytes.length)) := by
  intro ending
  rw [readBody, Source.readUpTo_short short]
  cases ending with
  | closed => exact if_pos short
  | broken fault => rfl
  | silent => rfl

theorem read_of_headers {head : Bytes} {result : Except Stop (Option Nat)}
    (headers : Settles head (readHeaders limits limits.headerLines 0 none) result)
    (alone : ∀ length, result ≠ .ok (some length)) :
    Settles head (read limits) (result.map fun _ => none) := by
  intro rest ending
  rw [read, headers]
  cases result with
  | error stop => rfl
  | ok length =>
    cases length with
    | none => rfl
    | some length => exact absurd rfl (alone length)

theorem read_of_body {head : Bytes} (body : Bytes)
    (headers : Settles head (readHeaders limits limits.headerLines 0 none)
      (.ok (some body.length))) :
    Settles (head ++ body) (read limits) (.ok (some body)) := by
  intro rest ending
  rw [read, List.append_assoc, headers]
  dsimp only
  rw [readBody_length]
  rfl

private theorem read_meetsEnd {bytes : Bytes} {f : Failure}
    (met : MeetsEnd bytes (readHeaders limits limits.headerLines 0 none) f) :
    MeetsEnd bytes (read limits) f := by
  intro ending
  rw [read, met]
  cases ending <;> rfl

private theorem read_meetsEnd_body {head bytes : Bytes} {length : Nat}
    (headers : Settles head (readHeaders limits limits.headerLines 0 none) (.ok (some length)))
    (short : bytes.length < length) :
    MeetsEnd (head ++ bytes) (read limits) (.truncatedFrame (.inBody length bytes.length)) := by
  intro ending
  rw [read, headers]
  dsimp only
  rw [readBody_meetsEnd short]
  cases ending <;> rfl

private theorem taken_ne_nil {passed : List Bytes} {taken rest : Bytes} {length : Option Nat}
    (decision : Decision limits passed taken rest (.ok length)) : wire passed ++ taken ≠ [] := by
  cases decision
  simp

theorem read_delimited (positive : 1 ≤ limits.lineBytes) : Delimited (read limits) := by
  intro bytes
  obtain ⟨passed, taken, rest, result, split, all, decision⟩ := exists_decision limits bytes
  rw [← List.append_assoc] at split
  by_cases cause : ByEnd result
  · obtain ⟨rfl, f, rfl, met, way⟩ := decision.meetsEnd all positive cause
    rw [List.append_nil] at split
    subst split
    exact Or.inr ⟨f, read_meetsEnd met, way⟩
  have headers := decision.settles all positive cause
  by_cases body : ∃ length, result = .ok (some length)
  · obtain ⟨length, rfl⟩ := body
    by_cases enough : length ≤ rest.length
    · -- The body is the beginning of the rest.
      have exact : (rest.take length).length = length := by
        rw [List.length_take]
        exact Nat.min_eq_left enough
      refine Or.inl ⟨_, rest.drop length, _, ?_, not_byEnd_ok _,
        read_of_body (rest.take length) (exact.symm ▸ headers)⟩
      rw [split, List.append_assoc (wire passed ++ taken), List.take_append_drop]
    · refine Or.inr ⟨_, split ▸ read_meetsEnd_body headers (Nat.not_le.mp enough),
        Or.inr ⟨?_, _, rfl⟩⟩
      rw [split]
      exact fun none => taken_ne_nil decision (List.append_eq_nil_iff.mp none).1
  · have alone : ∀ length, result ≠ .ok (some length) := fun length same => body ⟨length, same⟩
    refine Or.inl ⟨_, rest, _, split, ?_, read_of_headers headers alone⟩
    cases result with
    | error stop => exact fun way => cause (ByEnd.of_error way)
    | ok length => exact not_byEnd_ok _

def documentOf : Option Bytes → Except Stop (Option Json)
  | none => .ok none
  | some body => (parseBody body).map some

theorem readDocument_eq (limits : Limits) :
    readDocument limits = andThen (read limits) documentOf := by
  funext s
  rw [readDocument, andThen]
  rcases read limits s with ⟨result, rest⟩
  cases result with
  | error stop => rfl
  | ok body => cases body <;> rfl

theorem not_byEnd_documentOf (body : Option Bytes) : ¬ByEnd (documentOf body) := by
  cases body with
  | none => exact not_byEnd_ok _
  | some body =>
    rw [documentOf, parseBody]
    cases Json.parse body with
    | error e => simp [ByEnd, Except.map, Except.mapError, Failure.isEof]
    | ok document => exact not_byEnd_ok _

theorem readDocument_delimited (positive : 1 ≤ limits.lineBytes) :
    Delimited (readDocument limits) := by
  rw [readDocument_eq]
  exact (read_delimited positive).andThen not_byEnd_documentOf

theorem readDocument_nil (lines : 1 ≤ limits.headerLines) :
    readDocument limits (.ofBytes []) = (.error (.failed (.io .endOfStream)), .ofBytes []) := by
  obtain ⟨later, same⟩ := Nat.exists_eq_add_of_le' lines
  have line : Source.readLine limits.lineBytes (.ofBytes []) =
      (.ok (.unfinished 0), .ofBytes []) := by
    cases limits.lineBytes <;> rfl
  rw [readDocument, read, same, readHeaders, line]
  rfl

/-- A frame is settled by the bytes that it takes, whether a document is read, the frame has none, or
reading fails: if the end of a closed stream did not cause the result, the bytes that were taken give
it whatever comes after them and however the stream ends, and all of that stays unread. A proper
beginning of these bytes gives neither a document nor a frame without one. Such a read takes all that
is there and meets the end, which a closed stream reports as its end if there was nothing at all, and
otherwise as a truncated frame. -/
theorem readDocument_selfDelimiting (limits : Limits) (positive : 1 ≤ limits.lineBytes)
    (bytes : Bytes) (result : Except Stop (Option Json)) (rest : Source)
    (reads : readDocument limits (.ofBytes bytes) = (result, rest)) (own : ¬ByEnd result) :
    ∃ taken unread, bytes = taken ++ unread ∧ rest = .ofBytes unread ∧
      (∀ after ending, readDocument limits ⟨taken ++ after, ending⟩ = (result, ⟨after, ending⟩)) ∧
      ∀ before, before <+: taken → before ≠ taken →
        (∀ ending found, (readDocument limits ⟨before, ending⟩).1 ≠ .ok found) ∧
        ∃ f, MeetsEnd before (readDocument limits) f ∧
          (before = [] ∧ f = .io .endOfStream ∨
            before ≠ [] ∧ ∃ where?, f = .truncatedFrame where?) := by
  have delimited : Delimited (readDocument limits) := readDocument_delimited positive
  obtain ⟨taken, unread, split, left, settled⟩ := delimited.settles reads own
  refine ⟨taken, unread, split, left, settled, ?_⟩
  intro before begins proper
  obtain ⟨f, met, way⟩ := delimited.meetsEnd_of_prefix settled begins proper
  exact ⟨met.ne_ok, f, met, way⟩

/-- A line is too long although the next byte would have ended it. That byte does not matter; without
the byte before it the frame is truncated. -/
theorem readDocument_selfDelimiting_next_ends :
    let limits : Limits := ⟨3, 4, 10, by decide⟩
    let line := Utf8.ofString "abcd"
    let stop : Stop := .failed (.headerLineTooLong 4)
    1 ≤ limits.lineBytes ∧
      readDocument limits (.ofBytes (line ++ [Json.lineFeed])) =
        (.error stop, .ofBytes [Json.lineFeed]) ∧
      ¬ByEnd (.error stop : Except Stop (Option Json)) ∧
      (∀ after, readDocument limits ⟨line ++ after, .silent⟩ =
        (.error stop, ⟨after, .silent⟩)) ∧
      ∃ where?, readDocument limits (.ofBytes (Utf8.ofString "abc")) =
        (.error (.failed (.truncatedFrame where?)), .ofBytes []) := by
  intro limits line stop
  have positive : 1 ≤ limits.lineBytes := by decide
  have reads : readDocument limits (.ofBytes (line ++ [Json.lineFeed])) =
      (.error stop, .ofBytes [Json.lineFeed]) := by decide +kernel
  have own : ¬ByEnd (.error stop : Except Stop (Option Json)) := by
    simp [ByEnd, stop, Failure.isEof]
  obtain ⟨taken, unread, split, left, same, proper⟩ :=
    readDocument_selfDelimiting limits positive _ _ _ reads own
  have tail : unread = [Json.lineFeed] := (congrArg Source.bytes left).symm
  have whole : taken = line := by
    rw [tail] at split
    exact (List.append_cancel_right split).symm
  subst whole
  obtain ⟨_, f, met, way⟩ := proper (Utf8.ofString "abc") (by decide) (by decide)
  refine ⟨positive, reads, own, fun after => same after .silent, ?_⟩
  rcases way with ⟨none, _⟩ | ⟨_, where?, rfl⟩
  · exact absurd none (by decide)
  · exact ⟨where?, met.closed⟩

end EditorRpc.Frame
