import EditorRpc.Proofs.Inbox.Calls

/-!
Reads that do not wait for ever. Only a stream that falls silent can keep a read from an answer.
Main statements: `readMessage_answers` and `exists_call_failed`, by which the reading of any
other stream ends with a failure.
-/

set_option autoImplicit false
set_option relaxedAutoImplicit false

namespace EditorRpc

/-- The outcome of a read is an answer, and what it leaves does not fall silent. -/
def IsAnswer {α : Type} (outcome : Except Stop α × Source) : Prop :=
  outcome.1 ≠ .error .waiting ∧ outcome.2.ending ≠ .silent

def Answers {α : Type} (read : Source → Except Stop α × Source) : Prop :=
  ∀ s : Source, s.ending ≠ .silent → IsAnswer (read s)

section

variable {α β : Type} {read : Source → Except Stop α × Source} {rest : Source}

theorem isAnswer_ok (a : α) (sounds : rest.ending ≠ .silent) :
    IsAnswer ((.ok a : Except Stop α), rest) := by
  refine ⟨?_, sounds⟩
  intro same
  cases same

theorem isAnswer_failed (f : Failure) (sounds : rest.ending ≠ .silent) :
    IsAnswer ((.error (.failed f) : Except Stop α), rest) := by
  refine ⟨?_, sounds⟩
  intro same
  cases same

theorem IsAnswer.bind {outcome : Except Stop α × Source} {f : α → Except Stop β}
    (own : ∀ a, f a ≠ .error .waiting) (h : IsAnswer outcome) :
    IsAnswer (outcome.1.bind f, outcome.2) := by
  obtain ⟨result, rest⟩ := outcome
  obtain ⟨answer, sounds⟩ := h
  refine ⟨?_, sounds⟩
  intro same
  cases result with
  | error stop =>
    have waits : stop = .waiting := Except.error.inj same
    exact answer (congrArg _ waits)
  | ok a => exact own a same

theorem IsAnswer.map {outcome : Except Stop α × Source} (f : α → β) (h : IsAnswer outcome) :
    IsAnswer (outcome.1.map f, outcome.2) := by
  have own : ∀ a, (.ok (f a) : Except Stop β) ≠ .error .waiting := by
    intro a same
    cases same
  have bound := h.bind own
  cases result : outcome.1 <;> rw [result] at bound <;> exact bound

theorem Answers.andThen {f : α → Except Stop β} (own : ∀ a, f a ≠ .error .waiting)
    (h : Answers read) : Answers (andThen read f) := by
  intro s sounds
  exact (h s sounds).bind own

end

namespace Source

theorem drain_answers : Answers drain := by
  intro s sounds
  unfold drain
  split
  · exact isAnswer_ok () Ending.noConfusion
  · exact isAnswer_failed _ Ending.noConfusion
  · next silent => exact absurd silent sounds

theorem readLine_answers (limit : Nat) : Answers (readLine limit) := by
  intro s sounds
  unfold readLine
  split
  · exact isAnswer_ok _ sounds
  · split
    · exact isAnswer_ok _ sounds
    · exact (drain_answers s sounds).map _

theorem readUpTo_answers (count : Nat) : Answers (readUpTo count) := by
  intro s sounds
  unfold readUpTo
  dsimp only
  split
  · exact isAnswer_ok _ sounds
  · exact (drain_answers s sounds).map _

end Source

namespace Frame

theorem readHeaders_answers (limits : Limits) (lines index : Nat) (length : Option Nat) :
    Answers (readHeaders limits lines index length) := by
  intro s sounds
  induction lines generalizing index length s with
  | zero => exact isAnswer_failed _ sounds
  | succ lines ih =>
    have line := Source.readLine_answers limits.lineBytes s sounds
    rw [readHeaders]
    split
    · next read =>
      rw [read] at line
      exact line.map fun _ => length
    · next read =>
      rw [read] at line
      split
      · exact isAnswer_failed _ line.2
      · split <;> exact isAnswer_failed _ line.2
    · next read =>
      rw [read] at line
      split
      · exact isAnswer_ok _ line.2
      · exact ih _ _ _ line.2
      · exact isAnswer_failed _ line.2
      · exact ih _ _ _ line.2

theorem readBody_answers (length : Nat) : Answers (readBody length) := by
  intro s sounds
  have body := Source.readUpTo_answers length s sounds
  rw [readBody]
  split
  · next read =>
    rw [read] at body
    exact body
  · next read =>
    rw [read] at body
    split
    · exact isAnswer_failed _ body.2
    · exact isAnswer_ok _ body.2

theorem read_answers (limits : Limits) : Answers (read limits) := by
  intro s sounds
  have headers := readHeaders_answers limits limits.headerLines 0 none s sounds
  rw [read]
  split
  · next found =>
    rw [found] at headers
    exact headers.map fun _ => none
  · next found =>
    rw [found] at headers
    exact isAnswer_ok _ headers.2
  · next length rest found =>
    rw [found] at headers
    exact (readBody_answers length rest headers.2).map some

theorem readDocument_answers (limits : Limits) : Answers (readDocument limits) := by
  have own : ∀ body, documentOf body ≠ .error .waiting := by
    intro body same
    cases body with
    | none => cases same
    | some body =>
      rw [documentOf, parseBody] at same
      cases parsed : Json.parse body <;> rw [parsed] at same <;> cases same
  rw [readDocument_eq]
  exact (read_answers limits).andThen own

end Frame

namespace Inbox

variable {registry : Registry} {limits : Limits}

theorem readMessage_answers (registry : Registry) (limits : Limits) :
    Answers (readMessage registry limits) := by
  have own : ∀ document, messageOf registry document ≠ .error .waiting := by
    intro document same
    cases document with
    | none => cases same
    | some document =>
      rw [messageOf, resolve] at same
      cases dispatched : registry.dispatch document <;> rw [dispatched] at same <;> cases same
  rw [readMessage_eq]
  exact (Frame.readDocument_answers limits).andThen own

theorem Reads.sounds {s rest : Source} {results : List (Option Incoming)}
    (h : Reads registry limits s results rest) (sounds : s.ending ≠ .silent) :
    rest.ending ≠ .silent := by
  induction h with
  | nil s => exact sounds
  | cons first _ ih =>
    have left := (readMessage_answers registry limits _ sounds).2
    rw [first] at left
    exact ih left

theorem exists_call_failed (registry : Registry) (limits : Limits) {s : Source}
    (sounds : s.ending ≠ .silent) :
    ∃ results start f rest, Call registry limits s results start (.error (.failed f)) rest := by
  obtain ⟨start, rest, reads, stops⟩ := exists_call_readAll registry limits s
  cases stop : (readAll registry limits s).stop with
  | failed f =>
    rw [stop] at stops
    exact ⟨_, start, f, rest, reads, stops⟩
  | waiting =>
    have answer := (readMessage_answers registry limits start (reads.sounds sounds)).1
    rw [stops, stop] at answer
    exact absurd rfl answer

end Inbox

end EditorRpc
