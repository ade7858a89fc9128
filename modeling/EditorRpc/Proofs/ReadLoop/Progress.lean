import EditorRpc.Proofs.Frame.Buffers
import EditorRpc.Proofs.Inbox.Answers
import EditorRpc.ReadLoop

/-!
The loop comes to its end on every stream that does. Its measure are the bytes that are unread, which
every call that gives a result makes fewer, also if nothing comes of the frame. Main statement:
`loop_progress`, which bounds the calls by the bytes of the stream.
-/

set_option autoImplicit false
set_option relaxedAutoImplicit false

namespace EditorRpc

namespace Inbox

variable {registry : Registry} {limits : Limits} {s rest : Source}

theorem exists_taken_of_readMessage {message : Option Incoming}
    (reads : readMessage registry limits s = (.ok message, rest)) :
    ∃ taken, taken ≠ [] ∧ s.bytes = taken ++ rest.bytes := by
  have shorter := length_lt_of_readMessage reads
  have left : rest = (Frame.readDocument limits s).2 := by
    rw [readMessage_eq] at reads
    exact (congrArg Prod.snd reads).symm
  have split := Frame.bytes_readDocument limits s
  rw [← left] at split
  refine ⟨_, ?_, split⟩
  intro none
  rw [none, List.nil_append] at split
  rw [split] at shorter
  exact Nat.lt_irrefl _ shorter

theorem exists_failed_of_nil (registry : Registry) (limits : Limits) (none : s.bytes = [])
    (sounds : s.ending ≠ .silent) :
    ∃ f, (readMessage registry limits s).1 = .error (.failed f) := by
  have answer := (readMessage_answers registry limits s sounds).1
  rcases reads : readMessage registry limits s with ⟨result, rest⟩
  rw [reads] at answer
  match result with
  | .ok message =>
    have shorter := length_lt_of_readMessage reads
    rw [none] at shorter
    exact absurd shorter (Nat.not_lt_zero _)
  | .error .waiting => exact absurd rfl answer
  | .error (.failed f) => exact ⟨f, rfl⟩

end Inbox

namespace ReadLoop

def idle : Nat → Channel → Channel :=
  fun _ channel => channel

/-- The loop goes on to its stop: so many calls, why it stops, and the channel then. Before each call
the owner may receive from the channel or close it. -/
inductive Runs (registry : Registry) (limits : Limits) : (owner : Nat → Channel → Channel) →
    (calls : Nat) → Source → Channel → Halt → Channel → Prop
  | stop {owner : Nat → Channel → Channel} {source : Source} {channel : Channel} {halt : Halt} :
      round registry limits source (owner 0 channel) = .error halt →
      Runs registry limits owner 1 source channel halt (owner 0 channel)
  | go {owner : Nat → Channel → Channel} {calls : Nat} {source rest : Source}
      {channel after last : Channel} {halt : Halt} :
      round registry limits source (owner 0 channel) = .ok (rest, after) →
      Runs registry limits (fun turn => owner (turn + 1)) calls rest after halt last →
      Runs registry limits owner (calls + 1) source channel halt last

variable {registry : Registry} {limits : Limits} {owner : Nat → Channel → Channel} {calls : Nat}
  {source rest : Source} {channel after last : Channel} {halt : Halt}

theorem round_eq_error (sounds : source.ending ≠ .silent)
    (stops : round registry limits source channel = .error halt) :
    ∃ outcome, halt = .ended outcome := by
  have answer := (Inbox.readMessage_answers registry limits source sounds).1
  rw [round] at stops
  split at stops
  · next stop _ reads =>
    rw [reads] at answer
    cases stops
    cases stop with
    | waiting => exact absurd rfl answer
    | failed f => exact ⟨_, rfl⟩
  · cases stops
  · split at stops
    · cases stops
      exact ⟨_, rfl⟩
    · cases stops

theorem sounds_of_round (sounds : source.ending ≠ .silent)
    (goes : round registry limits source channel = .ok (rest, after)) : rest.ending ≠ .silent := by
  have left := (Inbox.readMessage_answers registry limits source sounds).2
  rw [round] at goes
  split at goes
  · cases goes
  · next reads =>
    rw [reads] at left
    cases goes
    exact left
  · next reads =>
    rw [reads] at left
    split at goes
    · cases goes
    · cases goes
      exact left

theorem Runs.calls_le (run : Runs registry limits owner calls source channel halt last) :
    calls ≤ source.bytes.length + 1 := by
  induction run with
  | stop => omega
  | go goes _ ih =>
    have shorter := length_lt_of_round goes
    omega

theorem Runs.ended (run : Runs registry limits owner calls source channel halt last)
    (sounds : source.ending ≠ .silent) : ∃ outcome, halt = .ended outcome := by
  induction run with
  | stop stops => exact round_eq_error sounds stops
  | go goes _ ih => exact ih (sounds_of_round sounds goes)

theorem exists_runs (registry : Registry) (limits : Limits) (owner : Nat → Channel → Channel)
    (source : Source) (channel : Channel) :
    ∃ calls halt last, Runs registry limits owner calls source channel halt last := by
  induction unread : source.bytes.length using Nat.strong_induction_on
    generalizing source channel owner with
  | h unread ih =>
    cases outcome : round registry limits source (owner 0 channel) with
    | error halt => exact ⟨1, halt, owner 0 channel, .stop outcome⟩
    | ok next =>
      obtain ⟨rest, after⟩ := next
      have shorter := length_lt_of_round outcome
      obtain ⟨calls, halt, last, run⟩ :=
        ih rest.bytes.length (by omega) (fun turn => owner (turn + 1)) rest after rfl
      exact ⟨calls + 1, halt, last, .go outcome run⟩

/-- With an owner that does nothing the loop is the one that runs in one go. -/
theorem Runs.run_eq (h : Runs registry limits owner calls source channel halt last)
    (none : owner = idle) : run registry limits source channel = (halt, last) := by
  induction h with
  | @stop _ source channel halt stops =>
    subst none
    have unchanged : round registry limits source channel = .error halt := stops
    rw [ReadLoop.run_eq, unchanged]
    rfl
  | @go _ _ source rest channel after _ _ goes _ ih =>
    subst none
    have unchanged : round registry limits source channel = .ok (rest, after) := goes
    rw [ReadLoop.run_eq, unchanged]
    exact ih rfl

/-- The loop always makes progress. Whatever the stream and the limits are, a call that gives a message
or drops one takes at least one byte, and a call where nothing is unread fails. So the loop ends, after
no more calls than the stream has bytes and one; the owner may receive or stop receiving before each
call. -/
theorem loop_progress (registry : Registry) (limits : Limits) (source : Source)
    (sounds : source.ending ≠ .silent) :
    (∀ message rest, Inbox.readMessage registry limits source = (.ok message, rest) →
      ∃ taken, taken ≠ [] ∧ source.bytes = taken ++ rest.bytes) ∧
    (source.bytes = [] → ∃ f, (Inbox.readMessage registry limits source).1 = .error (.failed f)) ∧
    ∀ owner channel,
      ∃ calls outcome last, calls ≤ source.bytes.length + 1 ∧
        Runs registry limits owner calls source channel (.ended outcome) last ∧
        (owner = idle → run registry limits source channel = (.ended outcome, last)) := by
  refine ⟨fun message rest reads => Inbox.exists_taken_of_readMessage reads,
    fun none => Inbox.exists_failed_of_nil registry limits none sounds, fun owner channel => ?_⟩
  obtain ⟨calls, halt, last, runs⟩ := exists_runs registry limits owner source channel
  obtain ⟨outcome, rfl⟩ := runs.ended sounds
  exact ⟨calls, outcome, last, runs.calls_le, runs, runs.run_eq⟩

/-- Two empty header blocks, of which nothing comes, and the end of the stream take three calls. -/
theorem loop_progress_dropped :
    let limits : Limits := ⟨1, 1, 0, by decide⟩
    let source : Source := .ofBytes [Json.lineFeed, Json.lineFeed]
    source.ending ≠ .silent ∧
      Runs Registry.defaults limits idle 3 source .opened (.ended (.ok ())) .opened ∧
      ∃ calls outcome last, calls ≤ 3 ∧
        Runs Registry.defaults limits idle calls source .opened (.ended outcome) last ∧
        run Registry.defaults limits source .opened = (.ended outcome, last) := by
  intro limits source
  have sounds : source.ending ≠ .silent := nofun
  obtain ⟨_, _, ends⟩ := loop_progress Registry.defaults limits source sounds
  obtain ⟨calls, outcome, last, most, runs, own⟩ := ends idle .opened
  refine ⟨sounds, ?_, calls, outcome, last, most, runs, own rfl⟩
  exact .go rfl (.go rfl (.stop rfl))

end ReadLoop

end EditorRpc
