import EditorRpc.Connection
import EditorRpc.Proofs.Inbox.Answers

/-!
What the owner of a connection receives is what the calls on the stream give. The loop sends every
message once and in order, and its outcome is that of the last call, unless a message comes when
nobody is left to receive it. Main statement: `receive_eq_calls`.
-/

set_option autoImplicit false
set_option relaxedAutoImplicit false

namespace EditorRpc

namespace ReadLoop

open Inbox (readMessage Reads Call)

variable {registry : Registry} {limits : Limits} {source rest : Source}

/-! ### One round -/

theorem run_of_stop {stop : Stop}
    (read : readMessage registry limits source = (.error stop, rest)) (channel : Channel) :
    run registry limits source channel = (.ofStop stop, channel) := by
  rw [run_eq, round, read]

theorem run_of_none (read : readMessage registry limits source = (.ok none, rest))
    (channel : Channel) :
    run registry limits source channel = run registry limits rest channel := by
  rw [run_eq, round, read]

theorem run_of_message {message : Incoming}
    (read : readMessage registry limits source = (.ok (some message), rest))
    (queue : List Incoming) :
    run registry limits source ⟨queue, false⟩ =
      run registry limits rest ⟨queue ++ [message], false⟩ := by
  rw [run_eq, round, read]
  rfl

theorem run_of_message_closed {message : Incoming}
    (read : readMessage registry limits source = (.ok (some message), rest))
    (queue : List Incoming) :
    run registry limits source ⟨queue, true⟩ = (.ended (.ok ()), ⟨queue, true⟩) := by
  rw [run_eq, round, read]
  rfl

/-! ### The whole run -/

theorem run_of_reads {results : List (Option Incoming)}
    (reads : Reads registry limits source results rest) (queue : List Incoming) :
    run registry limits source ⟨queue, false⟩ =
      run registry limits rest ⟨queue ++ results.filterMap id, false⟩ := by
  induction reads generalizing queue with
  | nil s => rw [List.filterMap_nil, List.append_nil]
  | @cons s next rest result results first _ ih =>
    cases result with
    | none =>
      rw [run_of_none first, ih]
      rfl
    | some message =>
      have order : queue ++ (some message :: results).filterMap id =
          queue ++ [message] ++ results.filterMap id := by
        rw [List.append_assoc]
        rfl
      rw [run_of_message first, ih, order]

theorem run_of_reads_closed {results : List (Option Incoming)}
    (reads : Reads registry limits source results rest) (queue : List Incoming) :
    run registry limits source ⟨queue, true⟩ =
      if results.filterMap id = [] then run registry limits rest ⟨queue, true⟩
      else (.ended (.ok ()), ⟨queue, true⟩) := by
  induction reads with
  | nil s => rfl
  | @cons s next rest result results first _ ih =>
    cases result with
    | none =>
      rw [run_of_none first, ih]
      rfl
    | some message =>
      have sent : (some message :: results).filterMap id ≠ [] := List.cons_ne_nil _ _
      rw [run_of_message_closed first, if_neg sent]

theorem run_of_call {results : List (Option Incoming)} {start : Source} {stop : Stop}
    (call : Call registry limits source results start (.error stop) rest)
    (queue : List Incoming) :
    run registry limits source ⟨queue, false⟩ =
      (.ofStop stop, ⟨queue ++ results.filterMap id, false⟩) := by
  rw [run_of_reads call.1, run_of_stop call.2]

/-- The loop ends at the first message that nobody is left to receive. -/
theorem run_of_call_closed {results : List (Option Incoming)} {start : Source} {stop : Stop}
    (call : Call registry limits source results start (.error stop) rest)
    (queue : List Incoming) :
    run registry limits source ⟨queue, true⟩ =
      (if results.filterMap id = [] then .ofStop stop else .ended (.ok ()), ⟨queue, true⟩) := by
  rw [run_of_reads_closed call.1, run_of_stop call.2]
  split <;> rfl

end ReadLoop

namespace Connection

/-! ### After the run -/

/-- The loop has ended, and these messages are still to be received. -/
def HasRun (c : Connection) (messages : List Incoming) (outcome : Except Failure Unit) : Prop :=
  c.loop = .halted (.ended outcome) ∧ c.channel = ⟨messages, false⟩

variable {c : Connection} {messages : List Incoming} {outcome : Except Failure Unit}

theorem HasRun.poll_eq (h : c.HasRun messages outcome) :
    ∃ rest, c.poll = (.ready messages.head?, rest) ∧ rest.HasRun messages.tail outcome := by
  obtain ⟨registry, limits, loop, aborted, channel, sink, sends, cancellation⟩ := c
  obtain ⟨ended, queued⟩ := h
  dsimp only at ended queued
  subst ended queued
  cases messages with
  | nil => exact ⟨_, rfl, rfl, rfl⟩
  | cons message later => exact ⟨_, rfl, rfl, rfl⟩

theorem HasRun.receive_eq (h : c.HasRun messages outcome) :
    ∃ rest, c.receive = (.ok messages.head?, rest) ∧ rest.HasRun messages.tail outcome := by
  obtain ⟨rest, polled, left⟩ := h.poll_eq
  refine ⟨rest, ?_, left⟩
  rw [receive, polled]

theorem HasRun.readTimes_receive (h : c.HasRun messages outcome) (n : Nat) :
    (readTimes receive n c).1 = (List.range n).map (fun i => .ok messages[i]?) ∧
      (readTimes receive n c).2.HasRun (messages.drop n) outcome := by
  induction n generalizing c messages with
  | zero => exact ⟨rfl, h⟩
  | succ n ih =>
    obtain ⟨rest, received, left⟩ := h.receive_eq
    obtain ⟨later, last⟩ := ih left
    rw [readTimes, received]
    dsimp only
    constructor
    · rw [later, List.range_succ_eq_map, List.map_cons, List.map_map, List.head?_eq_getElem?]
      congr 2
      funext i
      exact congrArg _ List.getElem?_tail
    · rw [List.drop_tail] at last
      exact last

theorem HasRun.receiveUpTo_eq (h : c.HasRun messages outcome) (n : Nat) :
    (c.receiveUpTo n).1 = messages.take n ∧
      (c.receiveUpTo n).2.HasRun (messages.drop n) outcome := by
  induction n generalizing c messages with
  | zero => exact ⟨rfl, h⟩
  | succ n ih =>
    obtain ⟨rest, received, left⟩ := h.receive_eq
    cases messages with
    | nil =>
      rw [receiveUpTo, received]
      exact ⟨rfl, left⟩
    | cons message later =>
      obtain ⟨taken, last⟩ := ih left
      rw [receiveUpTo, received]
      exact ⟨congrArg (message :: ·) taken, last⟩

theorem HasRun.incoming_eq_queue (h : c.HasRun messages outcome) :
    c.incoming.1 = messages ∧ c.incoming.2.HasRun [] outcome := by
  induction messages generalizing c with
  | nil =>
    obtain ⟨rest, polled, left⟩ := h.poll_eq
    rw [incoming_eq, polled]
    exact ⟨rfl, left⟩
  | cons message later ih =>
    obtain ⟨rest, polled, left⟩ := h.poll_eq
    obtain ⟨others, last⟩ := ih left
    rw [incoming_eq, polled]
    exact ⟨congrArg (message :: ·) others, last⟩

theorem HasRun.join_eq (h : c.HasRun messages outcome) : c.join = outcome.mapError .failed := by
  obtain ⟨registry, limits, loop, aborted, channel, sink, sends, cancellation⟩ := c
  obtain ⟨ended, queued⟩ := h
  dsimp only at ended queued
  subst ended queued
  rfl

/-! ### Before the run -/

private theorem mapError_ite (f : Failure) :
    (if f.isEof then .ok () else .error f : Except Failure Unit).mapError Stop.failed =
      if f.isEof then .ok () else .error (.failed f) := by
  split <;> rfl

section

variable {registry : Registry} {limits : Limits} {source start rest : Source} {f : Failure}
  {results : List (Option Incoming)}

theorem hasRun_start
    (call : Inbox.Call registry limits source results start (.error (.failed f)) rest)
    (sink : Sink) (cancellation : String) :
    (of registry limits source sink cancellation).start.HasRun (results.filterMap id)
      (if f.isEof then .ok () else .error f) := by
  have run := ReadLoop.run_of_call call []
  rw [List.nil_append] at run
  constructor
  · rw [Connection.start]
    dsimp only [of, Channel.opened]
    rw [run]
    rfl
  · rw [Connection.start]
    dsimp only [of, Channel.opened]
    rw [run]

theorem join_of_call
    (call : Inbox.Call registry limits source results start (.error (.failed f)) rest)
    (sink : Sink) (cancellation : String) :
    (of registry limits source sink cancellation).join =
      if results.filterMap id = [] then if f.isEof then .ok () else .error (.failed f)
      else .ok () := by
  have run := ReadLoop.run_of_call_closed call []
  rw [join, Connection.start]
  dsimp only [of, Channel.close]
  rw [run]
  by_cases none : results.filterMap id = []
  · rw [if_pos none, if_pos none]
    exact mapError_ite f
  · rw [if_neg none, if_neg none]
    rfl

theorem incoming_of_pending (polled : c.poll = (.pending, c)) (may : c.mayRun = true) :
    c.incoming = c.start.incoming := by
  rw [incoming_eq, polled]
  exact if_pos may

/-- Nothing has come yet. Once the loop runs, these messages are there and it has ended. -/
structure Awaits (c : Connection) (messages : List Incoming) (outcome : Except Failure Unit) :
    Prop where
  pending : c.poll = (.pending, c)
  may : c.mayRun = true
  run : c.start.HasRun messages outcome

theorem awaits_of_call
    (call : Inbox.Call registry limits source results start (.error (.failed f)) rest)
    (sink : Sink) (cancellation : String) :
    (of registry limits source sink cancellation).Awaits (results.filterMap id)
      (if f.isEof then .ok () else .error f) :=
  ⟨rfl, rfl, hasRun_start call sink cancellation⟩

theorem Awaits.receive_eq (h : c.Awaits messages outcome) : c.receive = c.start.receive := by
  obtain ⟨rest, asked, _⟩ := h.run.poll_eq
  have first : c.receive = (.ok messages.head?, rest) := by
    rw [receive, h.pending]
    dsimp only
    rw [asked]
  have second : c.start.receive = (.ok messages.head?, rest) := by
    rw [receive, asked]
  rw [first, second]

theorem Awaits.readTimes_receive (h : c.Awaits messages outcome) (n : Nat) :
    (readTimes receive n c).1 = (List.range n).map (fun i => .ok messages[i]?) ∧
      (1 ≤ n → (readTimes receive n c).2.HasRun (messages.drop n) outcome) := by
  cases n with
  | zero => exact ⟨rfl, nofun⟩
  | succ n =>
    have started : readTimes receive (n + 1) c = readTimes receive (n + 1) c.start := by
      rw [readTimes, readTimes, h.receive_eq]
    obtain ⟨received, last⟩ := h.run.readTimes_receive (n + 1)
    rw [started]
    exact ⟨received, fun _ => last⟩

theorem Awaits.receiveUpTo_eq (h : c.Awaits messages outcome) (n : Nat) :
    (c.receiveUpTo n).1 = messages.take n ∧
      (1 ≤ n → (c.receiveUpTo n).2.HasRun (messages.drop n) outcome) := by
  cases n with
  | zero => exact ⟨rfl, nofun⟩
  | succ n =>
    have started : c.receiveUpTo (n + 1) = c.start.receiveUpTo (n + 1) := by
      rw [receiveUpTo, receiveUpTo, h.receive_eq]
    obtain ⟨taken, last⟩ := h.run.receiveUpTo_eq (n + 1)
    rw [started]
    exact ⟨taken, fun _ => last⟩

theorem Awaits.receiveAll_eq (h : c.Awaits messages outcome) :
    c.receiveAll.1 = messages ∧ c.receiveAll.2.HasRun [] outcome := by
  have queued : c.start.channel.queue = messages := congrArg Channel.queue h.run.2
  obtain ⟨taken, last⟩ := h.receiveUpTo_eq (messages.length + 1)
  have more : messages.length ≤ messages.length + 1 := Nat.le_succ _
  rw [List.take_of_length_le more] at taken
  rw [List.drop_of_length_le more] at last
  rw [receiveAll, queued]
  exact ⟨taken, last (Nat.le_add_left 1 _)⟩

theorem Awaits.incoming_eq (h : c.Awaits messages outcome) :
    c.incoming.1 = messages ∧ c.incoming.2.HasRun [] outcome := by
  rw [incoming_of_pending h.pending h.may]
  exact h.run.incoming_eq_queue

end

/-- What the owner receives are the messages among the results of the calls on the stream, in order,
and after them nothing. The loop ends as the last call does, however many messages were received; if
none was, the first of them ends the loop. -/
theorem receive_eq_calls (registry : Registry) (limits : Limits) (source : Source) (sink : Sink)
    (cancellation : String) (sounds : source.ending ≠ .silent) :
    ∃ results start f rest,
      Inbox.Call registry limits source results start (.error (.failed f)) rest ∧
      let messages := results.filterMap id
      let outcome : Except Stop Unit := if f.isEof then .ok () else .error (.failed f)
      let c := of registry limits source sink cancellation
      (∀ n, (readTimes receive n c).1 = (List.range n).map fun i => .ok messages[i]?) ∧
      (∀ n, 1 ≤ n → (readTimes receive n c).2.join = outcome) ∧
      (∀ n, (c.receiveUpTo n).1 = messages.take n) ∧
      (∀ n, 1 ≤ n → (c.receiveUpTo n).2.join = outcome) ∧
      c.receiveAll.1 = messages ∧ c.receiveAll.2.join = outcome ∧
      c.incoming.1 = messages ∧ c.incoming.2.poll.1 = .ready none ∧
      c.incoming.2.join = outcome ∧
      c.join = if messages = [] then outcome else .ok () := by
  obtain ⟨results, start, f, rest, call⟩ := Inbox.exists_call_failed registry limits sounds
  refine ⟨results, start, f, rest, call, ?_⟩
  intro messages outcome c
  have awaits := awaits_of_call call sink cancellation
  have ends : ∀ {last : Connection} {left : List Incoming},
      last.HasRun left (if f.isEof then .ok () else .error f) → last.join = outcome :=
    fun hasRun => hasRun.join_eq.trans (mapError_ite f)
  obtain ⟨all, emptied⟩ := awaits.receiveAll_eq
  obtain ⟨stream, drained⟩ := awaits.incoming_eq
  obtain ⟨last, asked, _⟩ := drained.poll_eq
  exact ⟨fun n => (awaits.readTimes_receive n).1,
    fun n some => ends ((awaits.readTimes_receive n).2 some),
    fun n => (awaits.receiveUpTo_eq n).1,
    fun n some => ends ((awaits.receiveUpTo_eq n).2 some),
    all, ends emptied, stream, congrArg Prod.fst asked, ends drained,
    join_of_call call sink cancellation⟩

/-- A message, and then the stream breaks. The owner learns of that only if it received something. -/
theorem receive_eq_calls_broken :
    let limits : Limits := ⟨3, 30, 40, by decide⟩
    let fault : IoFault := ⟨.connectionReset, "Connection lost"⟩
    let source : Source := ⟨Utf8.ofString
      "Content-Length: 40\r\n\r\n\x7b\"jsonrpc\":\"2.0\",\"method\":\"initialized\"\x7d",
      .broken fault⟩
    let c := of .defaults limits source (.ofRoom none fault)
    source.ending ≠ .silent ∧
      (readTimes receive 2 c).1 = [.ok (some .initialized), .ok none] ∧
      (readTimes receive 1 c).2.join = .error (.failed (.io fault)) ∧ c.join = .ok () := by
  intro limits fault source c
  have sounds : source.ending ≠ .silent := by decide
  have first : Inbox.readMessage .defaults limits source =
      (.ok (some .initialized), ⟨[], .broken fault⟩) := by decide +kernel
  have second : Inbox.readMessage .defaults limits ⟨[], .broken fault⟩ =
      (.error (.failed (.io fault)), ⟨[], .closed⟩) := by decide +kernel
  obtain ⟨results, start, f, rest, call, received, ends, _, _, _, _, _, _, _, joined⟩ :=
    receive_eq_calls .defaults limits source (.ofRoom none fault) "" sounds
  have given := Inbox.readAll_of_reads call
  rw [Inbox.readAll_of_reads ⟨.cons first (.nil _), second⟩] at given
  cases given
  exact ⟨sounds, received 2, ends 1 (Nat.le_refl 1), joined⟩

end Connection

end EditorRpc
