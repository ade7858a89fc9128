import EditorRpc.Proofs.Connection.Refinement
import EditorRpc.Proofs.Inbox.Broken

/-!
A connection whose stream breaks. Whatever its owner does, once it has waited for a message the loop has
met the fault or was aborted, so the connection never ends well. Main statement: `join_of_broken`.
-/

set_option autoImplicit false
set_option relaxedAutoImplicit false

namespace EditorRpc.Connection

open Inbox (readAll IsEnd)

inductive Turn : Type 1
  | receive
  | incoming
  | send {α : Type} [Wire α] (message : α)
  | abort

def Turn.waits : Turn → Bool
  | .receive | .incoming => true
  | _ => false

def Turn.aborts : Turn → Bool
  | .abort => true
  | _ => false

def Turn.take (c : Connection) : Turn → Connection
  | .receive => c.receive.2
  | .incoming => c.incoming.2
  | @send _ _ message => (c.send message).2
  | .abort => c.abort

/-- The loop is still to read the stream. -/
def Ahead (registry : Registry) (limits : Limits) (source : Source) (c : Connection) : Prop :=
  ∃ sink sends cancellation,
    c = ⟨registry, limits, .reading source, false, .opened, sink, sends, cancellation⟩

/-- The loop has failed, or was aborted before it began. -/
def Past (g : Failure) (aborted : Bool) (c : Connection) : Prop :=
  c.aborted = aborted ∧
    (c.loop = .halted (.ended (.error g)) ∨ aborted = true ∧ ∃ source, c.loop = .reading source)

variable {c : Connection} {g : Failure} {aborted : Bool}

/-! ### After the failure -/

theorem Past.of_same {next : Connection} (h : Past g aborted c) (loop : next.loop = c.loop)
    (same : next.aborted = c.aborted) : Past g aborted next := by
  rw [Past, loop, same]
  exact h

theorem Past.start_eq (h : Past g aborted c) : c.start = c := by
  obtain ⟨registry, limits, loop, flag, channel, sink, sends, cancellation⟩ := c
  obtain ⟨rfl, halted | ⟨aborted, source, reading⟩⟩ := h
  · obtain rfl : loop = _ := halted
    rfl
  · obtain rfl : loop = _ := reading
    obtain rfl : flag = true := aborted
    rfl

theorem Past.giveWay_eq (h : Past g aborted c) : c.giveWay = c := by
  unfold giveWay
  split
  · rfl
  · exact h.start_eq

theorem Past.of_poll {answer : Poll (Option Incoming)} {rest : Connection}
    (h : Past g aborted c) (polled : c.poll = (answer, rest)) : Past g aborted rest := by
  have kept : c.poll.2.loop = c.loop ∧ c.poll.2.aborted = c.aborted := by
    unfold poll
    split <;> exact ⟨rfl, rfl⟩
  rw [polled] at kept
  exact h.of_same kept.1 kept.2

theorem Past.receive (h : Past g aborted c) : Past g aborted c.receive.2 := by
  unfold Connection.receive
  split
  · next polled => exact h.of_poll polled
  · next polled =>
    have rest := h.of_poll polled
    rw [rest.start_eq]
    split <;> next again => exact rest.of_poll again

theorem Past.incoming (h : Past g aborted c) : Past g aborted c.incoming.2 := by
  -- each item is a poll, and there is no loop any more that could be started
  fun_induction Connection.incoming c with
  | case1 c message rest polled split same shorter later last read ih =>
    have left := ih (h.of_poll polled)
    rw [read] at left
    exact left
  | case2 c rest polled => exact h.of_poll polled
  | case3 c may polled ih =>
    have left := h.of_poll polled
    apply ih
    rw [left.start_eq]
    exact left
  | case4 c rest polled may => exact h.of_poll polled

theorem Past.take (h : Past g aborted c) (turn : Turn) :
    Past g (aborted || turn.aborts) (turn.take c) := by
  cases turn with
  | receive =>
    show Past g (aborted || false) c.receive.2
    rw [Bool.or_false]
    exact h.receive
  | incoming =>
    show Past g (aborted || false) c.incoming.2
    rw [Bool.or_false]
    exact h.incoming
  | send message =>
    show Past g (aborted || false) (c.send message).2
    rw [Bool.or_false]
    apply h.of_same
    · show c.giveWay.loop = c.loop
      rw [h.giveWay_eq]
    · show c.giveWay.aborted = c.aborted
      rw [h.giveWay_eq]
  | abort =>
    show Past g (aborted || true) c.abort
    rw [Bool.or_true]
    refine ⟨rfl, ?_⟩
    rcases h.2 with halted | ⟨_, reading⟩
    · exact Or.inl halted
    · exact Or.inr ⟨rfl, reading⟩

theorem Past.join_eq (h : Past g aborted c) :
    c.join = .error (.failed g) ∨ aborted = true ∧ c.join = c.cancelled := by
  obtain ⟨registry, limits, loop, flag, channel, sink, sends, cancellation⟩ := c
  obtain ⟨rfl, halted | ⟨aborted, source, reading⟩⟩ := h
  · obtain rfl : loop = _ := halted
    exact Or.inl rfl
  · obtain rfl : loop = _ := reading
    obtain rfl : flag = true := aborted
    exact Or.inr ⟨rfl, rfl⟩

/-! ### Before the failure -/

section

variable {registry : Registry} {limits : Limits} {source stopping rest : Source}
  {results : List (Option Incoming)}

theorem Ahead.past_start (h : Ahead registry limits source c)
    (call : Inbox.Call registry limits source results stopping (.error (.failed g)) rest)
    (own : g.isEof = false) : Past g false c.start := by
  obtain ⟨sink, sends, cancellation, rfl⟩ := h
  have run := ReadLoop.run_of_call call []
  rw [Connection.start]
  dsimp only [Channel.opened]
  rw [run]
  refine ⟨rfl, Or.inl ?_⟩
  dsimp only [ReadLoop.Halt.ofStop]
  rw [own]
  rfl

/-- A turn leads to the failure, or to an abortion, unless the owner does not wait in it. -/
theorem Ahead.take (h : Ahead registry limits source c)
    (call : Inbox.Call registry limits source results stopping (.error (.failed g)) rest)
    (own : g.isEof = false) (turn : Turn) :
    Past g turn.aborts (turn.take c) ∨
      turn.waits = false ∧ turn.aborts = false ∧ Ahead registry limits source (turn.take c) := by
  have failed := h.past_start call own
  have pending : c.poll = (.pending, c) := by
    obtain ⟨sink, sends, cancellation, rfl⟩ := h
    rfl
  cases turn with
  | receive =>
    apply Or.inl
    show Past g false c.receive.2
    rw [Connection.receive, pending]
    dsimp only
    split <;> next polled => exact failed.of_poll polled
  | incoming =>
    have may : c.mayRun = true := by
      obtain ⟨sink, sends, cancellation, rfl⟩ := h
      rfl
    apply Or.inl
    show Past g false c.incoming.2
    rw [incoming_of_pending pending may]
    exact failed.incoming
  | send message =>
    by_cases more : c.sends < sendsPerTurn
    · have stays : c.giveWay = c := if_pos more
      obtain ⟨sink, sends, cancellation, rfl⟩ := h
      refine Or.inr ⟨rfl, rfl, (Frame.writeMessage sink message).2, sends + 1, cancellation, ?_⟩
      rw [Turn.take, Connection.send, stays]
    · have runs : c.giveWay = c.start := if_neg more
      apply Or.inl
      apply failed.of_same
      · show c.giveWay.loop = c.start.loop
        rw [runs]
      · show c.giveWay.aborted = c.start.aborted
        rw [runs]
  | abort =>
    obtain ⟨sink, sends, cancellation, rfl⟩ := h
    exact Or.inl ⟨rfl, Or.inr ⟨rfl, source, rfl⟩⟩

end

/-! ### All turns -/

theorem Past.foldl_take (h : Past g aborted c) (turns : List Turn) :
    Past g (aborted || turns.any Turn.aborts) (turns.foldl Turn.take c) := by
  induction turns generalizing c aborted with
  | nil =>
    rw [List.any_nil, Bool.or_false]
    exact h
  | cons turn turns ih =>
    rw [List.any_cons, ← Bool.or_assoc]
    exact ih (h.take turn)

theorem Ahead.foldl_take {registry : Registry} {limits : Limits} {source stopping rest : Source}
    {results : List (Option Incoming)} (h : Ahead registry limits source c)
    (call : Inbox.Call registry limits source results stopping (.error (.failed g)) rest)
    (own : g.isEof = false) {turns : List Turn} (waited : turns.any Turn.waits = true) :
    Past g (turns.any Turn.aborts) (turns.foldl Turn.take c) := by
  induction turns generalizing c with
  | nil => cases waited
  | cons turn turns ih =>
    rw [List.foldl_cons, List.any_cons]
    rcases h.take call own turn with past | ⟨passes, stays, ahead⟩
    · exact past.foldl_take turns
    · rw [List.any_cons, passes, Bool.false_or] at waited
      rw [stays, Bool.false_or]
      exact ih ahead waited

/-- Read a stream that breaks after some bytes, and one that is closed after them. The results before
the first failure are the same. Where the closed stream is at its end, between two frames or within
one, the broken one fails with its fault; otherwise both fail alike. A connection whose owner has
waited for a message never ends well: it ends with that failure, unless the owner aborted it. -/
theorem join_of_broken (registry : Registry) (limits : Limits) (positive : 1 ≤ limits.lineBytes)
    (bytes : Bytes) (fault : IoFault) (other : fault.kind ≠ .unexpectedEof) :
    ∃ results f g, readAll registry limits ⟨bytes, .closed⟩ = ⟨results, .failed f⟩ ∧
      readAll registry limits ⟨bytes, .broken fault⟩ = ⟨results, .failed g⟩ ∧
      (IsEnd f → g = .io fault) ∧ (¬IsEnd f → g = f) ∧
      (Failure.io fault).isFatal = true ∧ (Failure.io fault).isEof = false ∧
      ∀ (sink : Sink) (cancellation : String) (turns : List Turn), turns.any Turn.waits = true →
        let c := turns.foldl Turn.take (of registry limits ⟨bytes, .broken fault⟩ sink cancellation)
        c.join ≠ .ok () ∧ (turns.any Turn.aborts = false → c.join = .error (.failed g)) := by
  obtain ⟨results, f, g, closed, broken, atEnd, before⟩ :=
    Inbox.exists_readAll_broken registry positive bytes fault
  have noEof : (Failure.io fault).isEof = false := decide_eq_false other
  have own : g.isEof = false := by
    by_cases cause : IsEnd f
    · rw [atEnd cause]
      exact noEof
    · rw [before cause]
      cases eof : f.isEof with
      | false => rfl
      | true => exact absurd (Or.inl eof) cause
  refine ⟨results, f, g, closed, broken, atEnd, before, rfl, noEof, ?_⟩
  intro sink cancellation turns waited c
  obtain ⟨stopping, rest, call⟩ :=
    Inbox.exists_call_readAll registry limits ⟨bytes, .broken fault⟩
  rw [broken] at call
  have ahead : Ahead registry limits ⟨bytes, .broken fault⟩
      (of registry limits ⟨bytes, .broken fault⟩ sink cancellation) :=
    ⟨sink, 0, cancellation, rfl⟩
  have past : Past g (turns.any Turn.aborts) c := ahead.foldl_take call own waited
  rcases past.join_eq with failed | ⟨aborted, stopped⟩
  · rw [failed]
    exact ⟨nofun, fun _ => rfl⟩
  · rw [stopped, cancelled]
    refine ⟨nofun, ?_⟩
    intro going
    rw [aborted] at going
    cases going

/-- The stream breaks between two frames, where it might as well have been closed. -/
theorem join_of_broken_between :
    let limits : Limits := ⟨3, 30, 40, by decide⟩
    let fault : IoFault := ⟨.connectionReset, "Connection lost"⟩
    let bytes := Utf8.ofString
      "Content-Length: 40\r\n\r\n\x7b\"jsonrpc\":\"2.0\",\"method\":\"initialized\"\x7d"
    let turns : List Turn := [.send (⟨.number 7⟩ : CancelParams), .receive]
    1 ≤ limits.lineBytes ∧ fault.kind ≠ .unexpectedEof ∧ turns.any Turn.waits = true ∧
      turns.any Turn.aborts = false ∧
      readAll .defaults limits ⟨bytes, .closed⟩ =
        ⟨[some .initialized], .failed (.io .endOfStream)⟩ ∧
      (turns.foldl Turn.take (of .defaults limits ⟨bytes, .broken fault⟩
        (.ofRoom none fault))).join = .error (.failed (.io fault)) := by
  intro limits fault bytes turns
  have positive : 1 ≤ limits.lineBytes := by decide
  have other : fault.kind ≠ .unexpectedEof := by decide
  have first : Inbox.readMessage .defaults limits ⟨bytes, .closed⟩ =
      (.ok (some .initialized), ⟨[], .closed⟩) := by decide +kernel
  have second : Inbox.readMessage .defaults limits ⟨[], .closed⟩ =
      (.error (.failed (.io .endOfStream)), ⟨[], .closed⟩) := by decide +kernel
  have reading := Inbox.readAll_of_reads ⟨.cons first (.nil _), second⟩
  obtain ⟨results, f, g, closed, _, atEnd, _, _, _, ends⟩ :=
    join_of_broken .defaults limits positive bytes fault other
  rw [reading] at closed
  cases closed
  obtain rfl := atEnd (Or.inl rfl)
  exact ⟨positive, other, rfl, rfl, reading, (ends (.ofRoom none fault) "" turns rfl).2 rfl⟩

end EditorRpc.Connection
