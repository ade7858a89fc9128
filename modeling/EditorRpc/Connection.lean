import EditorRpc.Frame.Writer
import EditorRpc.ReadLoop
import EditorRpc.WindowMessage

/-!
A connection: a loop that reads messages into a channel, and an owner that receives them from there,
sends messages of its own, and at last asks how the loop ended. The loop starts when the owner first
waits for it, or gives way after a turn of many sends, and then runs until it stops. Main statements:
`mayRun_start` and `queue_of_poll_message`, by which the stream of messages can be taken to its end.
-/

set_option autoImplicit false
set_option relaxedAutoImplicit false

namespace EditorRpc

inductive Poll (α : Type)
  | ready (answer : α)
  | pending

structure Connection where
  registry : Registry
  limits : Limits
  loop : ReadLoop
  aborted : Bool
  channel : Channel
  sink : Sink
  sends : Nat
  /-- What the runtime says of the task of the loop once that was cancelled. -/
  cancellation : String

namespace Connection

def of (registry : Registry) (limits : Limits) (source : Source) (sink : Sink)
    (cancellation : String := "") : Connection :=
  ⟨registry, limits, .reading source, false, .opened, sink, 0, cancellation⟩

def start (c : Connection) : Connection :=
  match c.loop, c.aborted with
  | .reading source, false =>
    let (halt, channel) := ReadLoop.run c.registry c.limits source c.channel
    { c with loop := .halted halt, channel := channel }
  | _, _ => c

def mayRun (c : Connection) : Bool :=
  match c.loop, c.aborted with
  | .reading _, false => true
  | _, _ => false

theorem mayRun_start (c : Connection) : c.start.mayRun = false := by
  obtain ⟨registry, limits, loop, aborted, channel, sink, sends, cancellation⟩ := c
  cases loop with
  | reading source => cases aborted <;> rfl
  | halted halt => rfl

/-- The loop sends nothing any more. -/
def isOver (c : Connection) : Bool :=
  match c.loop with
  | .halted (.ended _) => true
  | _ => c.aborted

/-- Ask for the next message. There is none any more once the queue is empty and the loop is over. -/
def poll (c : Connection) : Poll (Option Incoming) × Connection :=
  match c.channel.queue with
  | message :: rest =>
    (.ready (some message), { c with channel := { c.channel with queue := rest } })
  | [] => (if c.isOver then .ready none else .pending, c)

theorem queue_of_poll_message {c rest : Connection} {message : Incoming}
    (h : c.poll = (.ready (some message), rest)) :
    rest = { c with channel := { c.channel with queue := rest.channel.queue } } ∧
      c.channel.queue = message :: rest.channel.queue := by
  unfold poll at h
  split at h
  · next same =>
    cases h
    exact ⟨rfl, same⟩
  · split at h <;> cases h

theorem eq_of_poll_pending {c rest : Connection} (h : c.poll = (.pending, rest)) : rest = c := by
  unfold poll at h
  split at h
  · cases h
  · exact (congrArg Prod.snd h).symm

/-- Wait for the next message, which is also the next item of the stream of messages. Where there is
none yet the loop runs. -/
def receive (c : Connection) : Except Stop (Option Incoming) × Connection :=
  match c.poll with
  | (.ready message, c) => (.ok message, c)
  | (.pending, c) =>
    match c.start.poll with
    | (.ready message, c) => (.ok message, c)
    | (.pending, c) => (.error .waiting, c)

def receiveUpTo : (count : Nat) → Connection → List Incoming × Connection
  | 0, c => ([], c)
  | count + 1, c =>
    match c.receive with
    | (.ok (some message), c) =>
      let (later, c) := receiveUpTo count c
      (message :: later, c)
    | (_, c) => ([], c)

def receiveAll (c : Connection) : List Incoming × Connection :=
  c.receiveUpTo (c.start.channel.queue.length + 1)

/-- The messages as a stream, up to its end or to where nothing comes any more. Each poll takes one of
them; where there is none yet the loop runs. -/
def incoming (c : Connection) : List Incoming × Connection :=
  match h : c.poll with
  | (.ready (some message), rest) =>
    have split := queue_of_poll_message h
    have same : rest.mayRun = c.mayRun := by rw [split.1]; rfl
    have shorter : rest.channel.queue.length < c.channel.queue.length := by rw [split.2]; simp
    let (later, last) := incoming rest
    (message :: later, last)
  | (.ready none, rest) => ([], rest)
  | (.pending, rest) =>
    if may : rest.mayRun then
      have same := eq_of_poll_pending h
      incoming rest.start
    else ([], rest)
termination_by (c.mayRun.toNat, c.channel.queue.length)
decreasing_by
  · rw [same]
    exact Prod.Lex.right _ shorter
  · refine Prod.Lex.left _ _ ?_
    rw [mayRun_start, ← same, may]
    decide

theorem incoming_eq (c : Connection) :
    c.incoming =
      match c.poll with
      | (.ready (some message), rest) => (message :: rest.incoming.1, rest.incoming.2)
      | (.ready none, rest) => ([], rest)
      | (.pending, rest) => if rest.mayRun then rest.start.incoming else ([], rest) := by
  rw [incoming]
  split
  · next same => simp only [same]
  · next same => simp only [same]
  · next same => simp only [same, dite_eq_ite]

/-- The number of sends that an owner does before it has to give way. -/
def sendsPerTurn : Nat := 128

/-- Give way to the loop if the turn is used up. -/
def giveWay (c : Connection) : Connection :=
  if c.sends < sendsPerTurn then c else c.start

def send {α : Type} [Wire α] (c : Connection) (message : α) : Except Failure Unit × Connection :=
  let c := c.giveWay
  let (result, sink) := Frame.writeMessage c.sink message
  (result, { c with sink := sink, sends := c.sends + 1 })

def sendResponse {α : Type} [Wire α] (c : Connection) (id : RequestId) (result : α) :
    Except Failure Unit × Connection :=
  c.send (Response.success id result)

def sendError (c : Connection) (id : Option RequestId) (error : ResponseError) :
    Except Failure Unit × Connection :=
  c.send (Response.failure id error : Response Json)

def sendNotification {α : Type} [Wire α] (c : Connection) (method : String) (params : Option α) :
    Except Failure Unit × Connection :=
  c.send (Notification.of method params)

def sendWindowMessage (c : Connection) (display : Display) (kind : MessageKind)
    (message : String) : Except Failure Unit × Connection :=
  c.send (WindowMessage.toNotification ⟨display, ⟨kind, message⟩⟩)

/-- Stop the loop without waiting for the peer. A loop that has ended stays as it is. -/
def abort (c : Connection) : Connection :=
  { c with aborted := true }

def cancelled (c : Connection) : Except Stop Unit :=
  .error (.failed (.connection ("read loop failed: " ++ c.cancellation)))

/-- Close the channel and wait for the loop to end. A loop that starts only now stops at its first
message, for which nobody is left. -/
def join (c : Connection) : Except Stop Unit :=
  let c := { c with channel := c.channel.close }.start
  match c.loop, c.aborted with
  | .halted (.ended outcome), _ => outcome.mapError .failed
  | _, true => c.cancelled
  | _, false => .error .waiting

end Connection

end EditorRpc
