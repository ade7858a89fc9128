import EditorRpc.Inbox

/-!
The loop that reads in the background and the channel on which it sends the messages. In each round it
reads one message and sends it; it stops without a failure when the peer closes the stream between two
frames, and when it has a message and nobody is left to take it. Main statement: `length_lt_of_round`,
by which the loop stops.
-/

set_option autoImplicit false
set_option relaxedAutoImplicit false

namespace EditorRpc

/-- The way of the messages from the loop to the owner. -/
structure Channel where
  /-- What was sent and not received yet, in the order of the sending. -/
  queue : List Incoming
  /-- Nobody is left to receive anything. -/
  closed : Bool

namespace Channel

def opened : Channel :=
  ⟨[], false⟩

/-- Send a message. That fails if nobody is left to receive it. -/
def send (channel : Channel) (message : Incoming) : Option Channel :=
  if channel.closed then none else some { channel with queue := channel.queue ++ [message] }

/-- Stop receiving. What is in the queue is lost. -/
def close (_ : Channel) : Channel :=
  ⟨[], true⟩

end Channel

namespace ReadLoop

inductive Halt
  | waiting
  | ended (outcome : Except Failure Unit)

def Halt.ofStop : Stop → Halt
  | .waiting => .waiting
  | .failed f => .ended (if f.isEof then .ok () else .error f)

def round (registry : Registry) (limits : Limits) (source : Source) (channel : Channel) :
    Except Halt (Source × Channel) :=
  match Inbox.readMessage registry limits source with
  | (.error stop, _) => .error (.ofStop stop)
  | (.ok none, rest) => .ok (rest, channel)
  | (.ok (some message), rest) =>
    match channel.send message with
    | none => .error (.ended (.ok ()))
    | some channel => .ok (rest, channel)

theorem length_lt_of_round {registry : Registry} {limits : Limits} {source rest : Source}
    {channel after : Channel} (h : round registry limits source channel = .ok (rest, after)) :
    rest.bytes.length < source.bytes.length := by
  unfold round at h
  split at h
  · cases h
  · next read =>
    cases h
    exact Inbox.length_lt_of_readMessage read
  · next read =>
    split at h
    · cases h
    · cases h
      exact Inbox.length_lt_of_readMessage read

def run (registry : Registry) (limits : Limits) (source : Source) (channel : Channel) :
    Halt × Channel :=
  match h : round registry limits source channel with
  | .error halt => (halt, channel)
  | .ok (rest, after) =>
    have := length_lt_of_round h
    run registry limits rest after
termination_by source.bytes.length

theorem run_eq (registry : Registry) (limits : Limits) (source : Source) (channel : Channel) :
    run registry limits source channel =
      match round registry limits source channel with
      | .error halt => (halt, channel)
      | .ok (rest, after) => run registry limits rest after := by
  rw [run]
  split
  · next same => rw [same]
  · next same => simp only [same]

end ReadLoop

/-- The loop, which reads on from somewhere or has stopped. -/
inductive ReadLoop
  | reading (source : Source)
  | halted (halt : ReadLoop.Halt)

end EditorRpc
