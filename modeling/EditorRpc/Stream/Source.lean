import EditorRpc.Failure

/-!
Streams that are read. A stream is the bytes that are still to come and what happens after them.
Reading takes bytes off the front; it meets the end only if it needs a byte that is not there.
-/

set_option autoImplicit false
set_option relaxedAutoImplicit false

namespace EditorRpc

inductive Ending
  | closed
  /-- One read fails; afterwards the stream is closed. -/
  | broken (fault : IoFault)
  /-- Nothing happens any more. -/
  | silent
deriving DecidableEq

structure Source where
  bytes : Bytes
  ending : Ending
deriving DecidableEq

inductive Stop
  | failed (f : Failure)
  | waiting
deriving DecidableEq

inductive LineRead
  /-- A line, without its line feed. -/
  | line (content : Bytes)
  /-- So many bytes, and no line feed among them. -/
  | unfinished (count : Nat)
deriving DecidableEq

/-- The bytes before the first line feed and those after it, if it is one of the first `limit` bytes.
The bytes that were passed stand in front, last first. -/
def splitLine (passed : Bytes) : (limit : Nat) → Bytes → Option (Bytes × Bytes)
  | 0, _ => none
  | _ + 1, [] => none
  | limit + 1, b :: r =>
    if b = Json.lineFeed then some (passed.reverse, r) else splitLine (b :: passed) limit r

theorem length_lt_of_splitLine {passed content rest bytes : Bytes} {limit : Nat}
    (h : splitLine passed limit bytes = some (content, rest)) : rest.length < bytes.length := by
  induction limit generalizing passed bytes with
  | zero => simp [splitLine] at h
  | succ limit ih =>
    cases bytes with
    | nil => simp [splitLine] at h
    | cons b r =>
      rw [splitLine] at h
      split at h
      · obtain ⟨rfl, rfl⟩ := by simpa using h
        simp
      · have := ih h
        simp only [List.length_cons]
        omega

namespace Source

def ofBytes (bytes : Bytes) : Source :=
  ⟨bytes, .closed⟩

def drain (s : Source) : Except Stop Unit × Source :=
  match s.ending with
  | .closed => (.ok (), ⟨[], .closed⟩)
  | .broken fault => (.error (.failed (.io fault)), ⟨[], .closed⟩)
  | .silent => (.error .waiting, ⟨[], .silent⟩)

/-- Read a line of at most `limit` bytes, its line feed included. -/
def readLine (limit : Nat) (s : Source) : Except Stop LineRead × Source :=
  match splitLine [] limit s.bytes with
  | some (content, rest) => (.ok (.line content), { s with bytes := rest })
  | none =>
    if limit ≤ s.bytes.length then
      (.ok (.unfinished limit), { s with bytes := s.bytes.drop limit })
    else
      let (met, rest) := s.drain
      (met.map fun _ => .unfinished s.bytes.length, rest)

/-- Read `count` bytes, or as many as there are. -/
def readUpTo (count : Nat) (s : Source) : Except Stop Bytes × Source :=
  let taken := s.bytes.take count
  if taken.length = count then (.ok taken, { s with bytes := s.bytes.drop count })
  else
    let (met, rest) := s.drain
    (met.map fun _ => taken, rest)

theorem bytes_drain (s : Source) : s.drain.2.bytes = [] := by
  unfold drain
  split <;> rfl

theorem length_lt_of_readLine {limit : Nat} {s rest : Source} {content : Bytes}
    (h : s.readLine limit = (.ok (.line content), rest)) :
    rest.bytes.length < s.bytes.length := by
  unfold readLine at h
  split at h
  · next split =>
    have shorter := length_lt_of_splitLine split
    obtain ⟨rfl, rfl⟩ := by simpa using h
    exact shorter
  · split at h
    · simp at h
    · cases met : s.drain.1 with
      | error stop => simp [met, Except.map] at h
      | ok _ => simp [met, Except.map] at h

theorem length_readUpTo_le (count : Nat) (s : Source) :
    (s.readUpTo count).2.bytes.length ≤ s.bytes.length := by
  unfold readUpTo
  dsimp only
  split
  · simp
  · simp [bytes_drain]

end Source

end EditorRpc
