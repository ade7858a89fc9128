import EditorRpc.Frame.Header
import EditorRpc.Json.Parser
import EditorRpc.Stream.Source

/-!
Reading frames. A frame is a header block and a body of the length that the block gives. Three limits
bound what a peer can make a reader take: the lines of a block, the bytes of a line, and the bytes
of a body.
-/

set_option autoImplicit false
set_option relaxedAutoImplicit false

namespace EditorRpc

/-- The limits of a reader. A body within them is taken to find room in memory, however large they
are. -/
structure Limits where
  headerLines : Nat
  lineBytes : Nat
  bodyBytes : Nat
  bodyBytes_lt : bodyBytes < Frame.lengthBound
deriving DecidableEq

/-- Ten lines of 8192 bytes, and a body of 64 mebibytes. -/
instance : Inhabited Limits := ⟨⟨10, 8192, 67108864, by decide⟩⟩

namespace Frame

/-- Read the lines of a header block, of which there may be `lines` more after `index` others, up to
the blank one. The value is the length given last, if any is given. -/
def readHeaders (limits : Limits) :
    (lines index : Nat) → (length : Option Nat) → Source → Except Stop (Option Nat) × Source
  | 0, _, _, s => (.error (.failed (.headerOverflow limits.headerLines)), s)
  | lines + 1, index, length, s =>
    match s.readLine limits.lineBytes with
    | (.error stop, rest) => (.error stop, rest)
    | (.ok (.unfinished count), rest) =>
      if count = 0 ∧ index = 0 then (.error (.failed (.io .endOfStream)), rest)
      else if limits.lineBytes ≤ count then
        (.error (.failed (.headerLineTooLong limits.lineBytes)), rest)
      else (.error (.failed (.truncatedFrame (.inHeader index))), rest)
    | (.ok (.line content), rest) =>
      match HeaderLine.ofBytes limits.bodyBytes content with
      | .blank => (.ok length, rest)
      | .length n => readHeaders limits lines (index + 1) (some n) rest
      | .oversize value => (.error (.failed (.contentTooLarge value limits.bodyBytes)), rest)
      | .other => readHeaders limits lines (index + 1) length rest

/-- Read a body of `length` bytes. Making a buffer of that size is taken to succeed. -/
def readBody (length : Nat) (s : Source) : Except Stop Bytes × Source :=
  match s.readUpTo length with
  | (.error stop, rest) => (.error stop, rest)
  | (.ok body, rest) =>
    if body.length < length then
      (.error (.failed (.truncatedFrame (.inBody length body.length))), rest)
    else (.ok body, rest)

/-- Read a frame. There is no body if the header block gives no length. -/
def read (limits : Limits) (s : Source) : Except Stop (Option Bytes) × Source :=
  match readHeaders limits limits.headerLines 0 none s with
  | (.error stop, rest) => (.error stop, rest)
  | (.ok none, rest) => (.ok none, rest)
  | (.ok (some length), rest) =>
    let (body, rest) := readBody length rest
    (body.map some, rest)

def parseBody (body : Bytes) : Except Stop Json :=
  (Json.parse body).mapError fun e => .failed (.malformedBody e)

def readDocument (limits : Limits) (s : Source) : Except Stop (Option Json) × Source :=
  match read limits s with
  | (.error stop, rest) => (.error stop, rest)
  | (.ok none, rest) => (.ok none, rest)
  | (.ok (some body), rest) => ((parseBody body).map some, rest)

/-- A header block that was read took at least its blank line. -/
theorem length_lt_of_readHeaders {limits : Limits} {lines index : Nat}
    {length found : Option Nat} {s rest : Source}
    (h : readHeaders limits lines index length s = (.ok found, rest)) :
    rest.bytes.length < s.bytes.length := by
  induction lines generalizing index length s with
  | zero => simp [readHeaders] at h
  | succ lines ih =>
    rw [readHeaders] at h
    split at h
    · simp at h
    · split at h
      · simp at h
      · split at h <;> simp at h
    · next content after read =>
      have shorter := Source.length_lt_of_readLine read
      split at h
      · obtain ⟨rfl, rfl⟩ := by simpa using h
        exact shorter
      · exact Nat.lt_trans (ih h) shorter
      · simp at h
      · exact Nat.lt_trans (ih h) shorter

theorem length_readBody_le (length : Nat) (s : Source) :
    (readBody length s).2.bytes.length ≤ s.bytes.length := by
  have bound := Source.length_readUpTo_le length s
  unfold readBody
  split
  · next read => simpa [read] using bound
  · next read => split <;> simpa [read] using bound

theorem length_lt_of_read {limits : Limits} {s rest : Source} {body : Option Bytes}
    (h : read limits s = (.ok body, rest)) : rest.bytes.length < s.bytes.length := by
  unfold read at h
  split at h
  · simp at h
  · next headers =>
    obtain ⟨rfl, rfl⟩ := by simpa using h
    exact length_lt_of_readHeaders headers
  · next length after headers =>
    have shorter := length_lt_of_readHeaders headers
    have bound := length_readBody_le length after
    have same : rest = (readBody length after).2 := (congrArg Prod.snd h).symm
    rw [same]
    omega

theorem length_lt_of_readDocument {limits : Limits} {s rest : Source} {document : Option Json}
    (h : readDocument limits s = (.ok document, rest)) :
    rest.bytes.length < s.bytes.length := by
  unfold readDocument at h
  split at h
  · simp at h
  · next frame =>
    obtain ⟨rfl, rfl⟩ := by simpa using h
    exact length_lt_of_read frame
  · next frame =>
    have same := congrArg Prod.snd h
    simp only at same
    exact same ▸ length_lt_of_read frame

end Frame

end EditorRpc
