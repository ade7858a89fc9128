import EditorRpc.Frame.Reader
import EditorRpc.Registry

/-!
Typed messages from a stream. A call reads one frame and resolves its document; a frame whose document
is dropped gives no message and does not end the reading. The whole stream is a list of such results
and the stop after them. Main statement: `length_lt_of_readMessage`, by which every result takes
bytes off the stream.
-/

set_option autoImplicit false
set_option relaxedAutoImplicit false

namespace EditorRpc.Inbox

def resolve (registry : Registry) (document : Json) : Except Stop (Option Incoming) :=
  (registry.dispatch document).mapError .failed

def readMessage (registry : Registry) (limits : Limits) (s : Source) :
    Except Stop (Option Incoming) × Source :=
  match Frame.readDocument limits s with
  | (.error stop, rest) => (.error stop, rest)
  | (.ok none, rest) => (.ok none, rest)
  | (.ok (some document), rest) => (resolve registry document, rest)

theorem length_lt_of_readMessage {registry : Registry} {limits : Limits} {s rest : Source}
    {message : Option Incoming} (h : readMessage registry limits s = (.ok message, rest)) :
    rest.bytes.length < s.bytes.length := by
  unfold readMessage at h
  split at h
  · simp at h
  · next document =>
    obtain ⟨rfl, rfl⟩ := by simpa using h
    exact Frame.length_lt_of_readDocument document
  · next document =>
    have same := congrArg Prod.snd h
    simp only at same
    exact same ▸ Frame.length_lt_of_readDocument document

/-- The results of one call after the other, and the stop that ends them. -/
structure Transcript where
  results : List (Option Incoming)
  stop : Stop
deriving DecidableEq

/-- Read to the first stop. -/
def readAll (registry : Registry) (limits : Limits) (s : Source) : Transcript :=
  match h : readMessage registry limits s with
  | (.error stop, _) => ⟨[], stop⟩
  | (.ok result, rest) =>
    have := length_lt_of_readMessage h
    let later := readAll registry limits rest
    ⟨result :: later.results, later.stop⟩
termination_by s.bytes.length

theorem readAll_eq (registry : Registry) (limits : Limits) (s : Source) :
    readAll registry limits s =
      match readMessage registry limits s with
      | (.error stop, _) => ⟨[], stop⟩
      | (.ok result, rest) =>
        ⟨result :: (readAll registry limits rest).results, (readAll registry limits rest).stop⟩ := by
  rw [readAll]
  split
  · next same => rw [same]
  · next same => simp only [same]

def Transcript.messages (t : Transcript) : List Incoming :=
  t.results.filterMap id

end EditorRpc.Inbox
