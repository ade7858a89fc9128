import EditorRpc.Frame.Reader
import EditorRpc.Proofs.Frame.LengthGrammar
import EditorRpc.Proofs.Stream.SelfDelimiting
import EditorRpc.Proofs.Text.Utf8

/-!
What one line does to the reading of a header block, whatever stands before it and whatever comes
after it. A reader shows how it took a line by how it goes on, so the meaning of a line is a fact
about readers and not only about `HeaderLine.ofBytes`. Main statement: `takenAs_grammar`, by which
the grammar of length headers decides what readers do at a line.
-/

set_option autoImplicit false
set_option relaxedAutoImplicit false

namespace EditorRpc.Frame

/-- How reading goes on after a line of that meaning: `lines` more are allowed, and `length` was
given before the line. -/
def proceed (limits : Limits) (lines index : Nat) (length : Option Nat) (rest : Source) :
    HeaderLine → Except Stop (Option Nat) × Source
  | .blank => (.ok length, rest)
  | .length n => readHeaders limits lines (index + 1) (some n) rest
  | .oversize value => (.error (.failed (.contentTooLarge value limits.bodyBytes)), rest)
  | .other => readHeaders limits lines (index + 1) length rest

/-- All readers that allow bodies of `limit` bytes take the line in that meaning, wherever it stands
in a stream. -/
def TakenAs (limit : Nat) (line : Bytes) (meaning : HeaderLine) : Prop :=
  ∀ limits : Limits, limits.bodyBytes = limit → line.length < limits.lineBytes →
    ∀ (lines index : Nat) (length : Option Nat) (rest : Bytes) (ending : Ending),
      readHeaders limits (lines + 1) index length ⟨line ++ [Json.lineFeed] ++ rest, ending⟩ =
        proceed limits lines index length ⟨rest, ending⟩ meaning

variable {limit : Nat} {line : Bytes} {meaning : HeaderLine}

theorem readHeaders_line {limits : Limits} (one : Json.lineFeed ∉ line)
    (fits : line.length < limits.lineBytes) (lines index : Nat) (length : Option Nat)
    (rest : Bytes) (ending : Ending) :
    readHeaders limits (lines + 1) index length ⟨line ++ [Json.lineFeed] ++ rest, ending⟩ =
      proceed limits lines index length ⟨rest, ending⟩
        (HeaderLine.ofBytes limits.bodyBytes line) := by
  rw [readHeaders, Source.readLine_line one fits]
  dsimp only
  cases HeaderLine.ofBytes limits.bodyBytes line <;> rfl

private theorem readHeaders_closing {limits : Limits} (positive : 0 < limits.lineBytes)
    (index : Nat) (length : Option Nat) :
    readHeaders limits 1 index length ⟨[Json.lineFeed], .closed⟩ =
      (.ok length, ⟨[], .closed⟩) :=
  readHeaders_line List.not_mem_nil positive 0 index length [] .closed

/-- In front of a blank line, lines of different meanings lead to different results. -/
private theorem eq_of_proceed_eq {limits : Limits} (positive : 0 < limits.lineBytes)
    {a b : HeaderLine}
    (same : proceed limits 1 0 none ⟨[Json.lineFeed], .closed⟩ a =
      proceed limits 1 0 none ⟨[Json.lineFeed], .closed⟩ b) : a = b := by
  revert same
  cases a <;> cases b <;> simp [proceed, readHeaders_closing positive]

theorem takenAs_iff (bound : limit < lengthBound) (one : Json.lineFeed ∉ line) :
    TakenAs limit line meaning ↔ HeaderLine.ofBytes limit line = meaning := by
  constructor
  · intro taken
    let limits : Limits := ⟨1, line.length + 1, limit, bound⟩
    have fits : line.length < limits.lineBytes := Nat.lt_succ_self _
    have went := taken limits rfl fits 1 0 none [Json.lineFeed] .closed
    rw [readHeaders_line one fits] at went
    exact eq_of_proceed_eq (Nat.succ_pos _) went
  · rintro rfl limits rfl fits
    exact readHeaders_line one fits

/-- A line sets the length, is refused or leaves the length as it was, by the grammar alone: it sets
the length exactly if it gives one within the limit, and is refused exactly if it announces more. -/
theorem takenAs_grammar (bound : limit < lengthBound) (one : Json.lineFeed ∉ line) :
    (∀ n, TakenAs limit line (.length n) ↔ GivesLength (withoutReturn line) n ∧ n ≤ limit) ∧
    ((∃ value, TakenAs limit line (.oversize value)) ↔
      GivesTooMuch limit (withoutReturn line)) ∧
    (TakenAs limit line .blank ∨ TakenAs limit line .other ↔
      (∀ n, ¬(GivesLength (withoutReturn line) n ∧ n ≤ limit)) ∧
        ¬GivesTooMuch limit (withoutReturn line)) := by
  refine ⟨fun n => ?_, ?_, ?_⟩
  · rw [takenAs_iff bound one, ofBytes_eq_length_iff bound]
  · simp only [takenAs_iff bound one, exists_ofBytes_eq_oversize_iff]
  · simp only [takenAs_iff bound one, ← ofBytes_eq_length_iff bound,
      ← exists_ofBytes_eq_oversize_iff]
    cases HeaderLine.ofBytes limit line <;> simp

/-- Digits that overflow are refused in front of other text. -/
theorem takenAs_grammar_overflow :
    let text := [':', ':', '+'] ++ Nat.toDigits 10 lengthBound ++ [' ', 'o', 'r', ' ', '7']
    let line := Utf8.encode lengthName ++ Utf8.encode text ++ [0x0D]
    100 < lengthBound ∧ Json.lineFeed ∉ line ∧ ∃ value, TakenAs 100 line (.oversize value) := by
  intro text line
  have bound : 100 < lengthBound := by decide
  have one : Json.lineFeed ∉ line := by decide +kernel
  have bare : withoutReturn line = Utf8.encode lengthName ++ Utf8.encode text := by
    simp [withoutReturn, line]
  have number : NumberText text (Nat.toDigits 10 lengthBound) [' ', 'o', 'r', ' ', '7'] :=
    ⟨⟨[':', ':'], ['+'], by simp [text], by simp, Or.inr rfl⟩, Nat.toDigits_ne_nil,
      fun _ member => Nat.isDigit_of_mem_toDigits (by decide) (by decide) member⟩
  have header : LengthHeader (withoutReturn line) (Nat.toDigits 10 lengthBound)
      [' ', 'o', 'r', ' ', '7'] := by
    refine ⟨_, bare, ?_⟩
    rw [Utf8.decodeLossy_encode]
    exact number
  have large : lengthBound ≤ Nat.ofDigitChars 10 (Nat.toDigits 10 lengthBound) 0 := by
    rw [Nat.ofDigitChars_toDigits (by decide) (by decide)]
  exact ⟨bound, one, (takenAs_grammar bound one).2.1.mpr (Or.inr ⟨_, _, header, large⟩)⟩

end EditorRpc.Frame
