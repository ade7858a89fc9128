import EditorRpc.Frame.Writer
import EditorRpc.Proofs.Frame.SelfDelimiting
import EditorRpc.Proofs.Text.Utf8

/-!
Frames that were written are read back. Main statement: `readTimes_encode`, by which as many reads as
there are frames give the documents of their bodies and leave exactly what comes after them, whatever
the bodies hold.
-/

set_option autoImplicit false
set_option relaxedAutoImplicit false

namespace EditorRpc.Frame

def lengthLine (length : Nat) : Bytes :=
  Utf8.encode (lengthName ++ [':', ' '] ++ Nat.toDigits 10 length ++ lineEnd)

private def lengthContent (length : Nat) : Bytes :=
  Utf8.encode (lengthName ++ ([':', ' '] ++ Nat.toDigits 10 length)) ++ [0x0D]

private theorem lengthLine_eq (length : Nat) :
    lengthLine length = lengthContent length ++ [Json.lineFeed] := by
  rw [lengthLine, lengthContent, lineEnd, Utf8.encode_append, List.append_assoc lengthName,
    List.append_assoc]
  rfl

theorem one_le_length_lengthLine (length : Nat) : 1 ≤ (lengthLine length).length := by
  rw [lengthLine_eq, List.length_append]
  exact Nat.le_add_left _ _

theorem length_lengthLine_le {length : Nat} (bound : length < 100000000) :
    (lengthLine length).length ≤ 104 := by
  have digits : (Nat.toDigits 10 length).length ≤ 8 :=
    (Nat.length_toDigits_le_iff (by decide) (by decide)).mpr bound
  have size := Utf8.length_encode_le
    (lengthName ++ [':', ' '] ++ Nat.toDigits 10 length ++ lineEnd)
  have name : lengthName.length = 14 := rfl
  have stop : lineEnd.length = 2 := rfl
  simp only [List.length_append, List.length_cons, List.length_nil, name, stop] at size
  rw [lengthLine]
  omega

private theorem encode_eq (body : Bytes) :
    encode body = wire [lengthContent body.length] ++ ([0x0D] ++ [Json.lineFeed]) ++ body := by
  have block : headerBlock body.length =
      lengthName ++ [':', ' '] ++ Nat.toDigits 10 body.length ++ lineEnd ++ lineEnd := rfl
  have one : wire [lengthContent body.length] = lengthContent body.length ++ [Json.lineFeed] := by
    rw [wire, List.flatMap_singleton]
  rw [encode, block, Utf8.encode_append, ← lengthLine, lengthLine_eq, one]
  rfl

theorem encode_ne_nil (body : Bytes) : encode body ≠ [] := by
  rw [encode_eq]
  simp

private theorem givesLength (length : Nat) :
    GivesLength (withoutReturn (lengthContent length)) length := by
  have bare : withoutReturn (lengthContent length) =
      Utf8.encode lengthName ++ Utf8.encode ([':', ' '] ++ Nat.toDigits 10 length) := by
    rw [lengthContent, withoutReturn, if_pos List.getLast?_concat, List.dropLast_concat,
      Utf8.encode_append]
  refine ⟨Nat.toDigits 10 length, [], ⟨_, bare, ⟨[':', ' '], [], ?_, ?_, Or.inl rfl⟩, ?_, ?_⟩,
    by simp, Nat.ofDigitChars_ten_toDigits⟩
  · rw [Utf8.decodeLossy_encode, List.append_nil, List.nil_append]
  · intro c member
    rcases List.mem_pair.mp member with rfl | rfl
    · exact Or.inl rfl
    · exact Or.inr (by decide)
  · exact Nat.toDigits_ne_nil
  · exact fun c member => Nat.isDigit_of_mem_toDigits (by decide) (by decide) member

private theorem lineFeed_not_mem (length : Nat) : Json.lineFeed ∉ lengthContent length := by
  intro member
  rcases List.mem_append.mp member with inText | inEnd
  · obtain ⟨c, inText, number⟩ := Utf8.exists_of_mem_encode inText (by decide)
    rcases List.mem_append.mp inText with inName | inValue
    · have noBreak : ∀ d ∈ lengthName, d.toNat ≠ Json.lineFeed.toNat := by
        simp [lengthName, Json.lineFeed]
      exact noBreak c inName number
    rcases List.mem_append.mp inValue with inGap | inDigits
    · have noBreak : ∀ d ∈ [':', ' '], d.toNat ≠ Json.lineFeed.toNat := by
        simp [Json.lineFeed]
      exact noBreak c inGap number
    · have digit : c.isDigit = true := Nat.isDigit_of_mem_toDigits (by decide) (by decide) inDigits
      have low : 0x30 ≤ c.toNat := by
        simp only [Char.isDigit, Bool.and_eq_true, decide_eq_true_eq] at digit
        exact digit.1
      rw [number] at low
      exact absurd low (by decide)
  · revert inEnd
    decide

variable {limits : Limits} {body : Bytes}

private theorem passedOver_lengthContent (bodyFits : body.length ≤ limits.bodyBytes)
    (lineFits : (lengthLine body.length).length ≤ limits.lineBytes) :
    PassedOver limits (lengthContent body.length) where
  one := lineFeed_not_mem body.length
  fits := by
    rw [lengthLine_eq, List.length_append, List.length_singleton] at lineFits
    exact lineFits
  filled := by
    rintro (same | same)
    · cases same
    · cases same
  admitted := by
    intro tooMuch
    obtain ⟨value, oversize⟩ := exists_ofBytes_eq_oversize_iff.mpr tooMuch
    have gives := (ofBytes_eq_length_iff limits.bodyBytes_lt).mpr
      ⟨givesLength body.length, bodyFits⟩
    rw [gives] at oversize
    cases oversize

theorem settles_encode (lines : 2 ≤ limits.headerLines)
    (bodyFits : body.length ≤ limits.bodyBytes)
    (lineFits : (lengthLine body.length).length ≤ limits.lineBytes) :
    Settles (encode body) (readDocument limits) (documentOf (some body)) := by
  have room : 1 < limits.lineBytes := by
    have whole := lineFits
    rw [lengthLine_eq, List.length_append, lengthContent, List.length_append] at whole
    simp only [List.length_singleton] at whole
    omega
  have last : LastLength limits [lengthContent body.length] (some body.length) :=
    .set (List.nil_append _).symm ⟨givesLength body.length, bodyFits⟩ (by simp)
  have decision : Decision limits [lengthContent body.length] ([0x0D] ++ [Json.lineFeed]) []
      (.ok (some body.length)) :=
    .blank lines room (Or.inr rfl) last
  have all : ∀ line ∈ [lengthContent body.length], PassedOver limits line := by
    intro line member
    rw [List.mem_singleton.mp member]
    exact passedOver_lengthContent bodyFits lineFits
  have headers := decision.settles all (Nat.le_of_lt room) (not_byEnd_ok _)
  intro rest ending
  rw [readDocument_eq, andThen, encode_eq, read_of_body body headers]
  rfl

/-- As many reads as there are frames give, in order, the documents of their bodies or the faults in
them, and leave exactly what comes after the last frame. -/
theorem readTimes_encode (bodies : List Bytes) (rest : Bytes) (ending : Ending)
    (lines : 2 ≤ limits.headerLines)
    (bodyFits : ∀ body ∈ bodies, body.length ≤ limits.bodyBytes)
    (lineFits : ∀ body ∈ bodies, (lengthLine body.length).length ≤ limits.lineBytes) :
    readTimes (readDocument limits) bodies.length ⟨bodies.flatMap encode ++ rest, ending⟩ =
      (bodies.map fun body =>
        match Json.parse body with
        | .ok document => .ok (some document)
        | .error e => .error (.failed (.malformedBody e)),
      ⟨rest, ending⟩) := by
  have settled : ∀ body ∈ bodies,
      Settles (encode body) (readDocument limits) (documentOf (some body)) := fun body member =>
    settles_encode lines (bodyFits body member) (lineFits body member)
  rw [readTimes_flatMap settled]
  congr 1
  apply List.map_congr_left
  intro body _
  rw [documentOf, parseBody]
  cases Json.parse body <;> rfl

/-- The first body is a frame itself and no document; the second one is read all the same. -/
theorem readTimes_encode_nested :
    let limits : Limits := ⟨2, 20, 22, by decide⟩
    let nested := Utf8.ofString "Content-Length: 1\r\n\r\n["
    let object := Utf8.ofString "\x7b\x7d"
    let rest := Utf8.ofString "\r\nrest"
    2 ≤ limits.headerLines ∧ (∀ body ∈ [nested, object], body.length ≤ limits.bodyBytes) ∧
      (∀ body ∈ [nested, object], (lengthLine body.length).length ≤ limits.lineBytes) ∧
      readTimes (readDocument limits) 2 ⟨encode nested ++ encode object ++ rest, .closed⟩ =
        ([.error (.failed (.malformedBody ⟨.valueExpected, 1, 1⟩)), .ok (some (.obj []))],
          ⟨rest, .closed⟩) := by
  have fault : Json.parse (Utf8.ofString "Content-Length: 1\r\n\r\n[") =
      .error ⟨.valueExpected, 1, 1⟩ := by decide +kernel
  have document : Json.parse (Utf8.ofString "\x7b\x7d") = .ok (.obj []) := by decide +kernel
  intro limits nested object rest
  have nestedFault : Json.parse nested = .error ⟨.valueExpected, 1, 1⟩ := fault
  have objectDocument : Json.parse object = .ok (.obj []) := document
  have lines : 2 ≤ limits.headerLines := by decide
  have bodyFits : ∀ body ∈ [nested, object], body.length ≤ limits.bodyBytes := by decide
  have lineFits : ∀ body ∈ [nested, object], (lengthLine body.length).length ≤ limits.lineBytes := by
    decide
  have reads := readTimes_encode [nested, object] rest .closed lines bodyFits lineFits
  rw [List.map_cons, List.map_cons, List.map_nil, nestedFault, objectDocument] at reads
  refine ⟨lines, bodyFits, lineFits, ?_⟩
  rw [← reads]
  simp

end EditorRpc.Frame
