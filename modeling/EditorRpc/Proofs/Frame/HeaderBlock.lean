import EditorRpc.Frame.Reader
import EditorRpc.Proofs.Frame.LineMeaning

/-!
Header blocks line by line. The lines of a block are passed over one after the other until one of
them, or what stands in place of one, decides the block. Main statement: `readHeaders_eq_iff`, by
which the reader gives what the first decisive line says, and takes what it says.
-/

set_option autoImplicit false
set_option relaxedAutoImplicit false

namespace EditorRpc.Frame

def wire (lines : List Bytes) : Bytes :=
  lines.flatMap fun line => line ++ [Json.lineFeed]

/-- The line sets the length of the body. -/
def SetsLength (limits : Limits) (line : Bytes) (n : Nat) : Prop :=
  GivesLength (withoutReturn line) n ∧ n ≤ limits.bodyBytes

/-- A whole line that decides nothing: it is within the limit, not blank, and does not announce a body
above the limit. -/
structure PassedOver (limits : Limits) (line : Bytes) : Prop where
  one : Json.lineFeed ∉ line
  fits : line.length < limits.lineBytes
  filled : ¬(line = [] ∨ line = [0x0D])
  admitted : ¬GivesTooMuch limits.bodyBytes (withoutReturn line)

/-- The length of the body after some lines: the one that the last of them to set a length sets. -/
inductive LastLength (limits : Limits) (lines : List Bytes) : Option Nat → Prop
  | unset : (∀ line ∈ lines, ∀ n, ¬SetsLength limits line n) → LastLength limits lines none
  | set {before after : List Bytes} {line : Bytes} {n : Nat} :
      lines = before ++ line :: after → SetsLength limits line n →
      (∀ later ∈ after, ∀ m, ¬SetsLength limits later m) → LastLength limits lines (some n)

/-- What decides a block after the lines that were passed over: the bytes that are taken then, those
that are left, and the result. -/
inductive Decision (limits : Limits) (passed : List Bytes) :
    (taken rest : Bytes) → Except Stop (Option Nat) → Prop
  | overflow {rest : Bytes} : passed.length = limits.headerLines →
      Decision limits passed [] rest (.error (.failed (.headerOverflow limits.headerLines)))
  | tooLong {bytes rest : Bytes} : passed.length < limits.headerLines →
      bytes.length = limits.lineBytes → Json.lineFeed ∉ bytes →
      Decision limits passed bytes rest (.error (.failed (.headerLineTooLong limits.lineBytes)))
  | endOfStream : 0 < limits.headerLines → passed = [] →
      Decision limits passed [] [] (.error (.failed (.io .endOfStream)))
  | truncated {bytes : Bytes} : passed.length < limits.headerLines →
      bytes.length < limits.lineBytes → Json.lineFeed ∉ bytes → ¬(passed = [] ∧ bytes = []) →
      Decision limits passed bytes []
        (.error (.failed (.truncatedFrame (.inHeader passed.length))))
  | blank {line rest : Bytes} {length : Option Nat} : passed.length < limits.headerLines →
      line.length < limits.lineBytes → line = [] ∨ line = [0x0D] →
      LastLength limits passed length →
      Decision limits passed (line ++ [Json.lineFeed]) rest (.ok length)
  | oversize {line rest : Bytes} {value : String} : passed.length < limits.headerLines →
      line.length < limits.lineBytes → Json.lineFeed ∉ line →
      GivesTooMuch limits.bodyBytes (withoutReturn line) →
      lengthValue? (withoutReturn line) = some value.toList →
      Decision limits passed (line ++ [Json.lineFeed]) rest
        (.error (.failed (.contentTooLarge value limits.bodyBytes)))

variable {limits : Limits}

@[simp]
private theorem wire_nil : wire [] = [] := rfl

@[simp]
private theorem wire_cons (line : Bytes) (lines : List Bytes) :
    wire (line :: lines) = line ++ [Json.lineFeed] ++ wire lines := rfl

private theorem setsLength_iff {line : Bytes} {n : Nat} :
    SetsLength limits line n ↔ HeaderLine.ofBytes limits.bodyBytes line = .length n :=
  (ofBytes_eq_length_iff limits.bodyBytes_lt).symm

private def carry (limits : Limits) (length : Option Nat) (line : Bytes) : Option Nat :=
  match HeaderLine.ofBytes limits.bodyBytes line with
  | .length n => some n
  | _ => length

private theorem foldl_carry_eq_self {lines : List Bytes}
    (unset : ∀ line ∈ lines, ∀ n, ¬SetsLength limits line n) (length : Option Nat) :
    lines.foldl (carry limits) length = length := by
  induction lines with
  | nil => rfl
  | cons line lines ih =>
    obtain ⟨first, others⟩ := List.forall_mem_cons.mp unset
    have same : carry limits length line = length := by
      unfold carry
      split
      · next n sets => exact absurd (setsLength_iff.mpr sets) (first n)
      · rfl
    rw [List.foldl_cons, same, ih others]

private theorem lastLength_foldl (lines : List Bytes) :
    LastLength limits lines (lines.foldl (carry limits) none) := by
  induction lines using List.reverseRecOn with
  | nil => exact .unset (by simp)
  | append_singleton lines line ih =>
    rw [List.foldl_append, List.foldl_cons, List.foldl_nil, carry]
    split
    · next n sets => exact .set rfl (setsLength_iff.mpr sets) (by simp)
    · next none =>
      have silent : ∀ n, ¬SetsLength limits line n := fun n sets => none n (setsLength_iff.mp sets)
      generalize lines.foldl (carry limits) Option.none = length at ih
      cases ih with
      | unset all => exact .unset (List.forall_mem_append.mpr ⟨all, by simpa using silent⟩)
      | @set before after last n split sets all =>
        have longer : lines ++ [line] = before ++ last :: (after ++ [line]) := by
          rw [split]
          simp
        refine .set longer sets ?_
        exact List.forall_mem_append.mpr ⟨all, by simpa using silent⟩

private theorem LastLength.eq_foldl {lines : List Bytes} {length : Option Nat}
    (h : LastLength limits lines length) : length = lines.foldl (carry limits) none := by
  cases h with
  | unset all => exact (foldl_carry_eq_self all none).symm
  | set split sets all =>
    rw [split, List.foldl_append, List.foldl_cons, foldl_carry_eq_self all, carry,
      setsLength_iff.mp sets]

private theorem readHeaders_passedOver {line : Bytes} (passed : PassedOver limits line)
    (lines index : Nat) (length : Option Nat) (rest : Bytes) (ending : Ending) :
    readHeaders limits (lines + 1) index length ⟨line ++ [Json.lineFeed] ++ rest, ending⟩ =
      readHeaders limits lines (index + 1) (carry limits length line) ⟨rest, ending⟩ := by
  rw [readHeaders_line passed.one passed.fits]
  unfold carry
  cases meaning : HeaderLine.ofBytes limits.bodyBytes line with
  | blank => exact absurd (ofBytes_eq_blank_iff.mp meaning) passed.filled
  | length n => rfl
  | oversize value =>
    exact absurd (exists_ofBytes_eq_oversize_iff.mp ⟨value, meaning⟩) passed.admitted
  | other => rfl

/-- Lines that are passed over are taken off the stream; of what they say only the last length is
carried on. -/
private theorem readHeaders_wire {passed : List Bytes}
    (all : ∀ line ∈ passed, PassedOver limits line) (lines index : Nat) (length : Option Nat)
    (rest : Bytes) (ending : Ending) :
    readHeaders limits (passed.length + lines) index length ⟨wire passed ++ rest, ending⟩ =
      readHeaders limits lines (index + passed.length) (passed.foldl (carry limits) length)
        ⟨rest, ending⟩ := by
  induction passed generalizing index length with
  | nil => simp
  | cons line passed ih =>
    obtain ⟨first, others⟩ := List.forall_mem_cons.mp all
    have count : (line :: passed).length + lines = passed.length + lines + 1 := by
      rw [List.length_cons]
      omega
    rw [count, wire_cons, List.append_assoc, readHeaders_passedOver first, ih others,
      List.foldl_cons, List.length_cons, Nat.add_assoc, Nat.add_comm 1]

private theorem exists_decision_after (lines : Nat) (passed : List Bytes)
    (count : passed.length + lines = limits.headerLines) (bytes : Bytes) :
    ∃ more taken rest result, bytes = wire more ++ (taken ++ rest) ∧
      (∀ line ∈ more, PassedOver limits line) ∧
      Decision limits (passed ++ more) taken rest result := by
  induction lines generalizing passed bytes with
  | zero => exact ⟨[], [], bytes, _, by simp, by simp, .overflow (by simpa using count)⟩
  | succ lines ih =>
    have room : (passed ++ []).length < limits.headerLines := by
      rw [List.append_nil]
      omega
    rcases exists_line limits.lineBytes bytes with
      ⟨line, rest, rfl, one, fits⟩ | ⟨long, absent⟩ | ⟨short, absent⟩
    · by_cases filled : line = [] ∨ line = [0x0D]
      · exact ⟨[], _, rest, _, by simp, by simp, .blank room fits filled (lastLength_foldl _)⟩
      by_cases admitted : GivesTooMuch limits.bodyBytes (withoutReturn line)
      · obtain ⟨value, oversize⟩ := exists_ofBytes_eq_oversize_iff.mpr admitted
        have written := (ofBytes_eq_oversize_iff.mp oversize).2
        exact ⟨[], _, rest, _, by simp, by simp, .oversize room fits one admitted written⟩
      · have idle : PassedOver limits line := ⟨one, fits, filled, admitted⟩
        obtain ⟨more, taken, left, result, rfl, all, decision⟩ :=
          ih (passed ++ [line]) (by simp; omega) rest
        refine ⟨line :: more, taken, left, result, by simp,
          List.forall_mem_cons.mpr ⟨idle, all⟩, ?_⟩
        rwa [List.append_assoc, List.singleton_append] at decision
    · refine ⟨[], bytes.take limits.lineBytes, bytes.drop limits.lineBytes, _, ?_, by simp,
        .tooLong room ?_ absent⟩
      · rw [wire_nil, List.nil_append, List.take_append_drop]
      · rw [List.length_take]
        exact Nat.min_eq_left long
    · by_cases untouched : passed ++ [] = [] ∧ bytes = []
      · exact ⟨[], [], [], _, by simpa using untouched.2, by simp,
          .endOfStream (Nat.zero_lt_of_lt room) untouched.1⟩
      · exact ⟨[], bytes, [], _, by simp, by simp, .truncated room short absent untouched⟩

theorem exists_decision (limits : Limits) (bytes : Bytes) :
    ∃ passed taken rest result, bytes = wire passed ++ (taken ++ rest) ∧
      (∀ line ∈ passed, PassedOver limits line) ∧ Decision limits passed taken rest result :=
  exists_decision_after limits.headerLines [] (Nat.zero_add _) bytes

section

variable {passed : List Bytes} {taken rest : Bytes} {result : Except Stop (Option Nat)}

private theorem readHeaders_skip (all : ∀ line ∈ passed, PassedOver limits line) (lines : Nat)
    (count : limits.headerLines = passed.length + lines) (after : Bytes) (ending : Ending) :
    readHeaders limits limits.headerLines 0 none ⟨wire passed ++ after, ending⟩ =
      readHeaders limits lines passed.length (passed.foldl (carry limits) none)
        ⟨after, ending⟩ := by
  rw [count, readHeaders_wire all, Nat.zero_add]

theorem Decision.settles (decision : Decision limits passed taken rest result)
    (all : ∀ line ∈ passed, PassedOver limits line) (positive : 1 ≤ limits.lineBytes)
    (own : ¬ByEnd result) :
    Settles (wire passed ++ taken) (readHeaders limits limits.headerLines 0 none) result := by
  intro after ending
  rw [List.append_assoc]
  cases decision with
  | overflow full =>
    rw [readHeaders_skip all 0 full.symm, readHeaders]
    rfl
  | tooLong room width absent =>
    obtain ⟨lines, count⟩ := Nat.exists_eq_add_of_lt room
    rw [readHeaders_skip all (lines + 1) count, readHeaders, ← width,
      Source.readLine_unfinished absent]
    dsimp only
    rw [if_neg (by omega), if_pos (Nat.le_refl _)]
  | endOfStream => exact absurd byEnd_endOfStream own
  | truncated => exact absurd (byEnd_truncated _) own
  | @blank line _ length room fits filled last =>
    obtain ⟨lines, count⟩ := Nat.exists_eq_add_of_lt room
    have one : Json.lineFeed ∉ line := by
      rcases filled with rfl | rfl <;> decide
    rw [readHeaders_skip all (lines + 1) count, readHeaders_line one fits,
      ofBytes_eq_blank_iff.mpr filled, proceed, last.eq_foldl]
  | @oversize line _ value room fits one tooMuch written =>
    obtain ⟨lines, count⟩ := Nat.exists_eq_add_of_lt room
    rw [readHeaders_skip all (lines + 1) count, readHeaders_line one fits,
      ofBytes_eq_oversize_iff.mpr ⟨tooMuch, written⟩, proceed]

private theorem readHeaders_meetsEnd (all : ∀ line ∈ passed, PassedOver limits line)
    (room : passed.length < limits.headerLines) (short : taken.length < limits.lineBytes)
    (absent : Json.lineFeed ∉ taken) :
    MeetsEnd (wire passed ++ taken) (readHeaders limits limits.headerLines 0 none)
      (if taken.length = 0 ∧ passed.length = 0 then .io .endOfStream
        else .truncatedFrame (.inHeader passed.length)) := by
  intro ending
  obtain ⟨lines, count⟩ := Nat.exists_eq_add_of_lt room
  rw [readHeaders_skip all (lines + 1) count, readHeaders, Source.readLine_short absent short]
  cases ending with
  | closed =>
    simp only [Source.drain, Except.map, Except.bind]
    rw [if_neg (Nat.not_le.mpr short)]
    split <;> rfl
  | broken fault => rfl
  | silent => rfl

theorem Decision.meetsEnd (decision : Decision limits passed taken rest result)
    (all : ∀ line ∈ passed, PassedOver limits line) (positive : 1 ≤ limits.lineBytes)
    (cause : ByEnd result) :
    rest = [] ∧ ∃ f, result = .error (.failed f) ∧
      MeetsEnd (wire passed ++ taken) (readHeaders limits limits.headerLines 0 none) f ∧
      (wire passed ++ taken = [] ∧ f = .io .endOfStream ∨
        wire passed ++ taken ≠ [] ∧ ∃ where?, f = .truncatedFrame where?) := by
  cases decision with
  | overflow => simp [ByEnd, Failure.isEof] at cause
  | tooLong => simp [ByEnd, Failure.isEof] at cause
  | blank => simp [ByEnd] at cause
  | oversize => simp [ByEnd, Failure.isEof] at cause
  | endOfStream room first =>
    subst first
    have short : ([] : Bytes).length < limits.lineBytes := positive
    have met := readHeaders_meetsEnd all room short List.not_mem_nil
    exact ⟨rfl, _, rfl, met, Or.inl ⟨rfl, rfl⟩⟩
  | truncated room short absent begun =>
    have met := readHeaders_meetsEnd all room short absent
    have nonempty : ¬(taken.length = 0 ∧ passed.length = 0) := by
      rw [List.length_eq_zero_iff, List.length_eq_zero_iff]
      exact fun both => begun both.symm
    rw [if_neg nonempty] at met
    refine ⟨rfl, _, rfl, met, Or.inr ⟨?_, _, rfl⟩⟩
    intro none
    obtain ⟨noLines, noBytes⟩ := List.append_eq_nil_iff.mp none
    cases passed with
    | nil => exact begun ⟨rfl, noBytes⟩
    | cons line lines => simp at noLines

theorem readHeaders_of_decision (decision : Decision limits passed taken rest result)
    (all : ∀ line ∈ passed, PassedOver limits line) (positive : 1 ≤ limits.lineBytes) :
    readHeaders limits limits.headerLines 0 none (.ofBytes (wire passed ++ (taken ++ rest))) =
      (result, .ofBytes rest) := by
  rw [← List.append_assoc]
  by_cases cause : ByEnd result
  · obtain ⟨rfl, f, rfl, met, _⟩ := decision.meetsEnd all positive cause
    rw [List.append_nil]
    exact met.closed
  · exact decision.settles all positive cause rest .closed

end

private theorem readDocument_none_iff (s after : Source) :
    readDocument limits s = (.ok none, after) ↔
      readHeaders limits limits.headerLines 0 none s = (.ok none, after) := by
  constructor
  · intro reads
    rcases headers : readHeaders limits limits.headerLines 0 none s with ⟨found, left⟩
    rw [readDocument, read, headers] at reads
    cases found with
    | error stop => cases reads
    | ok length =>
      cases length with
      | none =>
        obtain ⟨_, rfl⟩ := Prod.mk.inj reads
        rfl
      | some length =>
        -- A body that was read is parsed, and that gives a document or an error.
        rcases bodyRead : readBody length left with ⟨body, rest⟩
        simp only [bodyRead] at reads
        cases body with
        | error stop => cases reads
        | ok body =>
          simp only [Except.map] at reads
          split at reads <;> cases reads
  · intro reads
    rw [readDocument, read, reads]

/-- What a reader gives of a header block and what it takes off the stream is what the first decisive
line says; a frame whose block gives no length ends with its blank line. -/
theorem readHeaders_eq_iff (limits : Limits) (positive : 1 ≤ limits.lineBytes) (bytes : Bytes)
    (result : Except Stop (Option Nat)) (after : Source) :
    (readHeaders limits limits.headerLines 0 none (.ofBytes bytes) = (result, after) ↔
      ∃ passed taken rest, bytes = wire passed ++ (taken ++ rest) ∧ after = .ofBytes rest ∧
        (∀ line ∈ passed, PassedOver limits line) ∧
        Decision limits passed taken rest result) ∧
    (readDocument limits (.ofBytes bytes) = (.ok none, after) ↔
      readHeaders limits limits.headerLines 0 none (.ofBytes bytes) = (.ok none, after)) := by
  refine ⟨?_, readDocument_none_iff _ _⟩
  constructor
  · intro reads
    obtain ⟨passed, taken, rest, decided, rfl, all, decision⟩ := exists_decision limits bytes
    rw [readHeaders_of_decision decision all positive] at reads
    obtain ⟨rfl, rfl⟩ := Prod.mk.inj reads
    exact ⟨passed, taken, rest, rfl, rfl, all, decision⟩
  · rintro ⟨passed, taken, rest, rfl, rfl, all, decision⟩
    exact readHeaders_of_decision decision all positive

/-- Of three lengths, one of them malformed, the last one counts, and two bytes are left. -/
theorem readHeaders_eq_iff_last_length :
    let limits : Limits := ⟨4, 19, 100, by decide⟩
    let text := "Content-Length: 7\r\nContent-Length: x\r\nContent-Length:2\n\r\nab"
    1 ≤ limits.lineBytes ∧
      (∃ passed taken rest, Utf8.ofString text = wire passed ++ (taken ++ rest) ∧
        Source.ofBytes [0x61, 0x62] = .ofBytes rest ∧
        (∀ line ∈ passed, PassedOver limits line) ∧
        Decision limits passed taken rest (.ok (some 2))) ∧
      readDocument limits (.ofBytes (Utf8.ofString text)) ≠ (.ok none, .ofBytes [0x61, 0x62]) := by
  intro limits text
  have reads : readHeaders limits limits.headerLines 0 none (.ofBytes (Utf8.ofString text)) =
      (.ok (some 2), .ofBytes [0x61, 0x62]) := by decide +kernel
  obtain ⟨headers, document⟩ := readHeaders_eq_iff limits (by decide)
    (Utf8.ofString text) (.ok (some 2)) (.ofBytes [0x61, 0x62])
  refine ⟨by decide, headers.mp reads, fun silent => ?_⟩
  rw [document.mp silent] at reads
  cases reads

end EditorRpc.Frame
