import EditorRpc.Stream.Source
import Mathlib.Data.List.Basic

/-!
Reads that the bytes they take settle. Such a read gives the same result whatever comes after those
bytes and however the stream ends, and it leaves all of that unread. A read is delimited if on every
closed stream either the bytes that it takes settle it or it meets the end. Main statements:
`Delimited.of_append`, `Delimited.append` and `Delimited.truncated` say what becomes of a delimited
read on a stream that is cut somewhere, and `Delimited.meetsEnd_of_prefix` what becomes of it while
bytes that it needs are missing.
-/

set_option autoImplicit false
set_option relaxedAutoImplicit false

namespace EditorRpc

/-- The bytes settle the read: it gives that result and takes exactly them, whatever comes after them
and however the stream ends. -/
def Settles {α : Type} (taken : Bytes) (read : Source → Except Stop α × Source)
    (result : Except Stop α) : Prop :=
  ∀ (rest : Bytes) (ending : Ending), read ⟨taken ++ rest, ending⟩ = (result, ⟨rest, ending⟩)

/-- So many reads one after the other: what they give, and what is left after the last of them. -/
def readTimes {σ ρ : Type} (read : σ → ρ × σ) : (count : Nat) → σ → List ρ × σ
  | 0, s => ([], s)
  | count + 1, s =>
    let (result, rest) := read s
    let (later, last) := readTimes read count rest
    (result :: later, last)

def andThen {α β : Type} (read : Source → Except Stop α × Source) (f : α → Except Stop β)
    (s : Source) : Except Stop β × Source :=
  ((read s).1.bind f, (read s).2)

/-- The read takes all of the bytes and meets the end of the stream. If that is closed the read fails;
otherwise it gives what the end gives. -/
def MeetsEnd {α : Type} (bytes : Bytes) (read : Source → Except Stop α × Source) (f : Failure) :
    Prop :=
  ∀ ending : Ending, read ⟨bytes, ending⟩ =
    ((Source.drain ⟨bytes, ending⟩).1.bind fun _ => .error (.failed f),
      (Source.drain ⟨bytes, ending⟩).2)

/-- The result is caused by the end of a closed stream, which came between two frames or within one. -/
def ByEnd {α : Type} (result : Except Stop α) : Prop :=
  ∃ f, result = .error (.failed f) ∧ (f.isEof = true ∨ ∃ where?, f = .truncatedFrame where?)

/-- On every closed stream the bytes that the read takes settle it, or it meets the end: between two
frames if there are no bytes, and otherwise within a frame. -/
def Delimited {α : Type} (read : Source → Except Stop α × Source) : Prop :=
  ∀ bytes : Bytes,
    (∃ taken rest result, bytes = taken ++ rest ∧ ¬ByEnd result ∧ Settles taken read result) ∨
    (∃ f, MeetsEnd bytes read f ∧
      (bytes = [] ∧ f = .io .endOfStream ∨ bytes ≠ [] ∧ ∃ where?, f = .truncatedFrame where?))

private theorem splitLine_line {line : Bytes} {limit : Nat} (one : Json.lineFeed ∉ line)
    (fits : line.length < limit) (passed rest : Bytes) :
    splitLine passed limit (line ++ Json.lineFeed :: rest) =
      some (passed.reverse ++ line, rest) := by
  induction line generalizing passed limit with
  | nil =>
    obtain ⟨limit, rfl⟩ := Nat.exists_eq_add_one_of_ne_zero (Nat.ne_of_gt fits)
    rw [List.nil_append, splitLine, if_pos rfl, List.append_nil]
  | cons b line ih =>
    obtain ⟨limit, rfl⟩ := Nat.exists_eq_add_one_of_ne_zero (Nat.ne_zero_of_lt fits)
    have other : b ≠ Json.lineFeed := fun same => one (same ▸ List.mem_cons_self)
    rw [List.cons_append, splitLine, if_neg other,
      ih (fun member => one (List.mem_cons_of_mem b member)) (Nat.lt_of_succ_lt_succ fits)]
    simp

private theorem splitLine_eq_none {limit : Nat} {bytes : Bytes}
    (absent : Json.lineFeed ∉ bytes.take limit) (passed : Bytes) :
    splitLine passed limit bytes = none := by
  induction limit generalizing passed bytes with
  | zero => rw [splitLine]
  | succ limit ih =>
    cases bytes with
    | nil => rw [splitLine]
    | cons b bytes =>
      rw [List.take_succ_cons, List.mem_cons, not_or] at absent
      rw [splitLine, if_neg (Ne.symm absent.1)]
      exact ih absent.2 (b :: passed)

theorem exists_line (limit : Nat) (bytes : Bytes) :
    (∃ line rest, bytes = line ++ Json.lineFeed :: rest ∧ Json.lineFeed ∉ line ∧
      line.length < limit) ∨
    (limit ≤ bytes.length ∧ Json.lineFeed ∉ bytes.take limit) ∨
    (bytes.length < limit ∧ Json.lineFeed ∉ bytes) := by
  by_cases present : Json.lineFeed ∈ bytes.take limit
  · obtain ⟨line, tail, split, one⟩ := List.eq_append_cons_of_mem present
    refine Or.inl ⟨line, tail ++ bytes.drop limit, ?_, one, ?_⟩
    · calc
        bytes = bytes.take limit ++ bytes.drop limit := (List.take_append_drop limit bytes).symm
        _ = line ++ Json.lineFeed :: (tail ++ bytes.drop limit) := by rw [split]; simp
    · have lengths := congrArg List.length split
      rw [List.length_take, List.length_append, List.length_cons] at lengths
      omega
  · by_cases long : limit ≤ bytes.length
    · exact Or.inr (Or.inl ⟨long, present⟩)
    · have short := Nat.not_le.mp long
      rw [List.take_of_length_le (Nat.le_of_lt short)] at present
      exact Or.inr (Or.inr ⟨short, present⟩)

namespace Source

theorem readLine_line {line : Bytes} {limit : Nat} (one : Json.lineFeed ∉ line)
    (fits : line.length < limit) :
    Settles (line ++ [Json.lineFeed]) (readLine limit) (.ok (.line line)) := by
  intro rest ending
  rw [List.append_assoc, List.singleton_append, readLine, splitLine_line one fits]
  rfl

theorem readLine_unfinished {bytes : Bytes} (absent : Json.lineFeed ∉ bytes) :
    Settles bytes (readLine bytes.length) (.ok (.unfinished bytes.length)) := by
  intro rest ending
  have none : Json.lineFeed ∉ (bytes ++ rest).take bytes.length := by rwa [List.take_left]
  rw [readLine, splitLine_eq_none none]
  simp

theorem readLine_short {bytes : Bytes} {limit : Nat} (absent : Json.lineFeed ∉ bytes)
    (short : bytes.length < limit) (ending : Ending) :
    readLine limit ⟨bytes, ending⟩ =
      ((drain ⟨bytes, ending⟩).1.map fun _ => .unfinished bytes.length,
        (drain ⟨bytes, ending⟩).2) := by
  have none : Json.lineFeed ∉ bytes.take limit := by
    rwa [List.take_of_length_le (Nat.le_of_lt short)]
  rw [readLine, splitLine_eq_none none]
  exact if_neg (Nat.not_le.mpr short)

theorem readUpTo_length (bytes : Bytes) :
    Settles bytes (readUpTo bytes.length) (.ok bytes) := by
  intro rest ending
  simp [readUpTo]

theorem readUpTo_short {bytes : Bytes} {count : Nat} (short : bytes.length < count)
    (ending : Ending) :
    readUpTo count ⟨bytes, ending⟩ =
      ((drain ⟨bytes, ending⟩).1.map fun _ => bytes, (drain ⟨bytes, ending⟩).2) := by
  unfold readUpTo
  dsimp only
  rw [List.take_of_length_le (Nat.le_of_lt short), if_neg (Nat.ne_of_lt short)]

end Source

section

variable {α β : Type} {read : Source → Except Stop α × Source}

theorem byEnd_endOfStream : ByEnd (.error (.failed (.io .endOfStream)) : Except Stop α) :=
  ⟨_, rfl, Or.inl rfl⟩

theorem byEnd_truncated (where? : Truncation) :
    ByEnd (.error (.failed (.truncatedFrame where?)) : Except Stop α) :=
  ⟨_, rfl, Or.inr ⟨where?, rfl⟩⟩

theorem not_byEnd_ok (a : α) : ¬ByEnd (.ok a : Except Stop α) := by
  rintro ⟨f, same, _⟩
  cases same

theorem ByEnd.of_error {stop : Stop} (h : ByEnd (.error stop : Except Stop β)) :
    ByEnd (.error stop : Except Stop α) := by
  obtain ⟨f, same, cause⟩ := h
  cases same
  exact ⟨f, rfl, cause⟩

theorem MeetsEnd.closed {bytes : Bytes} {f : Failure} (h : MeetsEnd bytes read f) :
    read (.ofBytes bytes) = (.error (.failed f), .ofBytes []) :=
  h .closed

theorem MeetsEnd.ne_ok {bytes : Bytes} {f : Failure} (h : MeetsEnd bytes read f) (ending : Ending)
    (a : α) : (read ⟨bytes, ending⟩).1 ≠ .ok a := by
  rw [h ending]
  cases (Source.drain ⟨bytes, ending⟩).1 <;> nofun

theorem readTimes_add {σ ρ : Type} (read : σ → ρ × σ) (first later : Nat) (s : σ) :
    readTimes read (first + later) s =
      ((readTimes read first s).1 ++ (readTimes read later (readTimes read first s).2).1,
        (readTimes read later (readTimes read first s).2).2) := by
  induction first generalizing s with
  | zero =>
    rw [Nat.zero_add]
    rfl
  | succ first ih =>
    rw [Nat.add_right_comm, readTimes]
    dsimp only
    rw [ih]
    rfl

/-- Reads that are settled one after the other leave exactly what comes after the last of them. -/
theorem readTimes_flatMap {items : List β} {bytes : β → Bytes} {result : β → Except Stop α}
    (settled : ∀ item ∈ items, Settles (bytes item) read (result item)) (rest : Bytes)
    (ending : Ending) :
    readTimes read items.length ⟨items.flatMap bytes ++ rest, ending⟩ =
      (items.map result, ⟨rest, ending⟩) := by
  induction items with
  | nil => rfl
  | cons item items ih =>
    obtain ⟨first, others⟩ := List.forall_mem_cons.mp settled
    rw [List.length_cons, readTimes, List.flatMap_cons, List.append_assoc, first]
    dsimp only
    rw [ih others, List.map_cons]

theorem Settles.andThen {taken : Bytes} {result : Except Stop α} (h : Settles taken read result)
    (f : α → Except Stop β) : Settles taken (andThen read f) (result.bind f) := by
  intro rest ending
  rw [EditorRpc.andThen, h rest ending]

theorem Delimited.andThen {f : α → Except Stop β} (own : ∀ a, ¬ByEnd (f a))
    (h : Delimited read) : Delimited (andThen read f) := by
  intro bytes
  rcases h bytes with ⟨taken, rest, result, split, notEnd, settled⟩ | ⟨failure, met, way⟩
  · refine Or.inl ⟨taken, rest, result.bind f, split, ?_, settled.andThen f⟩
    cases result with
    | error stop => exact fun cause => notEnd (ByEnd.of_error cause)
    | ok a => exact own a
  · refine Or.inr ⟨failure, ?_, way⟩
    intro ending
    simp only [EditorRpc.andThen, met ending]
    cases (Source.drain ⟨bytes, ending⟩).1 <;> rfl

private theorem exists_before_cut {taken rest before after : Bytes}
    (same : taken ++ rest = before ++ after) (inside : after.length ≤ rest.length) :
    ∃ left, before = taken ++ left ∧ rest = left ++ after := by
  rcases List.append_eq_append_iff.mp same with ⟨left, split, tail⟩ | ⟨left, split, tail⟩
  · exact ⟨left, split, tail⟩
  · have none : left = [] := by
      have lengths := congrArg List.length tail
      rw [List.length_append] at lengths
      exact List.eq_nil_of_length_eq_zero (by omega)
    subst none
    exact ⟨[], by simpa using split.symm, by simpa using tail.symm⟩

theorem Delimited.settles (h : Delimited read) {bytes : Bytes} {result : Except Stop α}
    {rest : Source} (reads : read (.ofBytes bytes) = (result, rest)) (own : ¬ByEnd result) :
    ∃ taken unread, bytes = taken ++ unread ∧ rest = .ofBytes unread ∧
      Settles taken read result := by
  rcases h bytes with ⟨taken, unread, given, rfl, _, settled⟩ | ⟨failure, met, way⟩
  · obtain ⟨rfl, rfl⟩ := Prod.mk.inj ((settled unread .closed).symm.trans reads)
    exact ⟨taken, unread, rfl, rfl, settled⟩
  · rw [met.closed] at reads
    obtain ⟨rfl, rfl⟩ := Prod.mk.inj reads
    rcases way with ⟨_, rfl⟩ | ⟨_, where?, rfl⟩
    · exact absurd byEnd_endOfStream own
    · exact absurd (byEnd_truncated where?) own

/-- Of two strings of bytes that settle a read, neither begins the other. -/
theorem Settles.eq_of_prefix {first second : Bytes} {result other : Except Stop α}
    (h : Settles first read result) (later : Settles second read other)
    (begins : first <+: second) : first = second := by
  obtain ⟨more, rfl⟩ := begins
  have whole := later [] .closed
  rw [List.append_nil, h more .closed] at whole
  obtain ⟨_, left⟩ := Prod.mk.inj whole
  have none : more = [] := congrArg Source.bytes left
  rw [none, List.append_nil]

/-- As long as not all the bytes that settle it are there, a read meets the end. -/
theorem Delimited.meetsEnd_of_prefix (h : Delimited read) {taken before : Bytes}
    {result : Except Stop α} (settled : Settles taken read result) (begins : before <+: taken)
    (proper : before ≠ taken) :
    ∃ f, MeetsEnd before read f ∧
      (before = [] ∧ f = .io .endOfStream ∨ before ≠ [] ∧ ∃ where?, f = .truncatedFrame where?) := by
  rcases h before with ⟨first, left, given, rfl, _, early⟩ | met
  · have all : first = taken :=
      early.eq_of_prefix settled ((List.prefix_append first left).trans begins)
    have enough : taken.length ≤ (first ++ left).length := by
      rw [all, List.length_append]
      exact Nat.le_add_right _ _
    exact absurd (begins.eq_of_length_le enough) proper
  · exact met

theorem Delimited.eq_nil_of_isEof (h : Delimited read) {bytes : Bytes} {f : Failure}
    {rest : Source} (reads : read (.ofBytes bytes) = (.error (.failed f), rest))
    (eof : f.isEof = true) : bytes = [] := by
  rcases h bytes with ⟨taken, unread, given, rfl, own, settled⟩ | ⟨failure, met, way⟩
  · obtain ⟨rfl, _⟩ := Prod.mk.inj ((settled unread .closed).symm.trans reads)
    exact absurd ⟨f, rfl, Or.inl eof⟩ own
  · rw [met.closed] at reads
    obtain ⟨same, _⟩ := Prod.mk.inj reads
    cases same
    rcases way with ⟨none, _⟩ | ⟨_, where?, rfl⟩
    · exact none
    · cases eof

theorem Delimited.of_append (h : Delimited read) {before after : Bytes} {result : Except Stop α}
    {rest : Source} (reads : read (.ofBytes (before ++ after)) = (result, rest))
    (own : ¬ByEnd result) (inside : after.length ≤ rest.bytes.length) :
    ∃ left, rest = .ofBytes (left ++ after) ∧ read (.ofBytes before) = (result, .ofBytes left) := by
  obtain ⟨taken, unread, split, rfl, settled⟩ := h.settles reads own
  obtain ⟨left, rfl, rfl⟩ := exists_before_cut split.symm inside
  exact ⟨left, rfl, settled left .closed⟩

theorem Delimited.append (h : Delimited read) {before : Bytes} {result : Except Stop α}
    {rest : Source} (reads : read (.ofBytes before) = (result, rest)) (own : ¬ByEnd result)
    (after : Bytes) (ending : Ending) :
    ∃ left, rest = .ofBytes left ∧
      read ⟨before ++ after, ending⟩ = (result, ⟨left ++ after, ending⟩) := by
  obtain ⟨taken, unread, rfl, rfl, settled⟩ := h.settles reads own
  rw [List.append_assoc]
  exact ⟨unread, rfl, settled (unread ++ after) ending⟩

theorem Delimited.truncated (h : Delimited read) {before after : Bytes} {result : Except Stop α}
    {rest : Source} (reads : read (.ofBytes (before ++ after)) = (result, rest))
    (begun : before ≠ []) (beyond : rest.bytes.length < after.length) :
    ∃ where?, read (.ofBytes before) =
      (.error (.failed (.truncatedFrame where?)), .ofBytes []) := by
  rcases h before with ⟨taken, unread, given, rfl, _, settled⟩ | ⟨failure, met, way⟩
  · have whole := settled (unread ++ after) .closed
    rw [← List.append_assoc] at whole
    obtain ⟨_, rfl⟩ := Prod.mk.inj (whole.symm.trans reads)
    simp only [List.length_append] at beyond
    omega
  · rcases way with ⟨none, _⟩ | ⟨_, where?, rfl⟩
    · exact absurd none begun
    · exact ⟨where?, met.closed⟩

end

end EditorRpc
