import EditorRpc.Proofs.Frame.SelfDelimiting
import Mathlib.Algebra.Order.BigOperators.Group.List
import Mathlib.Algebra.Order.Group.Nat

/-!
What the buffers of a reader hold. A reader of frames has one buffer for header lines, which is filled
anew by each read of a line, and one for the body, which is made for the length that the header block
gives. All bytes that leave the stream pass through them. Main statement: `readDocument_bounded`, by
which the limits bound both, on every stream and whatever the result is.
-/

set_option autoImplicit false
set_option relaxedAutoImplicit false

namespace EditorRpc

def takenBy {α : Type} (read : Source → Except Stop α × Source) (s : Source) : Bytes :=
  s.bytes.take (s.bytes.length - (read s).2.bytes.length)

theorem takenBy_eq {α : Type} {read : Source → Except Stop α × Source} {s : Source} {taken : Bytes}
    (split : s.bytes = taken ++ (read s).2.bytes) : takenBy read s = taken := by
  have count : s.bytes.length - (read s).2.bytes.length = taken.length := by
    have lengths := congrArg List.length split
    rw [List.length_append] at lengths
    omega
  rw [takenBy, count, split, List.take_left]

namespace Source

theorem readLine_cases (limit : Nat) (s : Source) :
    (∃ content rest, s.readLine limit = (.ok (.line content), ⟨rest, s.ending⟩) ∧
      s.bytes = content ++ [Json.lineFeed] ++ rest ∧ Json.lineFeed ∉ content ∧
      content.length < limit) ∨
    (∃ taken, s.bytes = taken ++ (s.readLine limit).2.bytes ∧ Json.lineFeed ∉ taken ∧
      taken.length ≤ limit ∧ ∀ content, (s.readLine limit).1 ≠ .ok (.line content)) := by
  obtain ⟨bytes, ending⟩ := s
  rcases exists_line limit bytes with
    ⟨line, rest, rfl, one, fits⟩ | ⟨long, absent⟩ | ⟨short, absent⟩
  · refine Or.inl ⟨line, rest, ?_, by simp, one, fits⟩
    have read := readLine_line one fits rest ending
    rwa [List.append_assoc] at read
  · have width : (bytes.take limit).length = limit := by
      rw [List.length_take]
      exact Nat.min_eq_left long
    have read := readLine_unfinished absent (bytes.drop limit) ending
    rw [List.take_append_drop, width] at read
    refine Or.inr ⟨bytes.take limit, ?_, absent, Nat.le_of_eq width, ?_⟩
    · rw [read]
      exact (List.take_append_drop limit bytes).symm
    · rw [read]
      nofun
  · have read := readLine_short absent short ending
    refine Or.inr ⟨bytes, ?_, absent, Nat.le_of_lt short, ?_⟩
    · rw [read, bytes_drain, List.append_nil]
    · rw [read]
      intro content
      cases (drain ⟨bytes, ending⟩).1 <;> nofun

theorem bytes_readUpTo (count : Nat) (s : Source) :
    ∃ taken, s.bytes = taken ++ (s.readUpTo count).2.bytes ∧ taken.length ≤ count := by
  unfold readUpTo
  dsimp only
  split
  · exact ⟨s.bytes.take count, (List.take_append_drop count s.bytes).symm, List.length_take_le _ _⟩
  · next fewer =>
    refine ⟨s.bytes, by rw [bytes_drain, List.append_nil], ?_⟩
    rw [List.length_take] at fewer
    omega

end Source

namespace Frame

/-- What the buffer for header lines holds after each read of a line, while a header block of no more
than so many lines is read. -/
def heldLines (limits : Limits) : (lines : Nat) → Source → List Bytes
  | 0, _ => []
  | lines + 1, s =>
    takenBy (Source.readLine limits.lineBytes) s ::
      match s.readLine limits.lineBytes with
      | (.ok (.line content), rest) =>
        match HeaderLine.ofBytes limits.bodyBytes content with
        | .length _ | .other => heldLines limits lines rest
        | .blank | .oversize _ => []
      | _ => []

/-- The capacity that is requested of the buffer for the body, and what that holds in the end. There
is none if no body is read. -/
def heldBody (limits : Limits) (s : Source) : Option (Nat × Bytes) :=
  match readHeaders limits limits.headerLines 0 none s with
  | (.ok (some length), rest) => some (length, takenBy (Source.readUpTo length) rest)
  | _ => none

structure TakesLine (limits : Limits) (s : Source) (content : Bytes) (rest : Source) : Prop where
  split : s.bytes = content ++ [Json.lineFeed] ++ rest.bytes
  one : Json.lineFeed ∉ content
  fits : content.length < limits.lineBytes

private theorem not_givesTooMuch {limit : Nat} {content : Bytes} {meaning : HeaderLine}
    (means : HeaderLine.ofBytes limit content = meaning)
    (other : ∀ value, meaning ≠ .oversize value) :
    ¬GivesTooMuch limit (withoutReturn content) := by
  intro tooMuch
  obtain ⟨value, oversize⟩ := exists_ofBytes_eq_oversize_iff.mpr tooMuch
  exact other value (means.symm.trans oversize)

/-- A reading of a header block of no more than so many lines, after a length was given or none: what
the buffer holds after each read of a line, the result, and what is left of the stream. -/
inductive Course (limits : Limits) : (lines : Nat) → (length : Option Nat) → Source →
    (held : List Bytes) → Except Stop (Option Nat) → Source → Prop
  | full {length : Option Nat} {s : Source} {stop : Stop} :
      Course limits 0 length s [] (.error stop) s
  | unfinished {lines : Nat} {length : Option Nat} {s rest : Source} {taken : Bytes} {stop : Stop} :
      s.bytes = taken ++ rest.bytes → Json.lineFeed ∉ taken → taken.length ≤ limits.lineBytes →
      Course limits (lines + 1) length s [taken] (.error stop) rest
  | oversize {lines : Nat} {length : Option Nat} {s rest : Source} {content : Bytes}
      {value : String} : TakesLine limits s content rest →
      Course limits (lines + 1) length s [content ++ [Json.lineFeed]]
        (.error (.failed (.contentTooLarge value limits.bodyBytes))) rest
  | blank {lines : Nat} {length : Option Nat} {s rest : Source} {content : Bytes} :
      TakesLine limits s content rest → ¬GivesTooMuch limits.bodyBytes (withoutReturn content) →
      Course limits (lines + 1) length s [content ++ [Json.lineFeed]] (.ok length) rest
  | passed {lines : Nat} {length next : Option Nat} {s rest last : Source} {content : Bytes}
      {held : List Bytes} {result : Except Stop (Option Nat)} : TakesLine limits s content rest →
      ¬GivesTooMuch limits.bodyBytes (withoutReturn content) →
      (∀ n, next = some n → length = some n ∨ n ≤ limits.bodyBytes) →
      Course limits lines next rest held result last →
      Course limits (lines + 1) length s ((content ++ [Json.lineFeed]) :: held) result last

theorem course_readHeaders (limits : Limits) (lines index : Nat) (length : Option Nat)
    (s : Source) :
    Course limits lines length s (heldLines limits lines s)
      (readHeaders limits lines index length s).1 (readHeaders limits lines index length s).2 := by
  induction lines generalizing index length s with
  | zero => exact .full
  | succ lines ih =>
    rw [heldLines, readHeaders]
    rcases Source.readLine_cases limits.lineBytes s with
      ⟨content, rest, read, split, one, fits⟩ | ⟨taken, split, absent, most, unfinished⟩
    · have whole : TakesLine limits s content ⟨rest, s.ending⟩ := ⟨split, one, fits⟩
      have held : takenBy (Source.readLine limits.lineBytes) s = content ++ [Json.lineFeed] :=
        takenBy_eq (by rw [read]; exact split)
      rw [held, read]
      dsimp only
      cases meaning : HeaderLine.ofBytes limits.bodyBytes content with
      | blank => exact .blank whole (not_givesTooMuch meaning (by simp))
      | length n =>
        have within : n ≤ limits.bodyBytes :=
          ((ofBytes_eq_length_iff limits.bodyBytes_lt).mp meaning).2
        refine .passed whole (not_givesTooMuch meaning (by simp)) ?_ (ih _ _ _)
        rintro m ⟨⟩
        exact .inr within
      | oversize value => exact .oversize whole
      | other => exact .passed whole (not_givesTooMuch meaning (by simp)) (fun _ => .inl) (ih _ _ _)
    · rw [takenBy_eq split]
      rcases read : s.readLine limits.lineBytes with ⟨result, rest⟩
      rw [read] at split unfinished
      cases result with
      | error stop => exact .unfinished split absent most
      | ok line =>
        cases line with
        | line content => exact absurd rfl (unfinished content)
        | unfinished count =>
          dsimp only
          split_ifs <;> exact .unfinished split absent most

section

variable {limits : Limits} {lines : Nat} {length : Option Nat} {s last : Source}
  {held : List Bytes} {result : Except Stop (Option Nat)}

theorem Course.bytes_eq (course : Course limits lines length s held result last) :
    s.bytes = held.flatten ++ last.bytes := by
  induction course with
  | full => rfl
  | unfinished split => simpa using split
  | oversize whole => simpa using whole.split
  | blank whole => simpa using whole.split
  | passed whole _ _ _ ih => simpa [ih] using whole.split

theorem Course.length_le (course : Course limits lines length s held result last) :
    held.length ≤ lines := by
  induction course with
  | full => exact Nat.le_refl 0
  | passed _ _ _ _ ih => exact Nat.succ_le_succ ih
  | _ => exact Nat.succ_le_succ (Nat.zero_le _)

theorem TakesLine.length_le {content : Bytes} (whole : TakesLine limits s content last) :
    (content ++ [Json.lineFeed]).length ≤ limits.lineBytes := by
  rw [List.length_append]
  exact whole.fits

theorem Course.fits (course : Course limits lines length s held result last) :
    ∀ line ∈ held, line.length ≤ limits.lineBytes := by
  induction course with
  | full => exact List.forall_mem_nil _
  | unfinished _ _ most => exact List.forall_mem_singleton.mpr most
  | oversize whole => exact List.forall_mem_singleton.mpr whole.length_le
  | blank whole => exact List.forall_mem_singleton.mpr whole.length_le
  | passed whole _ _ _ ih => exact List.forall_mem_cons.mpr ⟨whole.length_le, ih⟩

theorem Course.le_of_ok (course : Course limits lines length s held result last) {n : Nat}
    (gives : result = .ok (some n)) (before : ∀ m, length = some m → m ≤ limits.bodyBytes) :
    n ≤ limits.bodyBytes := by
  induction course with
  | blank => exact before n (Except.ok.inj gives)
  | passed _ _ carried _ ih => exact ih gives fun m same => (carried m same).elim (before m) id
  | _ => cases gives

private theorem of_singleton_eq_append {line first : Bytes} {before after : List Bytes}
    (split : [first] = before ++ line :: after) : line = first ∧ after = [] := by
  rcases List.singleton_eq_append_iff.mp split with ⟨_, same⟩ | ⟨_, none⟩
  · exact List.cons.inj same
  · cases none

/-- Only after a whole line that does not announce too much there are further reads. At any other line
the reading fails. -/
theorem Course.passed_or_last (course : Course limits lines length s held result last)
    {before after : List Bytes} {line : Bytes} (split : held = before ++ line :: after) :
    (∃ content, line = content ++ [Json.lineFeed] ∧
      ¬GivesTooMuch limits.bodyBytes (withoutReturn content)) ∨
    after = [] ∧ (Json.lineFeed ∉ line ∧ (∃ stop, result = .error stop) ∨
      ∃ value, result = .error (.failed (.contentTooLarge value limits.bodyBytes))) := by
  induction course generalizing before with
  | full => exact absurd split.symm (by simp)
  | unfinished _ absent =>
    obtain ⟨rfl, none⟩ := of_singleton_eq_append split
    exact .inr ⟨none, .inl ⟨absent, _, rfl⟩⟩
  | oversize =>
    obtain ⟨_, none⟩ := of_singleton_eq_append split
    exact .inr ⟨none, .inr ⟨_, rfl⟩⟩
  | blank _ admitted =>
    obtain ⟨rfl, _⟩ := of_singleton_eq_append split
    exact .inl ⟨_, rfl, admitted⟩
  | passed _ admitted _ _ ih =>
    rcases List.cons_eq_append_iff.mp split with ⟨_, first⟩ | ⟨_, _, later⟩
    · obtain ⟨rfl, _⟩ := List.cons.inj first
      exact .inl ⟨_, rfl, admitted⟩
    · exact ih later

end

theorem readBody_snd (length : Nat) (s : Source) :
    (readBody length s).2 = (s.readUpTo length).2 := by
  rw [readBody]
  rcases s.readUpTo length with ⟨result, rest⟩
  cases result with
  | error stop => rfl
  | ok body => exact (apply_ite Prod.snd _ _ _).trans (ite_self _)

theorem readDocument_of_headers_error {limits : Limits} {s rest : Source} {stop : Stop}
    (headers : readHeaders limits limits.headerLines 0 none s = (.error stop, rest)) :
    readDocument limits s = (.error stop, rest) ∧ heldBody limits s = none := by
  rw [readDocument, read, heldBody, headers]
  exact ⟨rfl, rfl⟩

theorem bytes_readDocument (limits : Limits) (s : Source) :
    s.bytes = (heldLines limits limits.headerLines s).flatten ++
      (heldBody limits s).elim [] Prod.snd ++ (readDocument limits s).2.bytes := by
  have block := (course_readHeaders limits limits.headerLines 0 none s).bytes_eq
  rcases headers : readHeaders limits limits.headerLines 0 none s with ⟨result, rest⟩
  rw [headers] at block
  cases result with
  | error stop =>
    obtain ⟨document, body⟩ := readDocument_of_headers_error headers
    rw [document, body, Option.elim_none, List.append_nil]
    exact block
  | ok found =>
    cases found with
    | none =>
      rw [readDocument, read, heldBody, headers, Option.elim_none, List.append_nil]
      exact block
    | some length =>
      obtain ⟨taken, split, _⟩ := rest.bytes_readUpTo length
      have left : (readDocument limits s).2 = (rest.readUpTo length).2 := by
        rw [readDocument_eq, andThen, read, headers]
        exact readBody_snd length rest
      rw [left, heldBody, headers, Option.elim_some, takenBy_eq split, List.append_assoc, ← split]
      exact block

theorem heldBody_bounded (limits : Limits) (s : Source) {capacity : Nat} {bytes : Bytes}
    (body : heldBody limits s = some (capacity, bytes)) :
    capacity ≤ limits.bodyBytes ∧ bytes.length ≤ capacity := by
  have block := course_readHeaders limits limits.headerLines 0 none s
  rw [heldBody] at body
  split at body
  · next length rest headers =>
    cases body
    rw [headers] at block
    obtain ⟨taken, split, most⟩ := rest.bytes_readUpTo capacity
    rw [takenBy_eq split]
    exact ⟨block.le_of_ok rfl nofun, most⟩
  · cases body

private theorem length_flatten_le {lines : List Bytes} {most width : Nat}
    (count : lines.length ≤ most) (fits : ∀ line ∈ lines, line.length ≤ width) :
    lines.flatten.length ≤ most * width :=
  calc
    lines.flatten.length = (lines.map List.length).sum := List.length_flatten
    _ ≤ (lines.map List.length).length • width :=
      List.sum_le_card_nsmul _ _ (List.forall_mem_map.mpr fits)
    _ = lines.length * width := by rw [List.length_map, Nat.nsmul_eq_mul]
    _ ≤ most * width := Nat.mul_le_mul_right width count

theorem length_taken_le (limits : Limits) (s : Source) :
    s.bytes.length - (readDocument limits s).2.bytes.length ≤
      limits.headerLines * limits.lineBytes + limits.bodyBytes := by
  have course := course_readHeaders limits limits.headerLines 0 none s
  have inLines : (heldLines limits limits.headerLines s).flatten.length ≤
      limits.headerLines * limits.lineBytes := length_flatten_le course.length_le course.fits
  have inBody : ((heldBody limits s).elim [] Prod.snd).length ≤ limits.bodyBytes := by
    cases body : heldBody limits s with
    | none => exact Nat.zero_le _
    | some held =>
      obtain ⟨room, filled⟩ := heldBody_bounded limits s body
      exact Nat.le_trans filled room
  have lengths := congrArg List.length (bytes_readDocument limits s)
  simp only [List.length_append] at lengths
  omega

theorem bytes_of_headers_error {limits : Limits} {s : Source} {before : List Bytes} {line : Bytes}
    {stop : Stop} (split : heldLines limits limits.headerLines s = before ++ [line])
    (fails : (readHeaders limits limits.headerLines 0 none s).1 = .error stop) :
    s.bytes = before.flatten ++ line ++ (readDocument limits s).2.bytes ∧
      heldBody limits s = none ∧ (readDocument limits s).1 = .error stop := by
  obtain ⟨document, none⟩ := readDocument_of_headers_error (Prod.ext fails rfl)
  have whole := bytes_readDocument limits s
  rw [none, split] at whole
  exact ⟨by simpa using whole, none, congrArg Prod.fst document⟩

/-- The buffers of one call are bounded by the limits, on every stream and whatever comes of the call,
also if it is still waiting. The call takes the bytes that the buffers held and no others. It makes no
more reads of lines than lines are allowed, and none of them puts more in the buffer than a line may
have; the buffer for the body has no more room than a body may have, and no more is put in. After a
line that is not whole, or that announces a body above the limit whatever other lines say, nothing more
is taken, no room is requested for a body, and the call fails. -/
theorem readDocument_bounded (limits : Limits) (s : Source) :
    let lines := heldLines limits limits.headerLines s
    let body := heldBody limits s
    let result := (readDocument limits s).1
    let rest := (readDocument limits s).2
    s.bytes = lines.flatten ++ body.elim [] Prod.snd ++ rest.bytes ∧
    s.bytes.length - rest.bytes.length ≤ limits.headerLines * limits.lineBytes + limits.bodyBytes ∧
    lines.length ≤ limits.headerLines ∧ (∀ line ∈ lines, line.length ≤ limits.lineBytes) ∧
    (∀ capacity bytes, body = some (capacity, bytes) →
      capacity ≤ limits.bodyBytes ∧ bytes.length ≤ capacity) ∧
    (∀ before line after, lines = before ++ line :: after → Json.lineFeed ∉ line →
      s.bytes = before.flatten ++ line ++ rest.bytes ∧ body = none ∧
        ∃ stop, result = .error stop) ∧
    ∀ before content after, lines = before ++ (content ++ [Json.lineFeed]) :: after →
      GivesTooMuch limits.bodyBytes (withoutReturn content) →
      s.bytes = before.flatten ++ (content ++ [Json.lineFeed]) ++ rest.bytes ∧ body = none ∧
        ∃ value, result = .error (.failed (.contentTooLarge value limits.bodyBytes)) := by
  intro lines body result rest
  have course := course_readHeaders limits limits.headerLines 0 none s
  refine ⟨bytes_readDocument limits s, length_taken_le limits s, course.length_le, course.fits,
    fun _ _ => heldBody_bounded limits s, ?_, ?_⟩
  · intro before line after split broken
    rcases course.passed_or_last split with ⟨_, rfl, _⟩ | ⟨rfl, ⟨_, stop, fails⟩ | ⟨value, fails⟩⟩
    · simp at broken
    · obtain ⟨bytes, none, result⟩ := bytes_of_headers_error split fails
      exact ⟨bytes, none, stop, result⟩
    · obtain ⟨bytes, none, result⟩ := bytes_of_headers_error split fails
      exact ⟨bytes, none, _, result⟩
  · intro before content after split tooMuch
    rcases course.passed_or_last split with
      ⟨other, same, admitted⟩ | ⟨rfl, ⟨broken, _⟩ | ⟨value, fails⟩⟩
    · rw [List.append_cancel_right same] at tooMuch
      exact absurd tooMuch admitted
    · simp at broken
    · obtain ⟨bytes, none, result⟩ := bytes_of_headers_error split fails
      exact ⟨bytes, none, value, result⟩

/-- A line with digits that overflow, after one with a length. What comes then stays on the stream. -/
theorem readDocument_bounded_overflow :
    let limits : Limits := ⟨4, 40, 100, by decide⟩
    let first := Utf8.ofString "Content-Length: 7\r\n"
    let content := Utf8.ofString "Content-Length: 18446744073709551616\r"
    let after := Utf8.ofString "Content-Length: 7\r\n\r\n"
    let s : Source := .ofBytes (first ++ (content ++ [Json.lineFeed]) ++ after)
    heldLines limits limits.headerLines s = [first, content ++ [Json.lineFeed]] ∧
      heldBody limits s = none ∧ (readDocument limits s).2.bytes = after ∧
      ∃ value, (readDocument limits s).1 = .error (.failed (.contentTooLarge value 100)) := by
  intro limits first content after s
  have held : heldLines limits limits.headerLines s = [first, content ++ [Json.lineFeed]] := by
    decide +kernel
  have tooMuch : GivesTooMuch limits.bodyBytes (withoutReturn content) :=
    exists_ofBytes_eq_oversize_iff.mp ⟨"18446744073709551616", by decide +kernel⟩
  obtain ⟨_, _, _, _, _, _, stops⟩ := readDocument_bounded limits s
  obtain ⟨split, body, fails⟩ := stops [first] content [] held tooMuch
  refine ⟨held, body, ?_, fails⟩
  exact (List.append_cancel_left split).symm

end Frame

end EditorRpc
