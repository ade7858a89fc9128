import EditorRpc.Frame.Header
import Mathlib.Data.List.DropRight

/-!
The grammar of length headers, and the proof that the reader of lines accepts exactly it. A value is
any run of colons and blanks, at most one plus sign and at least one digit. Main statements:
`ofBytes_eq_blank_iff`, `ofBytes_eq_length_iff` and `ofBytes_eq_oversize_iff` say for every line when
it ends the block, when it gives a length, and when it announces too much.
-/

set_option autoImplicit false
set_option relaxedAutoImplicit false

namespace EditorRpc.Frame

/-- A text that begins with a number: colons and blanks, at most one plus sign, the digits, and what
comes after them. -/
structure NumberText (text digits after : List Char) : Prop where
  shape : ∃ lead sign, text = lead ++ (sign ++ (digits ++ after)) ∧
    (∀ c ∈ lead, c = ':' ∨ Text.isBlank c = true) ∧ (sign = [] ∨ sign = ['+'])
  nonempty : digits ≠ []
  decimal : ∀ c ∈ digits, c.isDigit = true

def LengthHeader (line : Bytes) (digits after : List Char) : Prop :=
  ∃ text, line = Utf8.encode lengthName ++ text ∧
    NumberText (Utf8.decodeLossy text) digits after

/-- The line gives that length: only blanks come after the digits. -/
def GivesLength (line : Bytes) (n : Nat) : Prop :=
  ∃ digits after, LengthHeader line digits after ∧ (∀ c ∈ after, Text.isBlank c = true) ∧
    Nat.ofDigitChars 10 digits 0 = n

/-- The line announces more than the limit: by the length it gives, or by digits that alone are a
number of `lengthBound` or more, whatever comes after them. -/
def GivesTooMuch (limit : Nat) (line : Bytes) : Prop :=
  (∃ n, GivesLength line n ∧ limit < n) ∨
    ∃ digits after, LengthHeader line digits after ∧ lengthBound ≤ Nat.ofDigitChars 10 digits 0

/-! ### Digits -/

private theorem ofDigitChars_cons_eq (c : Char) (rest : List Char) (k : Nat) :
    Nat.ofDigitChars 10 (c :: rest) k = Nat.ofDigitChars 10 rest (10 * k + (c.toNat - 0x30)) :=
  Nat.ofDigitChars_cons

private theorem le_ofDigitChars (digits : List Char) (k : Nat) :
    k ≤ Nat.ofDigitChars 10 digits k := by
  induction digits generalizing k with
  | nil => exact Nat.le_of_eq Nat.ofDigitChars_nil.symm
  | cons c rest ih =>
    rw [ofDigitChars_cons_eq]
    have longer := ih (10 * k + (c.toNat - 0x30))
    omega

private theorem readDigits_append {digits : List Char} {k : Nat} (below : k < lengthBound)
    (decimal : ∀ c ∈ digits, c.isDigit = true) (rest : List Char) :
    readDigits k (digits ++ rest) =
      if Nat.ofDigitChars 10 digits k < lengthBound then
        readDigits (Nat.ofDigitChars 10 digits k) rest
      else .overflow := by
  induction digits generalizing k with
  | nil => rw [Nat.ofDigitChars_nil, List.nil_append, if_pos below]
  | cons c digits ih =>
    rw [List.cons_append, readDigits, if_pos (decimal c List.mem_cons_self), ofDigitChars_cons_eq]
    by_cases next : 10 * k + (c.toNat - 0x30) < lengthBound
    · rw [if_pos next]
      exact ih next fun d member => decimal d (List.mem_cons_of_mem c member)
    · have longer := le_ofDigitChars digits (10 * k + (c.toNat - 0x30))
      rw [if_neg next, if_neg (by omega)]

/-- Any text is digits and what comes after them, and what its digits make decides how it reads. -/
private theorem readDigits_zero_eq (text : List Char) :
    ∃ digits after, text = digits ++ after ∧ (∀ c ∈ digits, c.isDigit = true) ∧
      readDigits 0 text =
        if Nat.ofDigitChars 10 digits 0 < lengthBound then
          if after = [] then .number (Nat.ofDigitChars 10 digits 0) else .invalid
        else .overflow := by
  have decimal : ∀ c ∈ text.takeWhile Char.isDigit, c.isDigit = true := fun _ member =>
    List.mem_takeWhile_imp member
  have whole : text = text.takeWhile Char.isDigit ++ text.dropWhile Char.isDigit :=
    List.takeWhile_append_dropWhile.symm
  refine ⟨_, _, whole, decimal, ?_⟩
  conv => lhs; rw [whole]
  rw [readDigits_append (by decide) decimal]
  congr 1
  cases after : text.dropWhile Char.isDigit with
  | nil => rw [readDigits, if_pos rfl]
  | cons c rest =>
    have stray : c.isDigit = false := by
      have head := List.head?_dropWhile_not Char.isDigit text
      rw [after] at head
      simpa using head
    rw [readDigits, if_neg (by simp [stray]), if_neg (List.cons_ne_nil c rest)]

/-! ### Values -/

private def trimmed (text : List Char) : List Char :=
  Text.dropEndWhile Text.isBlank (text.dropWhile fun c => c = ':' || Text.isBlank c)

private theorem lengthValue?_eq_some_iff {line : Bytes} {value : List Char} :
    lengthValue? line = some value ↔
      ∃ text, line = Utf8.encode lengthName ++ text ∧ value = trimmed (Utf8.decodeLossy text) := by
  unfold lengthValue? trimmed
  dsimp only
  constructor
  · intro h
    split at h
    · next starts =>
      obtain ⟨text, rfl⟩ := List.isPrefixOf_iff_prefix.mp starts
      rw [List.drop_left] at h
      exact ⟨text, rfl, (Option.some.inj h).symm⟩
    · cases h
  · rintro ⟨text, rfl, rfl⟩
    have starts : (Utf8.encode lengthName).isPrefixOf (Utf8.encode lengthName ++ text) = true :=
      List.isPrefixOf_iff_prefix.mpr (List.prefix_append _ _)
    rw [if_pos starts, List.drop_left]

private theorem dropEndWhile_append {p : Char → Bool} {c : Char} (stays : p c = false)
    (a b : List Char) :
    Text.dropEndWhile p (a ++ c :: b) = a ++ c :: Text.dropEndWhile p b := by
  change List.rdropWhile p (a ++ c :: b) = a ++ c :: List.rdropWhile p b
  induction b using List.reverseRecOn with
  | nil => rw [List.rdropWhile_concat_neg p a c (by simp [stays]), List.rdropWhile_nil]
  | append_singleton b x ih =>
    have shift : a ++ c :: (b ++ [x]) = (a ++ c :: b) ++ [x] := by simp
    rw [shift]
    by_cases dropped : p x = true
    · rw [List.rdropWhile_concat_pos p _ x dropped, List.rdropWhile_concat_pos p _ x dropped, ih]
    · rw [List.rdropWhile_concat_neg p _ x dropped, List.rdropWhile_concat_neg p _ x dropped, shift]

private theorem exists_trimmed (text : List Char) :
    ∃ lead dropped, text = lead ++ (trimmed text ++ dropped) ∧
      (∀ c ∈ lead, c = ':' ∨ Text.isBlank c = true) ∧
      ∀ c ∈ dropped, Text.isBlank c = true := by
  let leads : Char → Bool := fun c => c = ':' || Text.isBlank c
  refine ⟨text.takeWhile leads, (text.dropWhile leads).rtakeWhile Text.isBlank, ?_, ?_, ?_⟩
  · change text = text.takeWhile leads ++ ((text.dropWhile leads).rdropWhile Text.isBlank ++ _)
    rw [List.rdropWhile_append_rtakeWhile, List.takeWhile_append_dropWhile]
  · intro c member
    simpa [leads] using List.mem_takeWhile_imp member
  · intro c member
    exact List.mem_rtakeWhile_imp member

private theorem not_blank_of_isDigit {c : Char} (digit : c.isDigit = true) :
    Text.isBlank c = false := by
  have range : 0x30 ≤ c.toNat ∧ c.toNat ≤ 0x39 := by
    simpa [Char.isDigit, UInt32.le_iff_toNat_le] using digit
  simp only [Text.isBlank, Text.inRanges, Text.blankRanges, List.any_cons, List.any_nil, Bool.or_false,
    Bool.or_eq_false_iff, Bool.and_eq_false_iff, decide_eq_false_iff_not]
  omega

private theorem ne_of_isDigit {c d : Char} (digit : c.isDigit = true) (other : d.isDigit = false) :
    c ≠ d := by
  rintro rfl
  rw [digit] at other
  cases other

private theorem trimmed_of_numberText {text digits after : List Char}
    (h : NumberText text digits after) :
    ∃ sign, (sign = [] ∨ sign = ['+']) ∧
      trimmed text = sign ++ (digits ++ Text.dropEndWhile Text.isBlank after) := by
  obtain ⟨⟨lead, sign, rfl, leads, signed⟩, nonempty, decimal⟩ := h
  refine ⟨sign, signed, ?_⟩
  have front : (lead ++ (sign ++ (digits ++ after))).dropWhile
      (fun c => c = ':' || Text.isBlank c) = sign ++ (digits ++ after) := by
    rw [List.dropWhile_append_of_pos (by simpa using leads)]
    rcases signed with rfl | rfl
    · obtain ⟨d, rest, rfl⟩ := List.exists_cons_of_ne_nil nonempty
      have digit := decimal d List.mem_cons_self
      have colon : d ≠ ':' := ne_of_isDigit digit (by decide)
      simp [colon, not_blank_of_isDigit digit]
    · have plus : Text.isBlank '+' = false := by decide
      simp [plus]
  have last := decimal _ (List.getLast_mem nonempty)
  rw [trimmed, front]
  conv => lhs; rw [← List.dropLast_append_getLast nonempty]
  rw [List.append_assoc, List.singleton_append, ← List.append_assoc,
    dropEndWhile_append (not_blank_of_isDigit last)]
  conv => rhs; rw [← List.dropLast_append_getLast nonempty]
  simp

private theorem readLength_eq (value : List Char) :
    ∃ sign unsigned, value = sign ++ unsigned ∧ (sign = [] ∨ sign = ['+']) ∧
      readLength value = if unsigned = [] then .invalid else readDigits 0 unsigned := by
  unfold readLength
  split
  · next rest => exact ⟨['+'], rest, rfl, Or.inr rfl, by simp⟩
  · exact ⟨[], value, rfl, Or.inl rfl, by simp⟩

private theorem readLength_append {sign digits : List Char} (signed : sign = [] ∨ sign = ['+'])
    (nonempty : digits ≠ []) (decimal : ∀ c ∈ digits, c.isDigit = true) (rest : List Char) :
    readLength (sign ++ (digits ++ rest)) = readDigits 0 (digits ++ rest) := by
  obtain ⟨d, tail, rfl⟩ := List.exists_cons_of_ne_nil nonempty
  have plus : d ≠ '+' := ne_of_isDigit (decimal d List.mem_cons_self) (by decide)
  rcases signed with rfl | rfl
  · unfold readLength
    split
    · next same => exact absurd (List.cons.inj same).1 plus
    · rfl
  · rfl

private theorem readLength_trimmed_eq_number_iff {text : List Char} {n : Nat} :
    readLength (trimmed text) = .number n ↔
      ∃ digits after, NumberText text digits after ∧ (∀ c ∈ after, Text.isBlank c = true) ∧
        Nat.ofDigitChars 10 digits 0 = n ∧ n < lengthBound := by
  constructor
  · intro h
    obtain ⟨lead, dropped, whole, leads, blanks⟩ := exists_trimmed text
    obtain ⟨sign, unsigned, value, signed, reads⟩ := readLength_eq (trimmed text)
    obtain ⟨digits, after, rfl, decimal, result⟩ := readDigits_zero_eq unsigned
    rw [reads, result] at h
    split at h
    · cases h
    · next nonempty =>
      split at h
      · next small =>
        split at h
        · next none =>
          subst none
          obtain rfl := LengthText.number.inj h
          refine ⟨digits, dropped, ⟨⟨lead, sign, ?_, leads, signed⟩, ?_, decimal⟩, blanks, rfl, small⟩
          · rw [whole, value]
            simp
          · simpa using nonempty
        · cases h
      · cases h
  · rintro ⟨digits, after, number, blanks, rfl, small⟩
    obtain ⟨sign, signed, shape⟩ := trimmed_of_numberText number
    have none : Text.dropEndWhile Text.isBlank after = [] := List.rdropWhile_eq_nil_iff.mpr blanks
    rw [shape, readLength_append signed number.nonempty number.decimal,
      readDigits_append (by decide) number.decimal, if_pos small, none, readDigits]

private theorem readLength_trimmed_eq_overflow_iff {text : List Char} :
    readLength (trimmed text) = .overflow ↔
      ∃ digits after, NumberText text digits after ∧
        lengthBound ≤ Nat.ofDigitChars 10 digits 0 := by
  constructor
  · intro h
    obtain ⟨lead, dropped, whole, leads, _⟩ := exists_trimmed text
    obtain ⟨sign, unsigned, value, signed, reads⟩ := readLength_eq (trimmed text)
    obtain ⟨digits, after, rfl, decimal, result⟩ := readDigits_zero_eq unsigned
    rw [reads, result] at h
    split at h
    · cases h
    · split at h
      · split at h <;> cases h
      · next large =>
        refine ⟨digits, after ++ dropped, ⟨⟨lead, sign, ?_, leads, signed⟩, ?_, decimal⟩,
          Nat.not_lt.mp large⟩
        · rw [whole, value]
          simp
        · rintro rfl
          exact large (by decide)
  · rintro ⟨digits, after, number, large⟩
    obtain ⟨sign, signed, shape⟩ := trimmed_of_numberText number
    rw [shape, readLength_append signed number.nonempty number.decimal,
      readDigits_append (by decide) number.decimal, if_neg (Nat.not_lt.mpr large)]

/-! ### Lines -/

private theorem number_of_lengthValue_iff {line : Bytes} {n : Nat} :
    (∃ value, lengthValue? line = some value ∧ readLength value = .number n) ↔
      GivesLength line n ∧ n < lengthBound := by
  constructor
  · rintro ⟨value, found, number⟩
    obtain ⟨text, rfl, rfl⟩ := lengthValue?_eq_some_iff.mp found
    obtain ⟨digits, after, shape, blanks, sum, small⟩ :=
      readLength_trimmed_eq_number_iff.mp number
    exact ⟨⟨digits, after, ⟨text, rfl, shape⟩, blanks, sum⟩, small⟩
  · rintro ⟨⟨digits, after, ⟨text, rfl, shape⟩, blanks, sum⟩, small⟩
    exact ⟨_, lengthValue?_eq_some_iff.mpr ⟨text, rfl, rfl⟩,
      readLength_trimmed_eq_number_iff.mpr ⟨digits, after, shape, blanks, sum, small⟩⟩

private theorem overflow_of_lengthValue_iff {line : Bytes} :
    (∃ value, lengthValue? line = some value ∧ readLength value = .overflow) ↔
      ∃ digits after, LengthHeader line digits after ∧
        lengthBound ≤ Nat.ofDigitChars 10 digits 0 := by
  constructor
  · rintro ⟨value, found, overflow⟩
    obtain ⟨text, rfl, rfl⟩ := lengthValue?_eq_some_iff.mp found
    obtain ⟨digits, after, shape, large⟩ := readLength_trimmed_eq_overflow_iff.mp overflow
    exact ⟨digits, after, ⟨text, rfl, shape⟩, large⟩
  · rintro ⟨digits, after, ⟨text, rfl, shape⟩, large⟩
    exact ⟨_, lengthValue?_eq_some_iff.mpr ⟨text, rfl, rfl⟩,
      readLength_trimmed_eq_overflow_iff.mpr ⟨digits, after, shape, large⟩⟩

private theorem ofBytes_of_lengthValue {limit : Nat} {line : Bytes} {value : List Char}
    (found : lengthValue? (withoutReturn line) = some value) :
    HeaderLine.ofBytes limit line =
      match readLength value with
      | .number n => if n ≤ limit then .length n else .oversize (String.ofList value)
      | .overflow => .oversize (String.ofList value)
      | .invalid => .other := by
  have filled : (withoutReturn line).isEmpty = false := by
    obtain ⟨text, shape, _⟩ := lengthValue?_eq_some_iff.mp found
    rw [shape]
    rfl
  cases reading : readLength value <;>
    simp only [HeaderLine.ofBytes, filled, found, reading, Bool.false_eq_true, if_false]

private theorem ofBytes_of_lengthValue_none {limit : Nat} {line : Bytes}
    (absent : lengthValue? (withoutReturn line) = none) :
    HeaderLine.ofBytes limit line = if withoutReturn line = [] then .blank else .other := by
  unfold HeaderLine.ofBytes
  simp [absent]

theorem ofBytes_eq_blank_iff {limit : Nat} {line : Bytes} :
    HeaderLine.ofBytes limit line = .blank ↔ line = [] ∨ line = [0x0D] := by
  have bare : withoutReturn line = [] ↔ line = [] ∨ line = [0x0D] := by
    unfold withoutReturn
    split
    · next last =>
      obtain ⟨front, rfl⟩ := List.getLast?_eq_some_iff.mp last
      simp
    · next last =>
      constructor
      · exact Or.inl
      · rintro (rfl | rfl)
        · rfl
        · exact absurd rfl last
  rw [← bare]
  cases found : lengthValue? (withoutReturn line) with
  | none =>
    rw [ofBytes_of_lengthValue_none found]
    simp
  | some value =>
    obtain ⟨text, shape, _⟩ := lengthValue?_eq_some_iff.mp found
    rw [ofBytes_of_lengthValue found, shape]
    constructor
    · intro h
      repeat' split at h
      all_goals cases h
    · intro h
      cases h

theorem ofBytes_eq_length_iff {limit : Nat} {line : Bytes} {n : Nat} (bound : limit < lengthBound) :
    HeaderLine.ofBytes limit line = .length n ↔ GivesLength (withoutReturn line) n ∧ n ≤ limit := by
  constructor
  · intro h
    cases found : lengthValue? (withoutReturn line) with
    | none =>
      rw [ofBytes_of_lengthValue_none found] at h
      split at h <;> cases h
    | some value =>
      rw [ofBytes_of_lengthValue found] at h
      split at h
      · next m number =>
        split at h
        · next within =>
          obtain rfl := HeaderLine.length.inj h
          exact ⟨(number_of_lengthValue_iff.mp ⟨value, found, number⟩).1, within⟩
        · cases h
      · cases h
      · cases h
  · rintro ⟨gives, within⟩
    obtain ⟨value, found, number⟩ :=
      number_of_lengthValue_iff.mpr ⟨gives, Nat.lt_of_le_of_lt within bound⟩
    rw [ofBytes_of_lengthValue found, number]
    exact if_pos within

/-- A line is refused exactly if it announces too much; the refusal names the value as written. -/
theorem ofBytes_eq_oversize_iff {limit : Nat} {line : Bytes} {value : String} :
    HeaderLine.ofBytes limit line = .oversize value ↔
      GivesTooMuch limit (withoutReturn line) ∧
        lengthValue? (withoutReturn line) = some value.toList := by
  constructor
  · intro h
    cases found : lengthValue? (withoutReturn line) with
    | none =>
      rw [ofBytes_of_lengthValue_none found] at h
      split at h <;> cases h
    | some text =>
      rw [ofBytes_of_lengthValue found] at h
      split at h
      · next n number =>
        split at h
        · cases h
        · next above =>
          obtain rfl := HeaderLine.oversize.inj h
          have gives := (number_of_lengthValue_iff.mp ⟨text, found, number⟩).1
          exact ⟨Or.inl ⟨n, gives, Nat.not_le.mp above⟩, by rw [String.toList_ofList]⟩
      · next overflow =>
        obtain rfl := HeaderLine.oversize.inj h
        exact ⟨Or.inr (overflow_of_lengthValue_iff.mp ⟨text, found, overflow⟩),
          by rw [String.toList_ofList]⟩
      · cases h
  · rintro ⟨tooMuch, found⟩
    rw [ofBytes_of_lengthValue found, String.ofList_toList]
    by_cases large : ∃ digits after, LengthHeader (withoutReturn line) digits after ∧
        lengthBound ≤ Nat.ofDigitChars 10 digits 0
    · obtain ⟨text, same, overflow⟩ := overflow_of_lengthValue_iff.mpr large
      obtain rfl := Option.some.inj (found.symm.trans same)
      rw [overflow]
    · obtain ⟨n, gives, above⟩ := tooMuch.resolve_right large
      have small : n < lengthBound := by
        obtain ⟨digits, after, header, _, rfl⟩ := gives
        exact Nat.not_le.mp fun bound => large ⟨digits, after, header, bound⟩
      obtain ⟨text, same, number⟩ := number_of_lengthValue_iff.mpr ⟨gives, small⟩
      obtain rfl := Option.some.inj (found.symm.trans same)
      rw [number]
      exact if_neg (Nat.not_le.mpr above)

theorem exists_ofBytes_eq_oversize_iff {limit : Nat} {line : Bytes} :
    (∃ value, HeaderLine.ofBytes limit line = .oversize value) ↔
      GivesTooMuch limit (withoutReturn line) := by
  constructor
  · rintro ⟨value, oversize⟩
    exact (ofBytes_eq_oversize_iff.mp oversize).1
  · intro tooMuch
    obtain ⟨digits, after, text, shape, _⟩ :
        ∃ digits after, LengthHeader (withoutReturn line) digits after := by
      rcases tooMuch with ⟨n, ⟨digits, after, header, _⟩, _⟩ | ⟨digits, after, header, _⟩
      · exact ⟨digits, after, header⟩
      · exact ⟨digits, after, header⟩
    obtain ⟨value, found⟩ : ∃ value, lengthValue? (withoutReturn line) = some value :=
      ⟨_, lengthValue?_eq_some_iff.mpr ⟨text, shape, rfl⟩⟩
    refine ⟨String.ofList value, ofBytes_eq_oversize_iff.mpr ⟨tooMuch, ?_⟩⟩
    rw [String.toList_ofList]
    exact found

end EditorRpc.Frame
