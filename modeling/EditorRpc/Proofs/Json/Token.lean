import EditorRpc.Json.Parser
import EditorRpc.Json.Printer
import EditorRpc.Proofs.Text.Utf8

/-!
Tokens of JSON text that were written are read back. A string is read up to its closing quote,
whatever comes after that; an integer only if nothing comes after it that would continue it. Main
statements: `gives_literal` and `gives_number`.
-/

set_option autoImplicit false
set_option relaxedAutoImplicit false

namespace EditorRpc.Json

def Gives {α : Type} {bound : Nat} (outcome : Except Fault (Parsed α bound)) (a : α)
    (rest : Bytes) : Prop :=
  ∃ shorter, outcome = .ok ⟨a, rest, shorter⟩

/-- Nothing in front of the rest continues a number. -/
def EndsNumber (rest : Bytes) : Prop :=
  ∀ b r, rest = b :: r → isDigit b = false ∧ b ≠ 0x2E ∧ b ≠ 0x65 ∧ b ≠ 0x45

namespace Read

/-! ### Strings -/

private theorem gives_letterEscape {b : UInt8} {c : Char} (letter : letterEscape b = some c)
    (rest : Bytes) : Gives (escape (b :: rest)) c rest := by
  rw [escape, letter]
  exact ⟨_, rfl⟩

private theorem hexValue_digitChar :
    ∀ d, d < 16 → hexValue (UInt8.ofNat (Nat.digitChar d).toNat) = some d := by
  decide

private theorem encode_digitChar :
    ∀ d, d < 16 → Utf8.encode [Nat.digitChar d] = [UInt8.ofNat (Nat.digitChar d).toNat] := by
  decide

private theorem gives_fourHex {a b c d : UInt8} {w x y z : Nat} (first : hexValue a = some w)
    (second : hexValue b = some x) (third : hexValue c = some y) (fourth : hexValue d = some z)
    (rest : Bytes) :
    Gives (fourHex (a :: b :: c :: d :: rest)) (((w * 16 + x) * 16 + y) * 16 + z) rest := by
  simp only [fourHex, first, second, third, fourth]
  exact ⟨_, rfl⟩

private theorem gives_numericEscape {s rest : Bytes} {n : Nat} (number : Gives (fourHex s) n rest)
    (low : n < 0xD800) : Gives (numericEscape s) (Char.ofNat n) rest := by
  obtain ⟨shorter, number⟩ := number
  have whole : isLowSurrogate n = false := by
    simp only [isLowSurrogate, Bool.and_eq_false_iff, decide_eq_false_iff_not]
    omega
  have alone : isHighSurrogate n = false := by
    simp only [isHighSurrogate, Bool.and_eq_false_iff, decide_eq_false_iff_not]
    omega
  refine ⟨shorter, ?_⟩
  rw [numericEscape, number]
  simp only [bind, Except.bind, whole, alone, Bool.false_eq_true, if_false]
  rfl

private theorem gives_escape_control {c : Char} (control : c.toNat < 0x20) (rest : Bytes) :
    Gives (escape (Utf8.encode ['u', '0', '0', Nat.digitChar (c.toNat / 16),
      Nat.digitChar (c.toNat % 16)] ++ rest)) c rest := by
  have high : c.toNat / 16 < 16 := by omega
  have last : c.toNat % 16 < 16 := by omega
  have octets : Utf8.encode ['u', '0', '0', Nat.digitChar (c.toNat / 16),
      Nat.digitChar (c.toNat % 16)] = [0x75, 0x30, 0x30,
        UInt8.ofNat (Nat.digitChar (c.toNat / 16)).toNat,
        UInt8.ofNat (Nat.digitChar (c.toNat % 16)).toNat] := by
    have front : Utf8.encode ['u', '0', '0'] = [0x75, 0x30, 0x30] := by decide
    have parts : ['u', '0', '0', Nat.digitChar (c.toNat / 16), Nat.digitChar (c.toNat % 16)] =
      ['u', '0', '0'] ++ ([Nat.digitChar (c.toNat / 16)] ++ [Nat.digitChar (c.toNat % 16)]) := rfl
    rw [parts, Utf8.encode_append, Utf8.encode_append, front, encode_digitChar _ high,
      encode_digitChar _ last]
    rfl
  have zero : hexValue 0x30 = some 0 := by decide
  have number : ((0 * 16 + 0) * 16 + c.toNat / 16) * 16 + c.toNat % 16 = c.toNat := by omega
  have digits := gives_fourHex zero zero (hexValue_digitChar _ high) (hexValue_digitChar _ last) rest
  rw [number] at digits
  obtain ⟨shorter, read⟩ := gives_numericEscape digits (by omega)
  have letter : letterEscape 0x75 = none := by decide
  rw [octets]
  simp only [List.cons_append, List.nil_append, escape, letter, if_true, read]
  exact ⟨_, by rw [Char.ofNat_toNat]⟩

private theorem content_escape {bound : Nat} {gathered s rest : Bytes} {c : Char}
    (read : Gives (escape s) c rest) (all : (0x5C :: s).length ≤ bound)
    (left : rest.length ≤ bound) :
    content bound gathered (0x5C :: s) all =
      content bound ((Utf8.encodeChar c).reverse ++ gathered) rest left := by
  obtain ⟨shorter, read⟩ := read
  rw [content, if_neg (by decide), if_pos rfl, read]

private theorem content_plain {octets : Bytes}
    (plain : ∀ b ∈ octets, b ≠ 0x22 ∧ b ≠ 0x5C ∧ 0x20 ≤ b.toNat) {bound : Nat}
    {gathered rest : Bytes} (all : (octets ++ rest).length ≤ bound) (left : rest.length ≤ bound) :
    content bound gathered (octets ++ rest) all =
      content bound (octets.reverse ++ gathered) rest left := by
  induction octets generalizing gathered with
  | nil => rfl
  | cons b octets ih =>
    obtain ⟨⟨quote, backslash, printable⟩, others⟩ := List.forall_mem_cons.mp plain
    have next : (octets ++ rest).length ≤ bound := Nat.le_of_lt all
    have order : (b :: octets).reverse ++ gathered = octets.reverse ++ (b :: gathered) := by
      simp
    rw [order, ← ih others next]
    simp only [List.cons_append]
    rw [content, if_neg quote, if_neg backslash, if_neg (Nat.not_lt.mpr printable)]

/-- A character that stands for itself is none of the octets that a string reader looks for. -/
private theorem plain_of_mem_encodeChar {c : Char} (quote : c ≠ '"') (backslash : c ≠ '\\')
    (printable : ¬c.toNat < 0x20) {b : UInt8} (member : b ∈ Utf8.encodeChar c) :
    b ≠ 0x22 ∧ b ≠ 0x5C ∧ 0x20 ≤ b.toNat := by
  have inText : b ∈ Utf8.encode [c] := by
    rw [Utf8.encode, List.flatMap_singleton]
    exact member
  by_cases low : b.toNat < 0x80
  · obtain ⟨d, same, number⟩ := Utf8.exists_of_mem_encode inText low
    obtain rfl := List.mem_singleton.mp same
    refine ⟨?_, ?_, by omega⟩
    · rintro rfl
      exact quote (Char.toNat_inj.mp number)
    · rintro rfl
      exact backslash (Char.toNat_inj.mp number)
  · refine ⟨?_, ?_, by omega⟩
    · rintro rfl
      exact low (by decide)
    · rintro rfl
      exact low (by decide)

private theorem escapeChar_cases (c : Char) :
    (∃ b, Utf8.encode (escapeChar c) = [0x5C, b] ∧ letterEscape b = some c) ∨
    (c.toNat < 0x20 ∧ escapeChar c =
      ['\\', 'u', '0', '0', Nat.digitChar (c.toNat / 16), Nat.digitChar (c.toNat % 16)]) ∨
    (c ≠ '"' ∧ c ≠ '\\' ∧ ¬c.toNat < 0x20 ∧ escapeChar c = [c]) := by
  by_cases lettered : c ∈ ['"', '\\', '\x08', '\x0c', '\n', '\r', '\t']
  · refine Or.inl ?_
    simp only [List.mem_cons, List.not_mem_nil, or_false] at lettered
    rcases lettered with rfl | rfl | rfl | rfl | rfl | rfl | rfl
    · exact ⟨0x22, by decide, rfl⟩
    · exact ⟨0x5C, by decide, rfl⟩
    · exact ⟨0x62, by decide, rfl⟩
    · exact ⟨0x66, by decide, rfl⟩
    · exact ⟨0x6E, by decide, rfl⟩
    · exact ⟨0x72, by decide, rfl⟩
    · exact ⟨0x74, by decide, rfl⟩
  · simp only [List.mem_cons, List.not_mem_nil, or_false, not_or] at lettered
    obtain ⟨quote, backslash, back, feed, line, carriage, tab⟩ := lettered
    have form : escapeChar c = if c.toNat < 0x20 then
        ['\\', 'u', '0', '0', Nat.digitChar (c.toNat / 16), Nat.digitChar (c.toNat % 16)]
      else [c] := by
      rw [escapeChar, if_neg quote, if_neg backslash, if_neg back, if_neg feed, if_neg line,
        if_neg carriage, if_neg tab]
    by_cases control : c.toNat < 0x20
    · exact Or.inr (Or.inl ⟨control, form.trans (if_pos control)⟩)
    · exact Or.inr (Or.inr ⟨quote, backslash, control, form.trans (if_neg control)⟩)

private theorem content_escapeChar {bound : Nat} {gathered rest : Bytes} (c : Char)
    (all : (Utf8.encode (escapeChar c) ++ rest).length ≤ bound) (left : rest.length ≤ bound) :
    content bound gathered (Utf8.encode (escapeChar c) ++ rest) all =
      content bound ((Utf8.encodeChar c).reverse ++ gathered) rest left := by
  rcases escapeChar_cases c with ⟨b, octets, letter⟩ | ⟨control, form⟩ |
    ⟨quote, backslash, printable, form⟩
  · simp only [octets, List.cons_append, List.nil_append]
    exact content_escape (gives_letterEscape letter rest) _ left
  · have slash : Utf8.encodeChar '\\' = [0x5C] := by decide
    simp only [form, Utf8.encode_cons '\\', slash, List.cons_append]
    exact content_escape (gives_escape_control control rest) _ left
  · have octets : Utf8.encode [c] = Utf8.encodeChar c := List.flatMap_singleton ..
    simp only [form, octets]
    exact content_plain (fun b => plain_of_mem_encodeChar quote backslash printable) _ left

private theorem content_text (text : List Char) {bound : Nat} (gathered rest : Bytes)
    (all : (Utf8.encode (text.flatMap escapeChar) ++ 0x22 :: rest).length ≤ bound) :
    Gives (content bound gathered (Utf8.encode (text.flatMap escapeChar) ++ 0x22 :: rest) all)
      ((Utf8.encode text).reverse ++ gathered) rest := by
  induction text generalizing gathered with
  | nil =>
    simp only [List.flatMap_nil, Utf8.encode_nil, List.nil_append, List.reverse_nil]
    rw [content, if_pos rfl]
    exact ⟨_, rfl⟩
  | cons c text ih =>
    have order : (Utf8.encode (c :: text)).reverse ++ gathered =
        (Utf8.encode text).reverse ++ ((Utf8.encodeChar c).reverse ++ gathered) := by
      rw [Utf8.encode_cons, List.reverse_append, List.append_assoc]
    have left : (Utf8.encode (text.flatMap escapeChar) ++ 0x22 :: rest).length ≤ bound := by
      rw [List.flatMap_cons, Utf8.encode_append, List.append_assoc, List.length_append] at all
      omega
    simp only [List.flatMap_cons, Utf8.encode_append, List.append_assoc]
    rw [content_escapeChar c _ left, order]
    exact ih _ left

/-- A string that was written is read up to its closing quote, whatever comes after that. -/
theorem gives_literal (s : String) (rest : Bytes) :
    Gives (literal (Utf8.encode (s.toList.flatMap escapeChar) ++ 0x22 :: rest)) s rest := by
  obtain ⟨shorter, gathered⟩ := content_text s.toList [] rest (Nat.le_refl _)
  rw [literal, Parser.ofBounded, gathered]
  simp only [List.append_nil, List.reverse_reverse, Utf8.decode?_encode]
  exact ⟨shorter, by rw [String.ofList_toList]⟩

/-! ### Integers -/

private theorem encodeChar_of_isDigit {c : Char} (digit : c.isDigit = true) :
    Utf8.encodeChar c = [UInt8.ofNat c.toNat] ∧ isDigit (UInt8.ofNat c.toNat) = true ∧
      digitValue (UInt8.ofNat c.toNat) = c.toNat - 0x30 := by
  have range : 0x30 ≤ c.toNat ∧ c.toNat ≤ 0x39 := by
    simpa [Char.isDigit, UInt32.le_iff_toNat_le] using digit
  have octet : (UInt8.ofNat c.toNat).toNat = c.toNat := by
    rw [UInt8.toNat_ofNat']
    omega
  refine ⟨?_, ?_, ?_⟩
  · rw [Utf8.encodeChar]
    exact if_pos (by omega)
  · rw [isDigit, octet, Bool.and_eq_true, decide_eq_true_eq, decide_eq_true_eq]
    omega
  · rw [digitValue, octet]

private theorem isDigit_of_mem {n : Nat} {b : UInt8}
    (member : b ∈ Utf8.encode (Nat.toDigits 10 n)) : isDigit b = true := by
  obtain ⟨c, inDigits, inChar⟩ := List.mem_flatMap.mp member
  have digit : c.isDigit = true := Nat.isDigit_of_mem_toDigits (by decide) (by decide) inDigits
  obtain ⟨octets, decimal, _⟩ := encodeChar_of_isDigit digit
  rw [octets, List.mem_singleton] at inChar
  exact inChar ▸ decimal

private theorem encode_toDigits_eq_cons (n : Nat) :
    ∃ b r, Utf8.encode (Nat.toDigits 10 n) = b :: r ∧ (b = 0x30 → n = 0 ∧ r = []) := by
  induction n using Nat.strongRecOn with
  | ind n ih =>
    by_cases short : n < 10
    · have single : ∀ d, d < 10 → Utf8.encode [Nat.digitChar d] =
          [UInt8.ofNat (Nat.digitChar d).toNat] ∧
          (UInt8.ofNat (Nat.digitChar d).toNat = 0x30 → d = 0) := by
        decide
      obtain ⟨octets, zero⟩ := single n short
      refine ⟨_, [], ?_, fun same => ⟨zero same, rfl⟩⟩
      rw [Nat.toDigits_of_lt_base short, octets]
    · have long : 10 ≤ n := Nat.not_lt.mp short
      obtain ⟨b, r, octets, leading⟩ := ih (n / 10) (by omega)
      refine ⟨b, r ++ Utf8.encode [Nat.digitChar (n % 10)], ?_, ?_⟩
      · rw [Nat.toDigits_of_base_le (by decide) long, Utf8.encode_append, octets,
          List.cons_append]
      · intro same
        have none := (leading same).1
        omega

private theorem accumulate_append {limit k m : Nat} {digits : Bytes}
    (whole : accumulate limit k digits = (m, [])) (more : Bytes) :
    accumulate limit k (digits ++ more) = accumulate limit m more := by
  induction digits generalizing k with
  | nil =>
    cases whole
    rfl
  | cons b digits ih =>
    rw [accumulate] at whole
    split at whole
    · next fits =>
      rw [List.cons_append, accumulate, if_pos fits]
      exact ih whole
    · cases whole

private theorem accumulate_toDigits {limit n : Nat} (below : n < limit) :
    accumulate limit 0 (Utf8.encode (Nat.toDigits 10 n)) = (n, []) := by
  induction n using Nat.strongRecOn with
  | ind n ih =>
    have last (k d : Nat) (small : d < 10) (fits : 10 * k + d < limit) :
        accumulate limit k (Utf8.encode [Nat.digitChar d]) = (10 * k + d, []) := by
      have digit : (Nat.digitChar d).isDigit = true := by
        rw [Nat.isDigit_digitChar]
        exact decide_eq_true small
      obtain ⟨octets, _, value⟩ := encodeChar_of_isDigit digit
      have worth : (Nat.digitChar d).toNat - 0x30 = d :=
        Nat.toNat_digitChar_sub_48_of_lt_ten small
      have single : Utf8.encode [Nat.digitChar d] = [UInt8.ofNat (Nat.digitChar d).toNat] := by
        rw [Utf8.encode_cons, octets, Utf8.encode_nil, List.append_nil]
      rw [single, accumulate, value, worth]
      exact if_pos fits
    by_cases short : n < 10
    · rw [Nat.toDigits_of_lt_base short]
      have alone := last 0 n short (by omega)
      rw [Nat.mul_zero, Nat.zero_add] at alone
      exact alone
    · have long : 10 ≤ n := Nat.not_lt.mp short
      have front := ih (n / 10) (by omega) (by omega)
      rw [Nat.toDigits_of_base_le (by decide) long, Utf8.encode_append, accumulate_append front,
        last (n / 10) (n % 10) (by omega) (by omega)]
      have number : 10 * (n / 10) + n % 10 = n := by omega
      rw [number]

private theorem takeWhile_digits {digits rest : Bytes} (decimal : ∀ b ∈ digits, isDigit b = true)
    (ends : EndsNumber rest) :
    (digits ++ rest).takeWhile isDigit = digits ∧ (digits ++ rest).dropWhile isDigit = rest := by
  rw [List.takeWhile_append_of_pos decimal, List.dropWhile_append_of_pos decimal]
  cases rest with
  | nil => simp
  | cons b r =>
    have stop := (ends b r rfl).1
    simp [stop]

private theorem gives_wholePart (n : Nat) {rest : Bytes} (ends : EndsNumber rest) :
    Gives (wholePart (Utf8.encode (Nat.toDigits 10 n) ++ rest))
      (Utf8.encode (Nat.toDigits 10 n)) rest := by
  obtain ⟨b, r, octets, leading⟩ := encode_toDigits_eq_cons n
  have decimal : ∀ d ∈ b :: r, isDigit d = true := fun d member =>
    isDigit_of_mem (octets ▸ member)
  obtain ⟨first, others⟩ := List.forall_mem_cons.mp decimal
  rw [octets, List.cons_append]
  by_cases zero : b = 0x30
  · obtain ⟨_, rfl⟩ := leading zero
    have alone : (rest.head?.map isDigit).getD false = false := by
      cases rest with
      | nil => rfl
      | cons c t => exact (ends c t rfl).1
    rw [List.nil_append, wholePart, if_pos zero, alone]
    exact ⟨_, rfl⟩
  · obtain ⟨taken, left⟩ := takeWhile_digits others ends
    rw [wholePart, if_neg zero, if_pos first]
    simp only [taken, left]
    exact ⟨_, rfl⟩

private theorem fractionPart_of_ends {rest : Bytes} (ends : EndsNumber rest) :
    fractionPart rest = .ok (.unread none rest) := by
  cases rest with
  | nil => rfl
  | cons b r =>
    rw [fractionPart]
    exact if_neg (ends b r rfl).2.1

private theorem exponentPart_of_ends {rest : Bytes} (ends : EndsNumber rest) :
    exponentPart rest = .ok (.unread none rest) := by
  cases rest with
  | nil => rfl
  | cons b r =>
    obtain ⟨_, _, lower, upper⟩ := ends b r rfl
    have mark : (b = 0x65 || b = 0x45) = false := by simp [lower, upper]
    rw [exponentPart, mark]
    rfl

private theorem gives_unsignedNumeral (negative : Bool) (n : Nat) {rest : Bytes}
    (ends : EndsNumber rest) :
    Gives (unsignedNumeral negative (Utf8.encode (Nat.toDigits 10 n) ++ rest))
      ⟨negative, Utf8.encode (Nat.toDigits 10 n), none, none⟩ rest := by
  obtain ⟨shorter, whole⟩ := gives_wholePart n ends
  refine ⟨shorter, ?_⟩
  rw [unsignedNumeral, whole]
  simp only [bind, Except.bind, fractionPart_of_ends ends, Parsed.unread, exponentPart_of_ends ends]
  rfl

private theorem gives_numeral (v : Int) {rest : Bytes} (ends : EndsNumber rest) :
    Gives (numeral (Utf8.encode (integerChars v) ++ rest))
      ⟨decide (v < 0), Utf8.encode (Nat.toDigits 10 v.natAbs), none, none⟩ rest := by
  rw [integerChars]
  by_cases negative : v < 0
  · have minus : Utf8.encodeChar '-' = [0x2D] := by decide
    obtain ⟨shorter, read⟩ := gives_unsignedNumeral true v.natAbs ends
    rw [if_pos negative, Utf8.encode_cons, minus, decide_eq_true negative]
    simp only [List.cons_append, List.nil_append, numeral, if_true, read]
    exact ⟨_, rfl⟩
  · obtain ⟨b, r, octets, _⟩ := encode_toDigits_eq_cons v.natAbs
    have digit : isDigit b = true := isDigit_of_mem (octets ▸ List.mem_cons_self)
    have sign : b ≠ 0x2D := by
      rintro rfl
      cases digit
    have read := gives_unsignedNumeral false v.natAbs ends
    rw [octets, List.cons_append] at read
    rw [if_neg negative, decide_eq_false negative, octets, List.cons_append, numeral, if_neg sign]
    exact read

theorem encode_integerChars_eq_cons (v : Int) :
    ∃ b r, Utf8.encode (integerChars v) = b :: r ∧ (b = 0x2D ∨ isDigit b = true) := by
  rw [integerChars]
  by_cases negative : v < 0
  · have minus : Utf8.encodeChar '-' = [0x2D] := by decide
    rw [if_pos negative, Utf8.encode_cons, minus]
    exact ⟨_, _, rfl, Or.inl rfl⟩
  · obtain ⟨b, r, octets, _⟩ := encode_toDigits_eq_cons v.natAbs
    rw [if_neg negative]
    exact ⟨b, r, octets, Or.inr (isDigit_of_mem (octets ▸ List.mem_cons_self))⟩

private theorem value_integer (n : WideInt) :
    Numeral.value ⟨decide (n.value < 0), Utf8.encode (Nat.toDigits 10 n.value.natAbs), none, none⟩ =
      .ok (.int n) := by
  have lower := n.lower
  have upper := n.upper
  have digits : accumulate (Nat.pow 2 64) 0 (Utf8.encode (Nat.toDigits 10 n.value.natAbs)) =
      (n.value.natAbs, []) := accumulate_toDigits (by simp only [Nat.pow_eq]; omega)
  have signed : (if decide (n.value < 0) = true then -(n.value.natAbs : Int) else n.value.natAbs) =
      n.value := by
    simp only [decide_eq_true_eq]
    split <;> omega
  have nonzero : (decide (n.value < 0) && decide (n.value.natAbs = 0)) = false := by
    simp only [Bool.and_eq_false_iff, decide_eq_false_iff_not]
    omega
  rw [Numeral.value, digits]
  simp only [Option.isNone_none, List.isEmpty_nil, Bool.and_self, if_true, Numeral.integer, signed,
    nonzero, Bool.false_eq_true, if_false]
  rw [dif_pos ⟨lower, upper⟩]

theorem gives_number (n : WideInt) {rest : Bytes} (ends : EndsNumber rest) :
    Gives (number (Utf8.encode (integerChars n.value) ++ rest)) (.int n) rest := by
  obtain ⟨shorter, parts⟩ := gives_numeral n.value ends
  refine ⟨shorter, ?_⟩
  rw [number, parts]
  simp only [bind, Except.bind, value_integer]
  rfl

end Read

end EditorRpc.Json
