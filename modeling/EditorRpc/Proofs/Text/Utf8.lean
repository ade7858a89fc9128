import EditorRpc.Text.Utf8

/-!
Reading back what was written in UTF-8. The octets of a character are one step, whatever follows
them, so a text that was encoded is read character by character. Main statements:
`decodeLossy_encode` and `decode?_encode`.
-/

set_option autoImplicit false
set_option relaxedAutoImplicit false

namespace EditorRpc.Utf8

theorem toNat_octet {n : Nat} (h : n < 256) : (UInt8.ofNat n).toNat = n := by
  rw [UInt8.toNat_ofNat']
  exact Nat.mod_eq_of_lt h

private theorem isTail_octet (n : Nat) : isTail (UInt8.ofNat (0x80 + n % 64)) = true := by
  have value : (UInt8.ofNat (0x80 + n % 64)).toNat = 0x80 + n % 64 := toNat_octet (by omega)
  rw [isTail, value, Bool.and_eq_true, decide_eq_true_eq, decide_eq_true_eq]
  omega

private theorem tailBits_octet (n : Nat) : tailBits (UInt8.ofNat (0x80 + n % 64)) = n % 64 := by
  have value : (UInt8.ofNat (0x80 + n % 64)).toNat = 0x80 + n % 64 := toNat_octet (by omega)
  unfold tailBits
  omega

private theorem step_one {c : Char} (small : c.toNat < 0x80) (rest : Bytes) :
    step (UInt8.ofNat c.toNat) rest = (some c, rest) := by
  have lead := toNat_octet (n := c.toNat) (by omega)
  unfold step
  rw [lead, if_pos small, Char.ofNat_toNat]

private theorem step_two {c : Char} (low : ¬c.toNat < 0x80) (high : c.toNat < 0x800)
    (rest : Bytes) :
    step (UInt8.ofNat (0xC0 + c.toNat / 64)) (UInt8.ofNat (0x80 + c.toNat % 64) :: rest) =
      (some c, rest) := by
  have lead := toNat_octet (n := 0xC0 + c.toNat / 64) (by omega)
  have number : (0xC0 + c.toNat / 64 - 0xC0) * 64 + c.toNat % 64 = c.toNat := by omega
  unfold step
  rw [lead, if_neg (by omega), if_neg (by omega), if_pos (by omega)]
  simp only [isTail_octet, tailBits_octet, number, Char.ofNat_toNat, if_true]
  rw [if_pos (by omega)]

private theorem mayFollow_three {c : Char} (low : ¬c.toNat < 0x800) (high : c.toNat < 0x10000) :
    mayFollow (UInt8.ofNat (0xE0 + c.toNat / 4096))
      (UInt8.ofNat (0x80 + c.toNat / 64 % 64)) = true := by
  have lead := toNat_octet (n := 0xE0 + c.toNat / 4096) (by omega)
  have second := toNat_octet (n := 0x80 + c.toNat / 64 % 64) (by omega)
  have noSurrogate : c.toNat < 0xD800 ∨ 0xDFFF < c.toNat := by
    rcases c.valid with below | above
    · exact Or.inl below
    · exact Or.inr above.1
  simp only [mayFollow, isTail_octet, lead, second, Bool.true_and, Bool.and_eq_true,
    Bool.or_eq_true, bne_iff_ne, decide_eq_true_eq]
  omega

private theorem step_three {c : Char} (low : ¬c.toNat < 0x800) (high : c.toNat < 0x10000)
    (rest : Bytes) :
    step (UInt8.ofNat (0xE0 + c.toNat / 4096))
        (UInt8.ofNat (0x80 + c.toNat / 64 % 64) :: UInt8.ofNat (0x80 + c.toNat % 64) :: rest) =
      (some c, rest) := by
  have lead := toNat_octet (n := 0xE0 + c.toNat / 4096) (by omega)
  have number : (0xE0 + c.toNat / 4096 - 0xE0) * 4096 + c.toNat / 64 % 64 * 64 + c.toNat % 64 =
      c.toNat := by omega
  unfold step
  rw [lead, if_neg (by omega), if_neg (by omega), if_pos (by omega)]
  simp only [mayFollow_three low high, if_true]
  rw [if_neg (by omega), if_pos (by omega)]
  simp only [stepThree, isTail_octet, tailBits_octet, lead, number, Char.ofNat_toNat, if_true]

theorem toNat_lt_limit (c : Char) : c.toNat < 0x110000 := by
  rcases c.valid with below | above
  · exact Nat.lt_trans below (by decide)
  · exact above.2

private theorem mayFollow_four {c : Char} (low : ¬c.toNat < 0x10000) :
    mayFollow (UInt8.ofNat (0xF0 + c.toNat / 262144))
      (UInt8.ofNat (0x80 + c.toNat / 4096 % 64)) = true := by
  have most := toNat_lt_limit c
  have lead := toNat_octet (n := 0xF0 + c.toNat / 262144) (by omega)
  have second := toNat_octet (n := 0x80 + c.toNat / 4096 % 64) (by omega)
  simp only [mayFollow, isTail_octet, lead, second, Bool.true_and, Bool.and_eq_true,
    Bool.or_eq_true, bne_iff_ne, decide_eq_true_eq]
  omega

private theorem step_four {c : Char} (low : ¬c.toNat < 0x10000) (rest : Bytes) :
    step (UInt8.ofNat (0xF0 + c.toNat / 262144))
        (UInt8.ofNat (0x80 + c.toNat / 4096 % 64) :: UInt8.ofNat (0x80 + c.toNat / 64 % 64) ::
          UInt8.ofNat (0x80 + c.toNat % 64) :: rest) =
      (some c, rest) := by
  have most := toNat_lt_limit c
  have lead := toNat_octet (n := 0xF0 + c.toNat / 262144) (by omega)
  have number : (0xF0 + c.toNat / 262144 - 0xF0) * 262144 + c.toNat / 4096 % 64 * 4096 +
      c.toNat / 64 % 64 * 64 + c.toNat % 64 = c.toNat := by omega
  unfold step
  rw [lead, if_neg (by omega), if_neg (by omega), if_pos (by omega)]
  simp only [mayFollow_four low, if_true]
  rw [if_neg (by omega), if_neg (by omega)]
  simp only [stepFour, isTail_octet, tailBits_octet, lead, number, Char.ofNat_toNat, if_true]

theorem pieces_encodeChar_append (c : Char) (rest : Bytes) :
    pieces (encodeChar c ++ rest) = some c :: pieces rest := by
  unfold encodeChar
  dsimp only
  split
  · next small =>
    simp only [List.cons_append, List.nil_append, pieces_cons, step_one small]
  split
  · next low high =>
    simp only [List.cons_append, List.nil_append, pieces_cons, step_two low high]
  split
  · next low high =>
    simp only [List.cons_append, List.nil_append, pieces_cons, step_three low high]
  · next low =>
    simp only [List.cons_append, List.nil_append, pieces_cons, step_four low]

@[simp]
theorem encode_nil : encode [] = [] := rfl

theorem encode_cons (c : Char) (text : List Char) :
    encode (c :: text) = encodeChar c ++ encode text :=
  List.flatMap_cons

theorem pieces_encode (text : List Char) : pieces (encode text) = text.map some := by
  induction text with
  | nil => exact pieces_nil
  | cons c text ih =>
    rw [encode_cons, pieces_encodeChar_append, ih, List.map_cons]

/-- Lossy reading loses nothing of a text that was encoded. -/
theorem decodeLossy_encode (text : List Char) : decodeLossy (encode text) = text := by
  rw [decodeLossy, pieces_encode, List.map_map]
  exact List.map_id text

theorem decode?_encode (text : List Char) : decode? (encode text) = some text := by
  have valid : (text.map some).all Option.isSome = true := by simp
  rw [decode?, pieces_encode, if_pos valid, List.filterMap_map]
  exact congrArg some (List.filterMap_some ..)

theorem length_encodeChar_le (c : Char) : (encodeChar c).length ≤ 4 := by
  unfold encodeChar
  dsimp only
  repeat' split
  all_goals simp

theorem length_encode_le (text : List Char) : (encode text).length ≤ 4 * text.length := by
  induction text with
  | nil => exact Nat.le_refl 0
  | cons c text ih =>
    have first := length_encodeChar_le c
    rw [encode_cons, List.length_append, List.length_cons]
    omega

private theorem le_of_mem_encodeChar {c : Char} {b : UInt8} (high : ¬c.toNat < 0x80)
    (member : b ∈ encodeChar c) : 0x80 ≤ b.toNat := by
  have most := toNat_lt_limit c
  unfold encodeChar at member
  dsimp only at member
  rw [if_neg high] at member
  repeat' split at member
  all_goals
    simp only [List.mem_cons, List.not_mem_nil, or_false] at member
    rcases member with rfl | rfl | rfl | rfl <;> rw [UInt8.toNat_ofNat'] <;> omega

theorem exists_of_mem_encode {text : List Char} {b : UInt8} (member : b ∈ encode text)
    (low : b.toNat < 0x80) : ∃ c ∈ text, c.toNat = b.toNat := by
  obtain ⟨c, inText, inChar⟩ := List.mem_flatMap.mp member
  refine ⟨c, inText, ?_⟩
  by_cases small : c.toNat < 0x80
  · rw [encodeChar, if_pos small, List.mem_singleton] at inChar
    rw [inChar, toNat_octet (by omega)]
  · have high := le_of_mem_encodeChar small inChar
    omega

@[simp]
theorem encode_append (a b : List Char) : encode (a ++ b) = encode a ++ encode b :=
  List.flatMap_append

end EditorRpc.Utf8
