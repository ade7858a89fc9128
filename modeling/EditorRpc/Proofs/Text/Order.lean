import EditorRpc.Proofs.Text.Utf8

/-!
The order of texts. Comparing two texts by the numbers of their characters and comparing them octet
by octet is the same. Main statement: `ofString_lt_iff`.
-/

set_option autoImplicit false
set_option relaxedAutoImplicit false

namespace EditorRpc.Utf8

private def front : (count n : Nat) → Nat
  | 0, n => n
  | count + 1, n => front count (n / 64)

/-- The last `count` octets of a character with the number `n`. -/
private def tails : (count n : Nat) → Bytes
  | 0, _ => []
  | count + 1, n => tails count (n / 64) ++ [UInt8.ofNat (0x80 + n % 64)]

private theorem front_le_front {n m : Nat} (count : Nat) (order : n ≤ m) :
    front count n ≤ front count m := by
  induction count generalizing n m with
  | zero => exact order
  | succ count ih => exact ih (Nat.div_le_div_right order)

private theorem cons_octet_lt {a b : Nat} (bound : b < 256) {s t : Bytes}
    (order : a < b ∨ a = b ∧ s < t) : UInt8.ofNat a :: s < UInt8.ofNat b :: t := by
  rw [List.cons_lt_cons_iff, UInt8.lt_iff_toNat_lt]
  rcases order with less | ⟨rfl, less⟩
  · left
    rwa [toNat_octet bound, toNat_octet (Nat.lt_trans less bound)]
  · exact Or.inr ⟨rfl, less⟩

private theorem tails_append_lt {count n m : Nat} (less : n < m)
    (same : front count n = front count m) (s t : Bytes) :
    tails count n ++ s < tails count m ++ t := by
  induction count generalizing n m s t with
  | zero => exact absurd same (Nat.ne_of_lt less)
  | succ count ih =>
    rw [tails, tails, List.append_assoc, List.append_assoc]
    by_cases again : n / 64 = m / 64
    · rw [again]
      exact List.append_left_lt (cons_octet_lt (by omega) (Or.inl (by omega)))
    · exact ih (by omega) same _ _

private theorem encodeChar_eq (c : Char) :
    ∃ count lead, encodeChar c =
        UInt8.ofNat (lead + front count c.toNat) :: tails count c.toNat ∧
      (count = 0 ∧ lead = 0 ∧ lead + front count c.toNat < 0x80 ∧ c.toNat < 0x80 ∨
        count = 1 ∧ lead = 0xC0 ∧ lead + front count c.toNat < 0xE0 ∧
          0x80 ≤ c.toNat ∧ c.toNat < 0x800 ∨
        count = 2 ∧ lead = 0xE0 ∧ lead + front count c.toNat < 0xF0 ∧
          0x800 ≤ c.toNat ∧ c.toNat < 0x10000 ∨
        count = 3 ∧ lead = 0xF0 ∧ lead + front count c.toNat < 0x100 ∧ 0x10000 ≤ c.toNat) := by
  have most := toNat_lt_limit c
  unfold encodeChar
  dsimp only
  split
  · exact ⟨0, 0, by simp [tails, front], Or.inl ⟨rfl, rfl, by simp only [front]; omega, by omega⟩⟩
  split
  · exact ⟨1, 0xC0, by simp [tails, front], Or.inr (Or.inl
      ⟨rfl, rfl, by simp only [front]; omega, by omega⟩)⟩
  split
  · exact ⟨2, 0xE0, by simp [tails, front, Nat.div_div_eq_div_mul], Or.inr (Or.inr (Or.inl
      ⟨rfl, rfl, by simp only [front]; omega, by omega⟩))⟩
  · exact ⟨3, 0xF0, by simp [tails, front, Nat.div_div_eq_div_mul], Or.inr (Or.inr (Or.inr
      ⟨rfl, rfl, by simp only [front]; omega, by omega⟩))⟩

theorem encodeChar_append_lt {c d : Char} (below : c < d) (s t : Bytes) :
    encodeChar c ++ s < encodeChar d ++ t := by
  have less : c.toNat < d.toNat := below
  obtain ⟨count, lead, octets, size⟩ := encodeChar_eq c
  obtain ⟨count', lead', octets', size'⟩ := encodeChar_eq d
  rw [octets, octets', List.cons_append, List.cons_append]
  apply cons_octet_lt (by omega)
  by_cases same : count = count'
  · subst same
    obtain rfl : lead = lead' := by omega
    have order := front_le_front count (Nat.le_of_lt less)
    by_cases again : front count c.toNat = front count d.toNat
    · exact Or.inr ⟨by rw [again], tails_append_lt less again s t⟩
    · left
      omega
  · left
    omega

theorem encode_lt_encode {a b : List Char} (below : a < b) : encode a < encode b := by
  induction below with
  | @nil c text =>
    obtain ⟨_, _, octets, _⟩ := encodeChar_eq c
    rw [encode_cons, octets]
    exact List.nil_lt_cons _ _
  | rel less => exact encodeChar_append_lt less _ _
  | cons _ ih => exact List.append_left_lt ih

/-- Texts are in the order of their octets. -/
theorem ofString_lt_iff {a b : String} : ofString a < ofString b ↔ a < b := by
  rw [String.lt_iff]
  refine ⟨fun below => Decidable.byContradiction fun other => ?_, encode_lt_encode⟩
  rcases List.le_iff_lt_or_eq.mp (List.not_lt.mp other) with above | same
  · exact List.lt_asymm below (encode_lt_encode above)
  · rw [ofString, ofString, same] at below
    exact List.lt_irrefl _ below

end EditorRpc.Utf8
