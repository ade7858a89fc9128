import EditorRpc.Stream.Sink
import Mathlib.Data.List.Basic

/-!
Several writes to a sink that may fill up. What is stored is as much of all the bytes together as there
is room for, and a write is answered with its fault from the first one on that does not fit. Main
statements: `stored_writeEach`, `getElem?_writeEach` and `exists_count`.
-/

set_option autoImplicit false
set_option relaxedAutoImplicit false

namespace EditorRpc.Sink

def Fits (room : Option Nat) (count : Nat) : Prop :=
  ∀ n ∈ room, count ≤ n

/-- As much of the bytes as fits into the room. -/
def fitting (room : Option Nat) (bytes : Bytes) : Bytes :=
  match room with
  | none => bytes
  | some n => bytes.take n

def roomAfter (room : Option Nat) (count : Nat) : Option Nat :=
  room.map (· - count)

/-- Write one item after the other, whatever becomes of each. -/
def writeEach : List Bytes → Sink → List (Except Failure Unit) × Sink
  | [], s => ([], s)
  | item :: items, s =>
    let (result, after) := s.write item
    let (later, last) := writeEach items after
    (result :: later, last)

theorem fitting_append (room : Option Nat) (bytes more : Bytes) :
    fitting room (bytes ++ more) =
      fitting room bytes ++ fitting (roomAfter room bytes.length) more := by
  cases room with
  | none => rfl
  | some n => exact List.take_append

theorem fitting_of_fits {room : Option Nat} {bytes : Bytes} (fits : Fits room bytes.length) :
    fitting room bytes = bytes := by
  cases room with
  | none => rfl
  | some n => exact List.take_of_length_le (fits n rfl)

theorem not_fits_iff {room : Option Nat} {count : Nat} :
    ¬Fits room count ↔ ∃ n, room = some n ∧ n < count := by
  simp [Fits]

/-- What comes after other bytes fits with them if it fits into the room that they leave; there must
be something of it, for nothing at all always fits. -/
theorem fits_roomAfter_iff {room : Option Nat} {before count : Nat} (some : 0 < count) :
    Fits (roomAfter room before) count ↔ Fits room (before + count) := by
  cases room with
  | none => simp [Fits, roomAfter]
  | some n =>
    simp only [Fits, roomAfter, Option.map_some, Option.mem_some_iff, forall_eq']
    omega

/-! ### One write -/

theorem snd_write (s : Sink) (bytes : Bytes) :
    (s.write bytes).2 =
      ⟨s.stored ++ fitting s.room bytes, roomAfter s.room bytes.length, s.fault⟩ := by
  obtain ⟨stored, room, fault⟩ := s
  cases room <;> rfl

theorem fst_write_of_fits {s : Sink} {bytes : Bytes} (fits : Fits s.room bytes.length) :
    (s.write bytes).1 = .ok () := by
  obtain ⟨stored, room, fault⟩ := s
  cases room with
  | none => rfl
  | some n => exact if_pos (fits n rfl)

theorem fst_write_of_not_fits {s : Sink} {bytes : Bytes} (beyond : ¬Fits s.room bytes.length) :
    (s.write bytes).1 = .error (.io s.fault) := by
  obtain ⟨stored, room, fault⟩ := s
  obtain ⟨n, rfl, less⟩ := not_fits_iff.mp beyond
  exact if_neg (Nat.not_le.mpr less)

/-! ### All writes -/

theorem writeEach_cons (item : Bytes) (items : List Bytes) (s : Sink) :
    writeEach (item :: items) s =
      ((s.write item).1 :: (writeEach items (s.write item).2).1,
        (writeEach items (s.write item).2).2) := rfl

theorem stored_writeEach (items : List Bytes) (s : Sink) :
    (writeEach items s).2.stored = s.stored ++ fitting s.room items.flatten := by
  induction items generalizing s with
  | nil => cases room : s.room <;> simp [writeEach, fitting]
  | cons item items ih =>
    rw [writeEach_cons, ih, snd_write, List.flatten_cons, fitting_append, List.append_assoc]

theorem length_writeEach (items : List Bytes) (s : Sink) :
    (writeEach items s).1.length = items.length := by
  induction items generalizing s with
  | nil => rfl
  | cons item items ih => rw [writeEach_cons, List.length_cons, ih, List.length_cons]

section

variable {items : List Bytes}

private theorem length_flatten_take_pos (solid : ∀ item ∈ items, item ≠ []) {i : Nat}
    (inside : i < items.length) : 0 < (items.take (i + 1)).flatten.length := by
  cases items with
  | nil => cases inside
  | cons item items =>
    have present : item ≠ [] := solid item List.mem_cons_self
    rw [List.take_succ_cons, List.flatten_cons, List.length_append]
    exact Nat.add_pos_left (List.length_pos_iff.mpr present) _

private theorem fits_take_cons_iff (solid : ∀ item ∈ items, item ≠ []) (item : Bytes)
    (room : Option Nat) {i : Nat} (inside : i < items.length) :
    Fits room ((item :: items).take (i + 1 + 1)).flatten.length ↔
      Fits (roomAfter room item.length) (items.take (i + 1)).flatten.length := by
  rw [fits_roomAfter_iff (length_flatten_take_pos solid inside), List.take_succ_cons,
    List.flatten_cons, List.length_append]

private theorem flatten_take_one (item : Bytes) (items : List Bytes) :
    ((item :: items).take (0 + 1)).flatten = item := by
  simp

theorem getElem?_writeEach (solid : ∀ item ∈ items, item ≠ []) (s : Sink) {i : Nat}
    (inside : i < items.length) :
    (Fits s.room (items.take (i + 1)).flatten.length →
      (writeEach items s).1[i]? = some (.ok ())) ∧
    (¬Fits s.room (items.take (i + 1)).flatten.length →
      (writeEach items s).1[i]? = some (.error (.io s.fault))) := by
  induction items generalizing s i with
  | nil => cases inside
  | cons item items ih =>
    rw [writeEach_cons]
    cases i with
    | zero =>
      rw [flatten_take_one]
      exact ⟨fun fits => congrArg some (fst_write_of_fits fits),
        fun beyond => congrArg some (fst_write_of_not_fits beyond)⟩
    | succ i =>
      have others := (List.forall_mem_cons.mp solid).2
      have later : i < items.length := Nat.lt_of_succ_lt_succ inside
      have result := ih others (s.write item).2 later
      rw [snd_write] at result ⊢
      rw [fits_take_cons_iff others item s.room later]
      exact result

theorem getElem?_writeEach_eq_ok_iff (solid : ∀ item ∈ items, item ≠ []) (s : Sink) {i : Nat}
    (inside : i < items.length) :
    (writeEach items s).1[i]? = some (.ok ()) ↔ Fits s.room (items.take (i + 1)).flatten.length := by
  obtain ⟨stored, refused⟩ := getElem?_writeEach solid s inside
  constructor
  · intro success
    by_contra beyond
    rw [refused beyond] at success
    cases success
  · exact stored

theorem exists_count (solid : ∀ item ∈ items, item ≠ []) (room : Option Nat) :
    ∃ count rest, count ≤ items.length ∧
      (∀ i < items.length, Fits room (items.take (i + 1)).flatten.length ↔ i < count) ∧
      fitting room items.flatten = (items.take count).flatten ++ rest ∧
      (rest ≠ [] → ∃ missing, missing ≠ [] ∧ items[count]? = some (rest ++ missing)) := by
  induction items generalizing room with
  | nil =>
    refine ⟨0, [], Nat.le_refl 0, nofun, ?_, fun some => absurd rfl some⟩
    cases room <;> simp [fitting]
  | cons item items ih =>
    have others := (List.forall_mem_cons.mp solid).2
    by_cases fits : Fits room item.length
    · obtain ⟨count, rest, within, first, stored, part⟩ := ih others (roomAfter room item.length)
      refine ⟨count + 1, rest, Nat.succ_le_succ within, ?_, ?_, part⟩
      · intro i inside
        cases i with
        | zero =>
          rw [flatten_take_one]
          exact iff_of_true fits (Nat.succ_pos count)
        | succ i =>
          have later : i < items.length := Nat.lt_of_succ_lt_succ inside
          rw [fits_take_cons_iff others item room later, first i later]
          exact Nat.succ_lt_succ_iff.symm
      · rw [List.flatten_cons, fitting_append, fitting_of_fits fits, stored, List.take_succ_cons,
          List.flatten_cons, List.append_assoc]
    · -- the first item does not fit, so it is the last of which anything is stored
      obtain ⟨n, rfl, less⟩ := not_fits_iff.mp fits
      refine ⟨0, item.take n, Nat.zero_le _, ?_, ?_, ?_⟩
      · intro i _
        have beyond : ¬Fits (some n) ((item :: items).take (i + 1)).flatten.length := by
          rw [List.take_succ_cons, List.flatten_cons, List.length_append]
          exact not_fits_iff.mpr ⟨n, rfl, Nat.lt_add_right _ less⟩
        exact iff_of_false beyond (Nat.not_lt_zero i)
      · exact List.take_append_of_le_length (Nat.le_of_lt less)
      · intro _
        refine ⟨item.drop n, ?_, ?_⟩
        · rw [Ne, List.drop_eq_nil_iff]
          exact Nat.not_le.mpr less
        · rw [List.take_append_drop]
          rfl

private theorem length_flatten_take_le (items : List Bytes) {i j : Nat} (before : i ≤ j) :
    (items.take i).flatten.length ≤ (items.take j).flatten.length := by
  obtain ⟨later, rfl⟩ := Nat.exists_eq_add_of_le before
  rw [List.take_add, List.flatten_append, List.length_append]
  exact Nat.le_add_right _ _

private theorem ne_flatten_take {count : Nat} {rest missing : Bytes} (begun : rest ≠ [])
    (part : missing ≠ []) (next : items[count]? = some (rest ++ missing)) (j : Nat) :
    (items.take count).flatten ++ rest ≠ (items.take j).flatten := by
  intro same
  have lengths := congrArg List.length same
  have stored := List.length_pos_iff.mpr begun
  have left := List.length_pos_iff.mpr part
  rw [List.length_append] at lengths
  rcases Nat.lt_or_ge count j with after | before
  · have more := length_flatten_take_le items after
    rw [List.take_add_one, next, Option.toList_some, List.flatten_append, List.flatten_singleton,
      List.length_append, List.length_append] at more
    omega
  · have fewer := length_flatten_take_le items before
    omega

/-- Items and what is stored of the next one end where an item ends only if nothing is. -/
theorem flatten_take_append_eq_iff {count : Nat} {rest : Bytes}
    (next : rest ≠ [] → ∃ missing, missing ≠ [] ∧ items[count]? = some (rest ++ missing)) :
    (∃ j, (items.take count).flatten ++ rest = (items.take j).flatten) ↔ rest = [] := by
  constructor
  · rintro ⟨j, boundary⟩
    by_contra begun
    obtain ⟨missing, part, found⟩ := next begun
    exact ne_flatten_take begun part found j boundary
  · rintro rfl
    exact ⟨count, List.append_nil _⟩

end

end EditorRpc.Sink
