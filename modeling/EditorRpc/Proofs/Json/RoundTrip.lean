import EditorRpc.Proofs.Json.Normal
import EditorRpc.Proofs.Json.Token

/-!
The compact text of a plain document is read back, in whatever order its members stand. Values are
read by induction on what makes them plain, the elements of a list and the members of an object one
after the other. Main statement: `parse_octets`.
-/

set_option autoImplicit false
set_option relaxedAutoImplicit false

namespace EditorRpc.Json

namespace Read

private def ReadsText (item : Parser Json) (j : Json) : Prop :=
  ∀ rest, EndsNumber rest → Gives (item (Utf8.encode j.chars ++ rest)) j.normal rest

private theorem endsNumber_nil : EndsNumber [] := by
  intro b r same
  cases same

private theorem endsNumber_cons {b : UInt8} (r : Bytes)
    (ends : isDigit b = false ∧ b ≠ 0x2E ∧ b ≠ 0x65 ∧ b ≠ 0x45) : EndsNumber (b :: r) := by
  intro c t same
  cases same
  exact ends

private theorem skipGap_cons {b : UInt8} (solid : isGap b = false) (r : Bytes) :
    skipGap (b :: r) = b :: r := by
  rw [skipGap, List.dropWhile_cons_of_neg]
  simp [solid]

private theorem gives_word (text : Bytes) (bound : Nat) (rest : Bytes)
    (fits : (text ++ rest).length < bound) : Gives (word text bound (text ++ rest) fits) () rest := by
  induction text with
  | nil => exact ⟨_, rfl⟩
  | cons b text ih =>
    simp only [List.cons_append, word, if_true]
    exact ih _

private theorem gives_node {inner : Option (Parser Json)} {b : UInt8} {r : Bytes} {j : Json}
    {rest : Bytes} (solid : isGap b = false) (read : Gives (valueFrom inner b r) j rest) :
    Gives (node inner (b :: r)) j rest := by
  obtain ⟨shorter, read⟩ := read
  rw [node]
  split
  · next none =>
    rw [skipGap_cons solid] at none
    cases none
  · next c t same =>
    rw [skipGap_cons solid] at same
    cases same
    rw [read]
    exact ⟨_, rfl⟩

private theorem value_eq_node (levels : Nat) : ∃ inner, value levels = node inner := by
  cases levels with
  | zero => exact ⟨none, rfl⟩
  | succ levels => exact ⟨some (value levels), rfl⟩

/-! ### Values without brackets -/

section

variable {inner : Option (Parser Json)} (rest : Bytes)

private theorem gives_null : Gives (valueFrom inner 0x6E ([0x75, 0x6C, 0x6C] ++ rest)) .null rest := by
  obtain ⟨shorter, read⟩ := gives_word [0x75, 0x6C, 0x6C] _ rest (length_lt_succ _)
  unfold valueFrom
  rw [if_neg (by decide), if_neg (by decide), if_neg (by decide), if_neg (by decide),
    if_neg (by decide), if_pos rfl, read]
  exact ⟨_, rfl⟩

private theorem gives_true :
    Gives (valueFrom inner 0x74 ([0x72, 0x75, 0x65] ++ rest)) (.bool true) rest := by
  obtain ⟨shorter, read⟩ := gives_word [0x72, 0x75, 0x65] _ rest (length_lt_succ _)
  unfold valueFrom
  rw [if_neg (by decide), if_neg (by decide), if_neg (by decide), if_pos rfl, read]
  exact ⟨_, rfl⟩

private theorem gives_false :
    Gives (valueFrom inner 0x66 ([0x61, 0x6C, 0x73, 0x65] ++ rest)) (.bool false) rest := by
  obtain ⟨shorter, read⟩ := gives_word [0x61, 0x6C, 0x73, 0x65] _ rest (length_lt_succ _)
  unfold valueFrom
  rw [if_neg (by decide), if_neg (by decide), if_neg (by decide), if_neg (by decide),
    if_pos rfl, read]
  exact ⟨_, rfl⟩

private theorem gives_str (s : String) :
    Gives (valueFrom inner 0x22 (Utf8.encode (s.toList.flatMap escapeChar) ++ 0x22 :: rest))
      (.str s) rest := by
  obtain ⟨shorter, read⟩ := gives_literal s rest
  unfold valueFrom
  rw [if_pos rfl, read]
  exact ⟨_, rfl⟩

end

private theorem encode_stringChars (s : String) :
    Utf8.encode (stringChars s) = 0x22 :: (Utf8.encode (s.toList.flatMap escapeChar) ++ [0x22]) := by
  have quote : Utf8.encodeChar '"' = [0x22] := by decide
  rw [stringChars, List.cons_append, Utf8.encode_cons, quote, Utf8.encode_append, Utf8.encode_cons,
    quote, Utf8.encode_nil]
  rfl

section

variable {b : UInt8} (first : b = 0x2D ∨ isDigit b = true)

include first

private theorem ne_of_number {c : UInt8}
    (outside : c.toNat ≠ 0x2D ∧ (c.toNat < 0x30 ∨ 0x3A ≤ c.toNat)) : b ≠ c := by
  have range : b.toNat = 0x2D ∨ 0x30 ≤ b.toNat ∧ b.toNat < 0x3A := by
    rcases first with rfl | digit
    · exact Or.inl rfl
    · rw [isDigit, Bool.and_eq_true, decide_eq_true_eq, decide_eq_true_eq] at digit
      exact Or.inr digit
  rintro rfl
  omega

private theorem isGap_of_number : isGap b = false := by
  have space : b ≠ 0x20 := ne_of_number first (by decide)
  have tab : b ≠ 0x09 := ne_of_number first (by decide)
  have feed : b ≠ 0x0A := ne_of_number first (by decide)
  have back : b ≠ 0x0D := ne_of_number first (by decide)
  simp [isGap, space, tab, feed, back]

end

private theorem gives_int (n : WideInt) {inner : Option (Parser Json)} {rest : Bytes}
    (ends : EndsNumber rest) :
    Gives (node inner (Utf8.encode (integerChars n.value) ++ rest)) (.int n) rest := by
  obtain ⟨b, r, octets, first⟩ := encode_integerChars_eq_cons n.value
  have read := gives_number n ends
  rw [octets, List.cons_append] at read ⊢
  have quote : b ≠ 0x22 := ne_of_number first (by decide)
  have list : b ≠ 0x5B := ne_of_number first (by decide)
  have object : b ≠ 0x7B := ne_of_number first (by decide)
  have open? : (b = 0x5B || b = 0x7B) = false := by simp [list, object]
  have number : (b = 0x2D || isDigit b) = true := by simpa using first
  apply gives_node (isGap_of_number first)
  unfold valueFrom
  rw [if_neg quote, open?, number]
  exact read

/-- The input begins with neither a blank nor a closing bracket. -/
private def StartsValue (s : Bytes) : Prop :=
  ∃ b r, s = b :: r ∧ isGap b = false ∧ b ≠ 0x5D ∧ b ≠ 0x7D

private theorem StartsValue.append {s : Bytes} (h : StartsValue s) (rest : Bytes) :
    StartsValue (s ++ rest) := by
  obtain ⟨b, r, rfl, others⟩ := h
  exact ⟨b, r ++ rest, rfl, others⟩

private theorem StartsValue.exists_skipGap {s : Bytes} (h : StartsValue s) :
    ∃ b r, s = b :: r ∧ skipGap s = b :: r ∧ b ≠ 0x5D ∧ b ≠ 0x7D := by
  obtain ⟨b, r, rfl, solid, others⟩ := h
  exact ⟨b, r, rfl, skipGap_cons solid r, others⟩

private theorem StartsValue.head?_ne {s : Bytes} (h : StartsValue s) :
    (skipGap s).head? ≠ some 0x5D ∧ (skipGap s).head? ≠ some 0x7D := by
  obtain ⟨b, r, _, same, list, object⟩ := h.exists_skipGap
  rw [same]
  exact ⟨fun equal => list (Option.some.inj equal), fun equal => object (Option.some.inj equal)⟩

private theorem startsValue {levels : Nat} {j : Json} (plain : Plain levels j) :
    StartsValue (Utf8.encode j.chars) := by
  cases plain with
  | null => exact ⟨0x6E, [0x75, 0x6C, 0x6C], by decide, by decide, by decide, by decide⟩
  | bool b =>
    cases b with
    | true => exact ⟨0x74, [0x72, 0x75, 0x65], by decide, by decide, by decide, by decide⟩
    | false => exact ⟨0x66, [0x61, 0x6C, 0x73, 0x65], by decide, by decide, by decide, by decide⟩
  | int n =>
    obtain ⟨b, r, octets, first⟩ := encode_integerChars_eq_cons n.value
    have list : b ≠ 0x5D := ne_of_number first (by decide)
    have object : b ≠ 0x7D := ne_of_number first (by decide)
    exact ⟨b, r, octets, isGap_of_number first, list, object⟩
  | str s => exact ⟨0x22, _, encode_stringChars s, by decide, by decide, by decide⟩
  | @arr _ xs inner =>
    have bracket : Utf8.encodeChar '[' = [0x5B] := by decide
    cases xs with
    | nil => exact ⟨0x5B, [0x5D], by decide, by decide, by decide, by decide⟩
    | cons x xs =>
      refine ⟨0x5B, Utf8.encode (x.chars ++ laterElements xs), ?_, by decide, by decide, by decide⟩
      rw [chars, List.cons_append, Utf8.encode_cons, bracket]
      rfl
  | @obj _ members inner =>
    have brace : Utf8.encodeChar '\x7b' = [0x7B] := by decide
    cases members with
    | nil => exact ⟨0x7B, [0x7D], by decide, by decide, by decide, by decide⟩
    | cons member members =>
      obtain ⟨name, x⟩ := member
      refine ⟨0x7B, Utf8.encode (stringChars name ++ ':' :: x.chars ++ laterMembers members), ?_,
        by decide, by decide, by decide⟩
      rw [chars, List.cons_append, List.cons_append, Utf8.encode_cons, brace]
      rfl

/-! ### Arrays -/

section

variable {item : Parser Json} {levels : Nat}

private theorem encode_laterElements (xs : List Json) :
    Utf8.encode (laterElements xs) =
      match xs with
      | [] => [0x5D]
      | y :: ys => comma :: (Utf8.encode y.chars ++ Utf8.encode (laterElements ys)) := by
  cases xs with
  | nil => decide
  | cons y ys =>
    have mark : Utf8.encodeChar ',' = [comma] := by decide
    rw [laterElements, List.cons_append, Utf8.encode_cons, mark, Utf8.encode_append]
    rfl

private theorem endsNumber_laterElements (xs : List Json) (rest : Bytes) :
    EndsNumber (Utf8.encode (laterElements xs) ++ rest) := by
  rw [encode_laterElements]
  cases xs with
  | nil => exact endsNumber_cons _ (by decide)
  | cons y ys => exact endsNumber_cons _ (by decide)

private theorem elements_close {s rest : Bytes} {x : Json} {done : List Json} {bound : Nat}
    (read : Gives (item s) x (0x5D :: rest)) (fits : s.length ≤ bound) :
    Gives (elements item bound done s fits) (x :: done).reverse rest := by
  obtain ⟨shorter, read⟩ := read
  have solid : skipGap (0x5D :: rest) = 0x5D :: rest := skipGap_cons (by decide) rest
  rw [elements]
  split
  · next fault failed =>
    rw [read] at failed
    cases failed
  · next p found =>
    rw [read] at found
    cases found
    split
    · next none =>
      cases solid.symm.trans none
    · next b r same =>
      cases solid.symm.trans same
      exact ⟨_, rfl⟩

private theorem elements_comma {s next : Bytes} {x : Json} {done : List Json} {bound : Nat}
    (read : Gives (item s) x (comma :: next)) (starts : StartsValue next) (fits : s.length ≤ bound)
    (left : next.length ≤ bound) :
    elements item bound done s fits = elements item bound (x :: done) next left := by
  obtain ⟨shorter, read⟩ := read
  have mark : skipGap (comma :: next) = comma :: next := skipGap_cons (by decide) next
  rw [elements]
  split
  · next fault failed =>
    rw [read] at failed
    cases failed
  · next p found =>
    rw [read] at found
    cases found
    split
    · next none =>
      cases mark.symm.trans none
    · next c t same =>
      cases mark.symm.trans same
      exact (if_neg (by decide)).trans ((if_pos rfl).trans (if_neg starts.head?_ne.1))

private theorem gives_elements {xs : List Json} {x : Json}
    (plain : ∀ y ∈ x :: xs, Plain levels y) (reads : ∀ y ∈ x :: xs, ReadsText item y)
    (done : List Json) {bound : Nat} (rest : Bytes)
    (fits : (Utf8.encode x.chars ++ (Utf8.encode (laterElements xs) ++ rest)).length ≤ bound) :
    Gives (elements item bound done
        (Utf8.encode x.chars ++ (Utf8.encode (laterElements xs) ++ rest)) fits)
      (done.reverse ++ (x :: xs).map normal) rest := by
  induction xs generalizing x done with
  | nil =>
    have read := reads x List.mem_cons_self _ (endsNumber_laterElements [] rest)
    have order : done.reverse ++ [x].map normal = (x.normal :: done).reverse := by simp
    rw [order]
    apply elements_close
    rw [encode_laterElements] at read
    exact read
  | cons y ys ih =>
    have later : Utf8.encode (laterElements (y :: ys)) ++ rest =
        comma :: (Utf8.encode y.chars ++ (Utf8.encode (laterElements ys) ++ rest)) := by
      rw [encode_laterElements, List.cons_append, List.append_assoc]
    have read := reads x List.mem_cons_self _ (endsNumber_laterElements (y :: ys) rest)
    have others : ∀ z ∈ y :: ys, z ∈ x :: y :: ys := fun z member => List.mem_cons_of_mem x member
    have starts : StartsValue (Utf8.encode y.chars ++ (Utf8.encode (laterElements ys) ++ rest)) :=
      (startsValue (plain y (others y List.mem_cons_self))).append _
    have order : done.reverse ++ (x :: y :: ys).map normal =
        (x.normal :: done).reverse ++ (y :: ys).map normal := by simp
    have left : (Utf8.encode y.chars ++ (Utf8.encode (laterElements ys) ++ rest)).length ≤ bound := by
      rw [later, List.length_append, List.length_cons] at fits
      omega
    rw [later] at read
    simp only [later, order]
    rw [elements_comma read starts _ left]
    exact ih (fun z member => plain z (others z member)) (fun z member => reads z (others z member))
      (x.normal :: done) left

private theorem gives_array {xs : List Json} (plain : ∀ x ∈ xs, Plain levels x)
    (reads : ∀ x ∈ xs, ReadsText item x) (rest : Bytes) :
    ∃ text, Utf8.encode (Json.arr xs).chars = 0x5B :: text ∧
      Gives (array item (text ++ rest)) (Json.arr xs).normal rest := by
  cases xs with
  | nil =>
    have closed : skipGap (0x5D :: rest) = 0x5D :: rest := skipGap_cons (by decide) rest
    refine ⟨[0x5D], by decide, ?_⟩
    rw [List.singleton_append, array]
    split
    · next none =>
      cases closed.symm.trans none
    · next b r same =>
      cases closed.symm.trans same
      exact ⟨_, rfl⟩
  | cons x xs =>
    have bracket : Utf8.encodeChar '[' = [0x5B] := by decide
    have starts : StartsValue (Utf8.encode x.chars ++ (Utf8.encode (laterElements xs) ++ rest)) :=
      (startsValue (plain x List.mem_cons_self)).append _
    obtain ⟨shorter, read⟩ := gives_elements plain reads [] rest (Nat.le_refl _)
    refine ⟨Utf8.encode x.chars ++ Utf8.encode (laterElements xs), ?_, ?_⟩
    · rw [chars, List.cons_append, Utf8.encode_cons, bracket, Utf8.encode_append]
      rfl
    · obtain ⟨_, _, _, solid, more, _⟩ := starts.exists_skipGap
      rw [List.append_assoc, array]
      split
      · next none =>
        cases solid.symm.trans none
      · next b r same =>
        cases solid.symm.trans same
        rw [if_neg more, Parser.ofBounded, read]
        refine ⟨shorter, ?_⟩
        rw [normal, normalElements_eq_map]
        rfl

/-! ### Objects -/

private def entryOctets (member : String × Json) : Bytes :=
  Utf8.encode (stringChars member.1) ++ 0x3A :: Utf8.encode member.2.chars

private theorem encode_entry (name : String) (x : Json) (text : List Char) :
    Utf8.encode (stringChars name ++ ':' :: x.chars ++ text) =
      entryOctets (name, x) ++ Utf8.encode text := by
  have mark : Utf8.encodeChar ':' = [0x3A] := by decide
  rw [Utf8.encode_append, Utf8.encode_append, Utf8.encode_cons, mark]
  rfl

private theorem encode_laterMembers (members : List (String × Json)) :
    Utf8.encode (laterMembers members) =
      match members with
      | [] => [0x7D]
      | member :: rest => comma :: (entryOctets member ++ Utf8.encode (laterMembers rest)) := by
  cases members with
  | nil => decide
  | cons member rest =>
    have mark : Utf8.encodeChar ',' = [comma] := by decide
    rw [laterMembers, List.cons_append, List.cons_append, Utf8.encode_cons, mark, encode_entry]
    rfl

private theorem endsNumber_laterMembers (members : List (String × Json)) (rest : Bytes) :
    EndsNumber (Utf8.encode (laterMembers members) ++ rest) := by
  rw [encode_laterMembers]
  cases members with
  | nil => exact endsNumber_cons _ (by decide)
  | cons member members => exact endsNumber_cons _ (by decide)

private theorem startsValue_entry (member : String × Json) (rest : Bytes) :
    StartsValue (entryOctets member ++ rest) := by
  rw [entryOctets, encode_stringChars]
  exact ⟨0x22, _, rfl, by decide, by decide, by decide⟩

private theorem gives_memberName (name : String) (rest : Bytes) :
    Gives (memberName (Utf8.encode (stringChars name) ++ rest)) name rest := by
  have text : Utf8.encode (stringChars name) ++ rest =
      0x22 :: (Utf8.encode (name.toList.flatMap escapeChar) ++ 0x22 :: rest) := by
    rw [encode_stringChars]
    simp
  obtain ⟨shorter, read⟩ := gives_literal name rest
  have solid := skipGap_cons (b := 0x22) (by decide)
    (Utf8.encode (name.toList.flatMap escapeChar) ++ 0x22 :: rest)
  rw [text, memberName]
  split
  · next none =>
    cases solid.symm.trans none
  · next b r same =>
    cases solid.symm.trans same
    rw [if_pos rfl, read]
    exact ⟨_, rfl⟩

private theorem gives_colon (rest : Bytes) : Gives (colon (0x3A :: rest)) () rest := by
  have solid : skipGap (0x3A :: rest) = 0x3A :: rest := skipGap_cons (by decide) rest
  rw [colon]
  split
  · next none =>
    cases solid.symm.trans none
  · next b r same =>
    cases solid.symm.trans same
    exact ⟨_, rfl⟩

private theorem gives_memberEntry {member : String × Json} (reads : ReadsText item member.2)
    {rest : Bytes} (ends : EndsNumber rest) :
    Gives (memberEntry item (entryOctets member ++ rest)) (member.1, member.2.normal) rest := by
  have text : entryOctets member ++ rest =
      Utf8.encode (stringChars member.1) ++ 0x3A :: (Utf8.encode member.2.chars ++ rest) := by
    rw [entryOctets, List.append_assoc, List.cons_append]
  obtain ⟨_, name⟩ := gives_memberName member.1 (0x3A :: (Utf8.encode member.2.chars ++ rest))
  obtain ⟨_, mark⟩ := gives_colon (Utf8.encode member.2.chars ++ rest)
  obtain ⟨_, value⟩ := reads rest ends
  rw [text, memberEntry, name]
  simp only [bind, Except.bind, mark, value]
  exact ⟨_, rfl⟩

private theorem members_close {s rest : Bytes} {member : String × Json}
    {done : List (String × Json)} {bound : Nat}
    (read : Gives (memberEntry item s) member (0x7D :: rest)) (fits : s.length ≤ bound) :
    Gives (members item bound done s fits) (Keyed.sorted (member :: done)) rest := by
  obtain ⟨shorter, read⟩ := read
  have solid : skipGap (0x7D :: rest) = 0x7D :: rest := skipGap_cons (by decide) rest
  rw [members]
  split
  · next fault failed =>
    rw [read] at failed
    cases failed
  · next p found =>
    rw [read] at found
    cases found
    split
    · next none =>
      cases solid.symm.trans none
    · next b r same =>
      cases solid.symm.trans same
      exact ⟨_, rfl⟩

private theorem members_comma {s next : Bytes} {member : String × Json}
    {done : List (String × Json)} {bound : Nat}
    (read : Gives (memberEntry item s) member (comma :: next)) (starts : StartsValue next)
    (fits : s.length ≤ bound) (left : next.length ≤ bound) :
    members item bound done s fits = members item bound (member :: done) next left := by
  obtain ⟨shorter, read⟩ := read
  have mark : skipGap (comma :: next) = comma :: next := skipGap_cons (by decide) next
  rw [members]
  split
  · next fault failed =>
    rw [read] at failed
    cases failed
  · next p found =>
    rw [read] at found
    cases found
    split
    · next none =>
      cases mark.symm.trans none
    · next c t same =>
      cases mark.symm.trans same
      exact (if_neg (by decide)).trans ((if_pos rfl).trans (if_neg starts.head?_ne.2))

private theorem gives_members {others : List (String × Json)} {member : String × Json}
    (reads : ∀ m ∈ member :: others, ReadsText item m.2) (done : List (String × Json))
    {bound : Nat} (rest : Bytes)
    (fits : (entryOctets member ++ (Utf8.encode (laterMembers others) ++ rest)).length ≤ bound) :
    Gives (members item bound done
        (entryOctets member ++ (Utf8.encode (laterMembers others) ++ rest)) fits)
      (Keyed.sorted ((normalMembers (member :: others)).reverse ++ done)) rest := by
  induction others generalizing member done with
  | nil =>
    have read := gives_memberEntry (reads member List.mem_cons_self)
      (endsNumber_laterMembers [] rest)
    rw [normalMembers_eq_map]
    apply members_close
    rw [encode_laterMembers] at read
    exact read
  | cons next others ih =>
    have later : Utf8.encode (laterMembers (next :: others)) ++ rest =
        comma :: (entryOctets next ++ (Utf8.encode (laterMembers others) ++ rest)) := by
      rw [encode_laterMembers, List.cons_append, List.append_assoc]
    have read := gives_memberEntry (reads member List.mem_cons_self)
      (endsNumber_laterMembers (next :: others) rest)
    have order : (normalMembers (member :: next :: others)).reverse ++ done =
        (normalMembers (next :: others)).reverse ++ ((member.1, member.2.normal) :: done) := by
      simp [normalMembers_eq_map]
    have left : (entryOctets next ++ (Utf8.encode (laterMembers others) ++ rest)).length ≤ bound := by
      rw [later, List.length_append, List.length_cons] at fits
      omega
    rw [later] at read
    simp only [later, order]
    rw [members_comma read (startsValue_entry next _) _ left]
    exact ih (fun m inside => reads m (List.mem_cons_of_mem member inside)) _ left

private theorem gives_object {members : List (String × Json)}
    (reads : ∀ m ∈ members, ReadsText item m.2) (rest : Bytes) :
    ∃ text, Utf8.encode (Json.obj members).chars = 0x7B :: text ∧
      Gives (object item (text ++ rest)) (Json.obj members).normal rest := by
  cases members with
  | nil =>
    have closed : skipGap (0x7D :: rest) = 0x7D :: rest := skipGap_cons (by decide) rest
    refine ⟨[0x7D], by decide, ?_⟩
    rw [List.singleton_append, object]
    split
    · next none =>
      cases closed.symm.trans none
    · next b r same =>
      cases closed.symm.trans same
      exact ⟨_, rfl⟩
  | cons member others =>
    have brace : Utf8.encodeChar '\x7b' = [0x7B] := by decide
    obtain ⟨_, _, _, solid, _, more⟩ :=
      (startsValue_entry member (Utf8.encode (laterMembers others) ++ rest)).exists_skipGap
    obtain ⟨shorter, read⟩ := gives_members reads [] rest (Nat.le_refl _)
    refine ⟨entryOctets member ++ Utf8.encode (laterMembers others), ?_, ?_⟩
    · rw [chars, List.cons_append, List.cons_append, Utf8.encode_cons, brace, encode_entry]
      rfl
    · rw [List.append_assoc, object]
      split
      · next none =>
        cases solid.symm.trans none
      · next b r same =>
        cases solid.symm.trans same
        rw [if_neg more, Parser.ofBounded, read]
        refine ⟨shorter, ?_⟩
        rw [normal, List.append_nil]

end

/-! ### Documents -/

private theorem value_readsText {levels : Nat} {j : Json} (plain : Plain levels j) :
    ReadsText (value levels) j := by
  induction plain with
  | @null levels =>
    intro rest _
    obtain ⟨inner, same⟩ := value_eq_node levels
    rw [same]
    exact gives_node (by decide) (gives_null rest)
  | @bool levels b =>
    intro rest _
    obtain ⟨inner, same⟩ := value_eq_node levels
    rw [same]
    cases b with
    | true => exact gives_node (by decide) (gives_true rest)
    | false => exact gives_node (by decide) (gives_false rest)
  | @int levels n =>
    intro rest ends
    obtain ⟨inner, same⟩ := value_eq_node levels
    rw [same, chars]
    exact gives_int n ends
  | @str levels s =>
    intro rest _
    obtain ⟨inner, same⟩ := value_eq_node levels
    rw [same, chars, encode_stringChars, List.cons_append, List.append_assoc]
    exact gives_node (by decide) (gives_str rest s)
  | @arr levels xs plain reads =>
    intro rest _
    obtain ⟨text, octets, shorter, read⟩ := gives_array plain reads rest
    rw [octets, List.cons_append, value]
    apply gives_node (by decide)
    unfold valueFrom
    rw [if_neg (by decide), if_pos (by decide)]
    simp only [if_true, read]
    exact ⟨_, rfl⟩
  | @obj levels members plain reads =>
    intro rest _
    obtain ⟨text, octets, shorter, read⟩ := gives_object reads rest
    have brace : (0x7B : UInt8) ≠ 0x5B := by decide
    rw [octets, List.cons_append, value]
    apply gives_node (by decide)
    unfold valueFrom
    rw [if_neg (by decide), if_pos (by decide)]
    simp only [if_neg brace, read]
    exact ⟨_, rfl⟩

end Read

/-- The text of a document without floating point numbers that nests no deeper than is read gives the
document back, with its members in order. -/
theorem parse_octets {j : Json} (plain : Plain nestingLimit j) : parse j.octets = .ok j.normal := by
  have text := Read.value_readsText plain [] Read.endsNumber_nil
  rw [List.append_nil] at text
  obtain ⟨shorter, read⟩ := text
  rw [parse, octets, read]
  rfl

end EditorRpc.Json
