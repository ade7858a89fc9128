import EditorRpc.Text.CharClass
import Mathlib.Tactic.SplitIfs

/-!
Reading back a quoted text. Its end can be found without knowing what it says, so quoted texts that
stand in a row are told apart, whatever class of characters is hidden. Main statements: `quoted_append_inj` and `intercalate_quoted_inj`.
-/

set_option autoImplicit false
set_option relaxedAutoImplicit false

namespace EditorRpc.Text

private def hexDigit (c : Char) : Nat :=
  if c.isDigit then c.toNat - 0x30 else c.toNat - 0x57

/-- The character at the front of what stands between the quotes, and what comes after it. -/
private def unquoteChar : List Char → Option (Char × List Char)
  | [] => none
  | '"' :: _ => none
  | '\\' :: 'n' :: rest => some ('\n', rest)
  | '\\' :: 'r' :: rest => some ('\r', rest)
  | '\\' :: 't' :: rest => some ('\t', rest)
  | '\\' :: '0' :: rest => some ('\x00', rest)
  | '\\' :: 'u' :: _ :: rest =>
    let digits := rest.takeWhile fun c => c != '\x7d'
    let number := digits.foldl (fun n c => 16 * n + hexDigit c) 0
    some (Char.ofNat number, rest.drop (digits.length + 1))
  | '\\' :: c :: rest => some (c, rest)
  | c :: rest => some (c, rest)

private theorem hexDigit_digitChar : ∀ d < 16, hexDigit (Nat.digitChar d) = d := by
  decide

private theorem toDigits_hex (n : Nat) :
    (Nat.toDigits 16 n).foldl (fun n c => 16 * n + hexDigit c) 0 = n ∧
      ∀ c ∈ Nat.toDigits 16 n, (c != '\x7d') = true := by
  induction n using Nat.strongRecOn with
  | ind n ih =>
    by_cases short : n < 16
    · rw [Nat.toDigits_of_lt_base short]
      simp [hexDigit_digitChar n short]
    · obtain ⟨value, braceless⟩ := ih (n / 16) (by omega)
      have last := hexDigit_digitChar (n % 16) (Nat.mod_lt n (by decide))
      rw [Nat.toDigits_of_base_le (by decide) (by omega), List.foldl_append, value,
        List.foldl_cons, List.foldl_nil, last, List.forall_mem_append, List.forall_mem_singleton]
      exact ⟨by omega, braceless, by simp⟩

variable {hidden : Char → Bool}

private theorem unquoteChar_quoteChar (c : Char) (rest : List Char) :
    unquoteChar (quoteChar hidden c ++ rest) = some (c, rest) := by
  unfold quoteChar
  split_ifs with quote slash lineFeed carriage tab null unseen
  · subst quote; rfl
  · subst slash; rfl
  · subst lineFeed; rfl
  · subst carriage; rfl
  · subst tab; rfl
  · subst null; rfl
  · obtain ⟨number, braceless⟩ := toDigits_hex c.toNat
    have digits : (Nat.toDigits 16 c.toNat ++ '\x7d' :: rest).takeWhile (fun c => c != '\x7d') =
        Nat.toDigits 16 c.toNat := by
      rw [List.takeWhile_append_of_pos braceless]
      simp
    simp [unquoteChar, digits, number]
  · simp [unquoteChar, slash]

private theorem quoteChars_append_inj {a b x y : List Char}
    (same : a.flatMap (quoteChar hidden) ++ '"' :: x =
      b.flatMap (quoteChar hidden) ++ '"' :: y) : a = b ∧ x = y := by
  have front := congrArg unquoteChar same
  induction a generalizing b with
  | nil =>
    cases b with
    | nil => exact ⟨rfl, (List.cons.inj same).2⟩
    | cons d b =>
      rw [List.flatMap_cons, List.append_assoc, unquoteChar_quoteChar] at front
      cases front
  | cons c a ih =>
    cases b with
    | nil =>
      rw [List.flatMap_cons, List.append_assoc, unquoteChar_quoteChar] at front
      cases front
    | cons d b =>
      rw [List.flatMap_cons, List.flatMap_cons, List.append_assoc, List.append_assoc,
        unquoteChar_quoteChar, unquoteChar_quoteChar] at front
      obtain ⟨rfl, later⟩ := Prod.mk.inj (Option.some.inj front)
      obtain ⟨rfl, rest⟩ := ih later (congrArg unquoteChar later)
      exact ⟨rfl, rest⟩

theorem quoted_append_inj {a b : String} {x y : List Char}
    (same : (quoted hidden a).toList ++ x = (quoted hidden b).toList ++ y) : a = b ∧ x = y := by
  simp only [quoted, String.toList_ofList, List.append_assoc, List.cons_append,
    List.nil_append, List.cons.injEq, true_and] at same
  obtain ⟨text, rest⟩ := quoteChars_append_inj same
  exact ⟨String.toList_injective text, rest⟩

-- a space of no width, and an accent on the letter before it
example : quoted isHidden "\u200be\u0301" = "\"\\u\x7b200b\x7de\\u\x7b301\x7d\"" := by
  decide +kernel

private def laterQuoted (hidden : Char → Bool) (texts : List String) : List Char :=
  texts.flatMap fun text => [',', ' '] ++ (quoted hidden text).toList

private theorem toList_intercalate_cons (first : String) (texts : List String) :
    (", ".intercalate ((first :: texts).map (quoted hidden))).toList =
      (quoted hidden first).toList ++ laterQuoted hidden texts := by
  rw [String.toList_intercalate]
  induction texts generalizing first with
  | nil => simp [laterQuoted]
  | cons second texts ih =>
    rw [List.map_cons, List.map_cons, List.map_cons, List.map_cons, List.intercalate_cons_cons,
      ← List.map_cons, ← List.map_cons, ih]
    simp [laterQuoted]

private theorem laterQuoted_inj {a b : List String}
    (same : laterQuoted hidden a = laterQuoted hidden b) : a = b := by
  induction a generalizing b with
  | nil =>
    cases b with
    | nil => rfl
    | cons d b => simp [laterQuoted] at same
  | cons c a ih =>
    cases b with
    | nil => simp [laterQuoted] at same
    | cons d b =>
      rw [laterQuoted, laterQuoted, List.flatMap_cons, List.flatMap_cons, List.append_assoc,
        List.append_assoc] at same
      obtain ⟨rfl, later⟩ := quoted_append_inj (List.append_cancel_left same)
      rw [ih later]

/-- A list of quoted texts says which texts they are. -/
theorem intercalate_quoted_inj {a b : List String}
    (same : ", ".intercalate (a.map (quoted hidden)) =
      ", ".intercalate (b.map (quoted hidden))) : a = b := by
  have chars := congrArg String.toList same
  cases a with
  | nil =>
    cases b with
    | nil => rfl
    | cons d b =>
      simp [quoted] at chars
  | cons c a =>
    cases b with
    | nil =>
      simp [quoted] at chars
    | cons d b =>
      rw [toList_intercalate_cons, toList_intercalate_cons] at chars
      obtain ⟨rfl, later⟩ := quoted_append_inj chars
      rw [laterQuoted_inj later]

end EditorRpc.Text
