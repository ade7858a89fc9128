import EditorRpc.Proofs.Json.RoundTrip

/-!
Documents that were read. Whatever the text, their members stand in order of their names, each once, so
a document that was read is read again from its own text as it is. Main statements: `ordered_of_parse`
and `parse_octets_of_parse`.
-/

set_option autoImplicit false
set_option relaxedAutoImplicit false

namespace EditorRpc.Json

namespace Numeral

variable {n : Numeral}

theorem ordered_integer (magnitude : Nat) : (n.integer magnitude).Ordered := by
  fun_cases integer n magnitude
  · exact .float _
  · exact .int _
  · exact .float _

theorem ordered_value {j : Json} (value : n.value = .ok j) : j.Ordered := by
  unfold Numeral.value at value
  dsimp only at value
  split at value
  · cases value
    exact ordered_integer _
  · split at value
    · split at value
      · cases value
        exact .float _
      · cases value
    · split at value
      · cases value
        exact .float _
      · cases value

end Numeral

namespace Read

def Ensures {α : Type} (property : α → Prop) (read : Parser α) : Prop :=
  ∀ s p, read s = .ok p → property p.value

theorem ordered_number : Ensures Ordered number := by
  intro s p read
  obtain ⟨n, _, given⟩ := bind_eq_ok_iff.mp read
  split at given
  · next value =>
    cases given
    exact Numeral.ordered_value value
  · cases given

section

variable {item : Parser Json} (inner : Ensures Ordered item)

include inner

theorem ordered_elements {bound : Nat} {done : List Json} {s : Bytes} {h : s.length ≤ bound}
    {p : Parsed (List Json) bound} (before : ∀ x ∈ done, x.Ordered)
    (read : elements item bound done s h = .ok p) : ∀ x ∈ p.value, x.Ordered := by
  -- a closing bracket ends the elements, a comma makes one more of those read before
  fun_induction elements item bound done s h with
  | case3 done s h q first =>
    cases read
    have all := List.forall_mem_cons.mpr ⟨inner s q first, before⟩
    exact fun x inside => all x (List.mem_reverse.mp inside)
  | case5 done s h q first r _ _ _ _ ih =>
    exact ih (List.forall_mem_cons.mpr ⟨inner s q first, before⟩) read
  | _ => cases read

theorem ordered_array : Ensures Ordered (array item) := by
  intro s p read
  unfold array at read
  split at read
  · cases read
  · split at read
    · cases read
      exact .arr nofun
    · split at read
      · cases read
      · next all =>
        cases read
        exact .arr (ordered_elements inner (List.forall_mem_nil _) all)

theorem ordered_memberEntry : Ensures (fun member => member.2.Ordered) (memberEntry item) := by
  intro s p read
  obtain ⟨name, _, named⟩ := bind_eq_ok_iff.mp read
  obtain ⟨mark, _, marked⟩ := bind_eq_ok_iff.mp named
  obtain ⟨value, given, made⟩ := bind_eq_ok_iff.mp marked
  cases made
  exact inner _ _ given

theorem ordered_members {bound : Nat} {done : List (String × Json)} {s : Bytes}
    {h : s.length ≤ bound} {p : Parsed (List (String × Json)) bound}
    (before : ∀ member ∈ done, member.2.Ordered)
    (read : members item bound done s h = .ok p) :
    Keyed.Ascending p.value ∧ ∀ member ∈ p.value, member.2.Ordered := by
  fun_induction members item bound done s h with
  | case3 done s h q first =>
    cases read
    have all : ∀ member ∈ q.value :: done, member.2.Ordered :=
      List.forall_mem_cons.mpr ⟨ordered_memberEntry inner s q first, before⟩
    exact ⟨Keyed.ascending_sorted _, fun member inside => all member (Keyed.mem_sorted inside)⟩
  | case5 done s h q first r _ _ _ _ ih =>
    exact ih (List.forall_mem_cons.mpr ⟨ordered_memberEntry inner s q first, before⟩) read
  | _ => cases read

theorem ordered_object : Ensures Ordered (object item) := by
  intro s p read
  unfold object at read
  split at read
  · cases read
  · split at read
    · cases read
      exact .obj .nil nofun
    · split at read
      · cases read
      · next all =>
        cases read
        have each := ordered_members inner (List.forall_mem_nil _) all
        exact .obj each.1 each.2

end

theorem ordered_valueFrom {inner : Option (Parser Json)}
    (each : ∀ item ∈ inner, Ensures Ordered item) {b : UInt8} {r : Bytes}
    {p : Parsed Json (r.length + 1)} (read : valueFrom inner b r = .ok p) : p.value.Ordered := by
  unfold valueFrom at read
  split at read
  · obtain ⟨text, _, rfl⟩ := map_eq_ok_iff.mp read
    exact .str _
  · split at read
    · split at read
      · cases read
      · next item =>
        obtain ⟨q, list, rfl⟩ := map_eq_ok_iff.mp read
        split at list
        · exact ordered_array (each item rfl) _ _ list
        · exact ordered_object (each item rfl) _ _ list
    · split at read
      · exact ordered_number _ _ read
      · split at read
        · obtain ⟨_, _, rfl⟩ := map_eq_ok_iff.mp read
          exact .bool true
        · split at read
          · obtain ⟨_, _, rfl⟩ := map_eq_ok_iff.mp read
            exact .bool false
          · split at read
            · obtain ⟨_, _, rfl⟩ := map_eq_ok_iff.mp read
              exact .null
            · cases read

theorem ordered_node {inner : Option (Parser Json)}
    (each : ∀ item ∈ inner, Ensures Ordered item) : Ensures Ordered (node inner) := by
  intro s p read
  unfold node at read
  split at read
  · cases read
  · obtain ⟨q, value, rfl⟩ := map_eq_ok_iff.mp read
    exact ordered_valueFrom each value

theorem ordered_value (levels : Nat) : Ensures Ordered (value levels) := by
  induction levels with
  | zero => exact ordered_node nofun
  | succ levels ih =>
    apply ordered_node
    intro item same
    cases same
    exact ih

end Read

variable {bytes : Bytes} {j : Json}

/-- Whatever order the members have in the text, and however often one is named, they stand in order
of their names in the document, each once. -/
theorem ordered_of_parse (read : parse bytes = .ok j) : j.Ordered := by
  unfold parse at read
  split at read
  · cases read
  · next value =>
    split at read
    · cases read
      exact Read.ordered_value nestingLimit _ _ value
    · cases read

theorem parse_octets_of_parse (read : parse bytes = .ok j) (plain : Plain nestingLimit j) :
    parse j.octets = .ok j := by
  rw [parse_octets plain, (ordered_of_parse read).normal_eq]

end EditorRpc.Json
