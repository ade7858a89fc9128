import EditorRpc.Keyed

/-!
Sorting entries whose names differ. It only moves them, so it gives the same for every order in which
they may stand. Main statements: `sorted_eq_of_perm` and `sorted_eq_self`.
-/

set_option autoImplicit false
set_option relaxedAutoImplicit false

namespace EditorRpc.Keyed

variable {α : Type} {entries : List (String × α)}

instance (entries : List (String × α)) : Decidable (Ascending entries) :=
  inferInstanceAs (Decidable (entries.Pairwise fun a b => a.1 < b.1))

theorem mem_sorted {e : String × α} (inside : e ∈ sorted entries) : e ∈ entries := by
  induction entries with
  | nil => exact inside
  | cons first rest ih =>
    rcases mem_insert inside with rfl | later
    · exact List.mem_cons_self
    · exact List.mem_cons_of_mem first (ih later)

theorem perm_insert {name : String} (value : α) (fresh : name ∉ names entries) :
    (insert name value entries).Perm ((name, value) :: entries) := by
  fun_induction insert name value entries with
  | case1 => exact List.Perm.refl _
  | case2 n v rest before => exact List.Perm.refl _
  | case3 v rest _ => exact absurd List.mem_cons_self fresh
  | case4 n v rest before other ih =>
    have later : name ∉ names rest := fun member => fresh (List.mem_cons_of_mem n member)
    exact ((ih later).cons (n, v)).trans (List.Perm.swap _ _ _)

theorem perm_sorted (distinct : (names entries).Nodup) : (sorted entries).Perm entries := by
  induction entries with
  | nil => exact List.Perm.refl _
  | cons e rest ih =>
    obtain ⟨n, v⟩ := e
    obtain ⟨fresh, others⟩ := List.nodup_cons.mp distinct
    have kept : (sorted rest).Perm rest := ih others
    have step : sorted ((n, v) :: rest) = insert n v (sorted rest) := rfl
    have absent : n ∉ names (sorted rest) := fun member =>
      fresh ((kept.map Prod.fst).mem_iff.mp member)
    rw [step]
    exact (perm_insert v absent).trans (kept.cons (n, v))

private theorem eq_of_perm {others : List (String × α)} (first : Ascending entries)
    (second : Ascending others) (same : entries.Perm others) : entries = others := by
  apply List.Perm.eq_of_pairwise _ first second same
  intro a b _ _ below above
  exact absurd (String.lt_trans below above) (String.lt_irrefl a.1)

theorem sorted_eq_of_perm {others : List (String × α)} (distinct : (names others).Nodup)
    (same : entries.Perm others) : sorted entries = sorted others := by
  have both : (names entries).Nodup := (same.map Prod.fst).nodup_iff.mpr distinct
  apply eq_of_perm (ascending_sorted entries) (ascending_sorted others)
  exact ((perm_sorted both).trans same).trans (perm_sorted distinct).symm

theorem nodup_names (h : Ascending entries) : (names entries).Nodup := by
  apply List.pairwise_map.mpr
  apply List.Pairwise.imp _ h
  intro a b below same
  rw [same] at below
  exact String.lt_irrefl b.1 below

theorem sorted_eq_self (h : Ascending entries) : sorted entries = entries :=
  eq_of_perm (ascending_sorted entries) h (perm_sorted (nodup_names h))

end EditorRpc.Keyed
