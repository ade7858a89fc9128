/-!
Lists of values under names, kept in ascending order of the names. `List.lookup` reads them. The
order of names is that of their code points, which is also the order of their UTF-8 octets. Main
statements: `lookup_insert` and `lookup_sorted` say what reading gives after a change, for any list;
`ascending_insert` and `ascending_sorted` say that the order is kept.
-/

set_option autoImplicit false
set_option relaxedAutoImplicit false

namespace EditorRpc.Keyed

variable {α : Type}

/-- The names stand in strictly ascending order, so each stands once. -/
def Ascending (entries : List (String × α)) : Prop :=
  entries.Pairwise fun a b => a.1 < b.1

/-- Put a value under a name, in place of the one that was there. -/
def insert (name : String) (value : α) : List (String × α) → List (String × α)
  | [] => [(name, value)]
  | (n, v) :: rest =>
    if name < n then (name, value) :: (n, v) :: rest
    else if name = n then (name, value) :: rest
    else (n, v) :: insert name value rest

/-- The entries in order of their names. Of several under one name the first stays. -/
def sorted (entries : List (String × α)) : List (String × α) :=
  entries.foldr (fun e rest => insert e.1 e.2 rest) []

def names (entries : List (String × α)) : List String :=
  entries.map Prod.fst

theorem lookup_insert (name other : String) (value : α) (entries : List (String × α)) :
    (insert name value entries).lookup other =
      if other = name then some value else entries.lookup other := by
  fun_induction insert name value entries <;> grind

theorem lookup_sorted (name : String) (entries : List (String × α)) :
    (sorted entries).lookup name = entries.lookup name := by
  induction entries with
  | nil => rfl
  | cons e rest ih =>
    have step : sorted (e :: rest) = insert e.1 e.2 (sorted rest) := rfl
    obtain ⟨n, v⟩ := e
    rw [step, lookup_insert, ih, List.lookup_cons]
    grind

private theorem lt_of_not_lt_of_ne {a b : String} (h : ¬a < b) (hne : a ≠ b) : b < a := by
  refine Decidable.byContradiction fun hba => hne ?_
  exact String.le_antisymm (String.not_lt.1 hba) (String.not_lt.1 h)

theorem mem_insert {name : String} {value : α} {e : String × α}
    {entries : List (String × α)} :
    e ∈ insert name value entries → e = (name, value) ∨ e ∈ entries := by
  fun_induction insert name value entries <;> grind

theorem ascending_insert (name : String) (value : α) {entries : List (String × α)}
    (h : Ascending entries) : Ascending (insert name value entries) := by
  unfold Ascending at *
  fun_induction insert name value entries with
  | case1 => simp
  | case2 n v rest hlt =>
    refine List.pairwise_cons.2 ⟨fun e he => ?_, h⟩
    rcases List.mem_cons.1 he with rfl | he
    · exact hlt
    · exact String.lt_trans hlt ((List.pairwise_cons.1 h).1 e he)
  | case3 v rest _ =>
    exact List.pairwise_cons.2 ⟨fun e he => (List.pairwise_cons.1 h).1 e he,
      (List.pairwise_cons.1 h).2⟩
  | case4 n v rest hlt hne ih =>
    refine List.pairwise_cons.2 ⟨fun e he => ?_, ih (List.pairwise_cons.1 h).2⟩
    rcases mem_insert he with rfl | he
    · exact lt_of_not_lt_of_ne hlt hne
    · exact (List.pairwise_cons.1 h).1 e he

theorem ascending_sorted (entries : List (String × α)) : Ascending (sorted entries) := by
  induction entries with
  | nil => exact List.Pairwise.nil
  | cons e rest ih => exact ascending_insert e.1 e.2 ih

end EditorRpc.Keyed
