import EditorRpc.Proofs.Keyed
import EditorRpc.Proofs.Registry.Dispatch
import EditorRpc.Proofs.Text.Order
import EditorRpc.Proofs.Text.Quoted
import Mathlib.Data.Finset.Card
import Mathlib.Data.Finset.Dedup

/-!
What a registry holds after any run of registrations. Everything it shows (the names it contains,
their number, the decoder that gives way, the message of a document, its description) follows from
what was put under each name last. Main statement: `shows_registerAll`.
-/

set_option autoImplicit false
set_option relaxedAutoImplicit false

namespace EditorRpc.Registry

/-- A call that puts a decoder under a name: any decoder under any name, or the decoder of a method
under the name of that method. -/
inductive Registration
  | custom (name : String) (decoder : Decoder)
  | method (method : Method)

namespace Registration

def entry : Registration → String × Decoder
  | .custom name decoder => (name, decoder)
  | .method m => (m.name, decoderOf m)

/-- Make the call. The first component is the decoder that gives way. -/
def perform (registry : Registry) : Registration → Option Decoder × Registry
  | .custom name decoder => registry.register name decoder
  | .method m => registry.registerMethod m

theorem perform_eq (registry : Registry) (call : Registration) :
    call.perform registry = registry.register call.entry.1 call.entry.2 := by
  cases call <;> rfl

end Registration

def registerAll (registry : Registry) (calls : List Registration) : Registry :=
  calls.foldl (fun registry call => (call.perform registry).2) registry

inductive Start
  | empty
  | defaults

namespace Start

def registry : Start → Registry
  | .empty => Registry.empty
  | .defaults => Registry.defaults

/-- The methods that are registered from the start. -/
def methods : Start → List Method
  | .empty => []
  | .defaults => Method.all

end Start

/-- Everything that was put into a registry, in order. -/
def history (start : Start) (calls : List Registration) : List (String × Decoder) :=
  (start.methods.map Registration.method ++ calls).map Registration.entry

/-- The decoder was put under the name, and later none was put under that very name. -/
def LastUnder (written : List (String × Decoder)) (name : String) (decoder : Decoder) : Prop :=
  ∃ before after, written = before ++ (name, decoder) :: after ∧ name ∉ Keyed.names after

/-- The description of a registry with these names. -/
def listing (hidden : Char → Bool) (names : List String) : String :=
  "MessageRegistry \x7b methods: [" ++ ", ".intercalate (names.map (Text.quoted hidden)) ++
    "] \x7d"

/-- All that a registry shows agrees with what was put into it. -/
structure Shows (written : List (String × Decoder)) (registry : Registry) : Prop where
  contains : ∀ name, registry.contains name = true ↔ name ∈ Keyed.names written
  size : registry.size = (Keyed.names written).toFinset.card
  isEmpty : registry.isEmpty = true ↔ registry.size = 0
  /-- A call gives nothing back if the name is new, and otherwise what was last under it. -/
  fresh : ∀ call : Registration,
    (call.perform registry).1 = none ↔ registry.contains call.entry.1 = false
  replaced : ∀ (call : Registration) (decoder : Decoder),
    (call.perform registry).1 = some decoder ↔ LastUnder written call.entry.1 decoder
  dispatched : ∀ (document : Json) (name : String) (decoder : Decoder), RightVersion document →
    document.member? "method" = some (.str name) → LastUnder written name decoder →
      registry.dispatch document = .ok (decoder document).toOption
  unknown : ∀ (document : Json) (name : String), RightVersion document →
    document.member? "method" = some (.str name) → name ∉ Keyed.names written →
      registry.dispatch document = .ok none
  untouched : ∀ (call : Registration) (document : Json),
    document.member? "method" ≠ some (.str call.entry.1) →
      (call.perform registry).2.dispatch document = registry.dispatch document
  /-- The description lists the names, each once, in ascending order of their octets, whatever class of
  characters is hidden. -/
  described : ∃ names, registry.describe = listing Text.isHidden names ∧
    (∀ hidden, registry.describeWith hidden = listing hidden names) ∧
    (∀ name, name ∈ names ↔ name ∈ Keyed.names written) ∧
    names.Pairwise fun a b => Utf8.ofString a < Utf8.ofString b
  /-- Only registries of the same names have the same description. -/
  told : ∀ (hidden : Char → Bool) (other : Registry),
    other.describeWith hidden = registry.describeWith hidden ↔
      ∀ name, other.contains name = registry.contains name

/-! ### What is last -/

variable {written : List (String × Decoder)} {registry : Registry} {name : String}
  {decoder : Decoder}

private theorem lastUnder_iff :
    LastUnder written name decoder ↔ written.reverse.lookup name = some decoder := by
  rw [List.lookup_eq_some_iff]
  constructor
  · rintro ⟨before, after, rfl, absent⟩
    refine ⟨after.reverse, before.reverse, by simp, fun entry member => ?_⟩
    rw [bne_iff_ne]
    rintro rfl
    exact absent (List.mem_map_of_mem (List.mem_reverse.mp member))
  · rintro ⟨after, before, split, apart⟩
    refine ⟨before.reverse, after.reverse, ?_, fun member => ?_⟩
    · rw [← List.reverse_reverse written, split]
      simp
    · obtain ⟨entry, inside, same⟩ := List.mem_map.mp member
      have differ := apart entry (List.mem_reverse.mp inside)
      rw [bne_iff_ne] at differ
      exact differ same.symm

private theorem lookup_eq_none_iff :
    written.lookup name = none ↔ name ∉ Keyed.names written := by
  rw [List.lookup_eq_none_iff]
  simp only [bne_iff_ne, Keyed.names, List.mem_map, not_exists, not_and]
  exact forall₂_congr fun _ _ => ne_comm

private theorem lookup_reverse_eq_none_iff :
    written.reverse.lookup name = none ↔ name ∉ Keyed.names written := by
  rw [lookup_eq_none_iff, Keyed.names, List.map_reverse, List.mem_reverse, Keyed.names]

/-! ### One call and many -/

private theorem registerAll_eq (registry : Registry) (calls : List Registration) :
    registry.registerAll calls =
      (calls.map Registration.entry).foldl (fun r entry => (r.register entry.1 entry.2).2)
        registry := by
  rw [List.foldl_map, registerAll]
  simp only [Registration.perform_eq]

/-- Under each name stands what was put there last. -/
private def Holds (written : List (String × Decoder)) (registry : Registry) : Prop :=
  ∀ name, registry.find? name = written.reverse.lookup name

private theorem holds_history (start : Start) (calls : List Registration) :
    Holds (history start calls) (start.registry.registerAll calls) := by
  -- the registry of all methods is itself a run from the empty one
  have begun : start.registry = empty.registerAll (start.methods.map .method) := by
    cases start <;> rfl
  intro name
  have none : empty.find? name = none := rfl
  rw [begun, registerAll, registerAll, ← List.foldl_append, ← registerAll, registerAll_eq,
    find?_foldl_register, none, Option.or_none, history]

/-! ### What is shown -/

private theorem contains_eq_false_iff :
    registry.contains name = false ↔ registry.find? name = none := by
  rw [contains]
  cases registry.find? name <;> simp

private theorem contains_iff_mem_names : registry.contains name = true ↔ name ∈ registry.names := by
  rw [← Bool.not_eq_false, contains_eq_false_iff, find?, lookup_eq_none_iff, not_not, names]

private theorem Holds.contains_iff (holds : Holds written registry) :
    registry.contains name = true ↔ name ∈ Keyed.names written := by
  rw [← Bool.not_eq_false, contains_eq_false_iff, holds name, lookup_reverse_eq_none_iff, not_not]

private theorem nodup_names (registry : Registry) : registry.names.Nodup :=
  Keyed.nodup_names registry.ascending

private theorem names_ascending (registry : Registry) : registry.names.Pairwise (· < ·) :=
  List.pairwise_map.mpr registry.ascending

private theorem names_eq_of_contains {other : Registry}
    (same : ∀ name, other.contains name = registry.contains name) :
    other.names = registry.names := by
  have members : other.names.Perm registry.names := by
    rw [List.perm_ext_iff_of_nodup (nodup_names other) (nodup_names registry)]
    intro name
    rw [← contains_iff_mem_names, ← contains_iff_mem_names, same]
  apply members.eq_of_pairwise _ (names_ascending other) (names_ascending registry)
  intro a b _ _ below above
  exact absurd (String.lt_trans below above) (String.lt_irrefl a)

private theorem describeWith_eq (hidden : Char → Bool) (registry : Registry) :
    registry.describeWith hidden = listing hidden registry.names := rfl

private theorem listing_inj {hidden : Char → Bool} {a b : List String}
    (same : listing hidden a = listing hidden b) : a = b := by
  unfold listing at same
  exact Text.intercalate_quoted_inj
    ((String.append_right_inj _).mp ((String.append_left_inj _).mp same))

private theorem describeWith_eq_iff {hidden : Char → Bool} {other : Registry} :
    other.describeWith hidden = registry.describeWith hidden ↔
      ∀ name, other.contains name = registry.contains name := by
  rw [describeWith_eq, describeWith_eq]
  constructor
  · intro same name
    rw [Bool.eq_iff_iff, contains_iff_mem_names, contains_iff_mem_names, listing_inj same]
  · intro same
    exact congrArg (listing hidden) (names_eq_of_contains same)

private theorem dispatch_register {document : Json}
    (other : document.member? "method" ≠ some (.str name)) (decoder : Decoder) :
    (registry.register name decoder).2.dispatch document = registry.dispatch document := by
  by_cases version : RightVersion document
  · rw [dispatch_of_rightVersion version, dispatch_of_rightVersion version]
    cases method : document.stringMember? "method" with
    | none => rfl
    | some asked =>
      have differ : asked ≠ name := by
        rintro rfl
        exact other (Json.stringMember?_eq_some_iff.mp method)
      rw [Option.bind_some, Option.bind_some, find?_register, if_neg differ]
  · rw [dispatch_of_not_rightVersion version, dispatch_of_not_rightVersion version]

private theorem Holds.shows (holds : Holds written registry) : Shows written registry where
  contains _ := holds.contains_iff
  size := by
    have same : (Keyed.names written).toFinset = registry.names.toFinset := by
      ext name
      rw [List.mem_toFinset, List.mem_toFinset, ← holds.contains_iff, contains_iff_mem_names]
    rw [same, List.toFinset_card_of_nodup (nodup_names registry)]
    exact (List.length_map _).symm
  isEmpty := by
    rw [isEmpty, List.isEmpty_iff, size, List.length_eq_zero_iff]
  fresh call := by
    rw [call.perform_eq, contains_eq_false_iff]
    rfl
  replaced call decoder := by
    rw [call.perform_eq, lastUnder_iff, ← holds]
    rfl
  dispatched document name decoder version method last := by
    rw [dispatch_of_rightVersion version, Json.stringMember?_eq_some_iff.mpr method,
      Option.bind_some, holds name, lastUnder_iff.mp last]
    rfl
  unknown document name version method absent := by
    rw [dispatch_of_rightVersion version, Json.stringMember?_eq_some_iff.mpr method,
      Option.bind_some, holds name, lookup_reverse_eq_none_iff.mpr absent]
    rfl
  untouched call document other := by
    rw [call.perform_eq]
    exact dispatch_register other call.entry.2
  described := by
    refine ⟨registry.names, rfl, fun hidden => describeWith_eq hidden registry, fun name => ?_, ?_⟩
    · rw [← contains_iff_mem_names, holds.contains_iff]
    · exact (names_ascending registry).imp Utf8.ofString_lt_iff.mpr
  told _ _ := describeWith_eq_iff

/-- After any calls, from the empty registry or from that of all methods, a registry shows what was
put under each name last. -/
theorem shows_registerAll (start : Start) (calls : List Registration) :
    Shows (history start calls) (start.registry.registerAll calls) :=
  (holds_history start calls).shows

end EditorRpc.Registry
