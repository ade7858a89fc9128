import EditorRpc.Registry

/-!
What a registry makes of a document: a failure if the version is not the right one, and otherwise the
message of the decoder under its method, or none. Main statements: `dispatch_eq_error_iff`,
`dispatch_eq_some_iff` and `dispatch_eq_none_iff`, one for each kind of outcome.
-/

set_option autoImplicit false
set_option relaxedAutoImplicit false

namespace EditorRpc

theorem Json.exists_members {document : Json} {name : String} {j : Json}
    (found : document.member? name = some j) : ∃ members, document = .obj members := by
  cases document with
  | obj members => exact ⟨members, rfl⟩
  | _ => cases found

theorem Json.stringMember?_eq_some_iff {document : Json} {name s : String} :
    document.stringMember? name = some s ↔ document.member? name = some (.str s) := by
  rw [stringMember?, Option.bind_eq_some_iff]
  constructor
  · rintro ⟨node, found, text⟩
    cases node with
    | str t =>
      cases text
      exact found
    | _ => cases text
  · intro found
    exact ⟨.str s, found, rfl⟩

namespace Registry

def RightVersion (document : Json) : Prop :=
  document.member? "jsonrpc" = some (.str protocolVersion)

/-- Why a document of the right version is no message. -/
inductive Unresolved (registry : Registry) (document : Json) : Prop
  | noMethod : document.member? "method" = none → Unresolved registry document
  | oddMethod {method : Json} : document.member? "method" = some method →
      method.kind ≠ .string → Unresolved registry document
  | unknown {name : String} : document.member? "method" = some (.str name) →
      registry.find? name = none → Unresolved registry document
  | refused {name : String} {decoder : Decoder} {f : Failure} :
      document.member? "method" = some (.str name) → registry.find? name = some decoder →
      decoder document = .error f → Unresolved registry document

variable {registry : Registry} {document : Json}

theorem dispatch_of_rightVersion (version : RightVersion document) :
    registry.dispatch document = .ok (((document.stringMember? "method").bind registry.find?).bind
      fun decoder => (decoder document).toOption) := by
  rw [dispatch, if_pos (Json.stringMember?_eq_some_iff.mpr version)]
  cases (document.stringMember? "method").bind registry.find? <;> rfl

theorem dispatch_of_not_rightVersion (version : ¬RightVersion document) :
    registry.dispatch document = .error (.versionMismatch (document.member? "jsonrpc")) := by
  rw [dispatch, if_neg (fun named => version (Json.stringMember?_eq_some_iff.mp named))]

theorem dispatch_eq_error_iff {f : Failure} :
    registry.dispatch document = .error f ↔
      ¬RightVersion document ∧ f = .versionMismatch (document.member? "jsonrpc") := by
  by_cases version : RightVersion document
  · rw [dispatch_of_rightVersion version]
    simp [version]
  · rw [dispatch_of_not_rightVersion version]
    simp [version, eq_comm]

theorem dispatch_eq_some_iff {message : Incoming} :
    registry.dispatch document = .ok (some message) ↔
      RightVersion document ∧ ∃ name decoder, document.member? "method" = some (.str name) ∧
        registry.find? name = some decoder ∧ decoder document = .ok message := by
  have answer (decoder : Decoder) :
      (decoder document).toOption = some message ↔ decoder document = .ok message := by
    cases decoder document <;> simp [Except.toOption]
  by_cases version : RightVersion document
  · rw [dispatch_of_rightVersion version]
    simp only [Except.ok.injEq, Option.bind_eq_some_iff, answer, version, true_and,
      Json.stringMember?_eq_some_iff]
    constructor
    · rintro ⟨decoder, ⟨name, method, found⟩, decoded⟩
      exact ⟨name, decoder, method, found, decoded⟩
    · rintro ⟨name, decoder, method, found, decoded⟩
      exact ⟨decoder, ⟨name, method, found⟩, decoded⟩
  · rw [dispatch_of_not_rightVersion version]
    simp [version]

theorem dispatch_eq_none_iff :
    registry.dispatch document = .ok none ↔
      RightVersion document ∧ Unresolved registry document := by
  by_cases version : RightVersion document
  · rw [dispatch_of_rightVersion version, Except.ok.injEq]
    constructor
    · intro none
      refine ⟨version, ?_⟩
      cases method : document.member? "method" with
      | none => exact .noMethod method
      | some node =>
        by_cases text : node.kind = .string
        · obtain ⟨name, rfl⟩ : ∃ name, node = .str name := by
            cases node <;> simp [Json.kind] at text ⊢
          rw [Json.stringMember?_eq_some_iff.mpr method, Option.bind_some] at none
          cases found : registry.find? name with
          | none => exact .unknown method found
          | some decoder =>
            rw [found, Option.bind_some] at none
            cases decoded : decoder document with
            | error f => exact .refused method found decoded
            | ok message =>
              rw [decoded] at none
              cases none
        · exact .oddMethod method text
    · rintro ⟨_, reason⟩
      cases reason with
      | noMethod method => simp [Json.stringMember?, method]
      | @oddMethod node method text =>
        have silent : node.string? = none := by
          cases node <;> simp [Json.kind, Json.string?] at text ⊢
        simp [Json.stringMember?, method, silent]
      | unknown method found =>
        rw [Json.stringMember?_eq_some_iff.mpr method, Option.bind_some, found]
        rfl
      | refused method found decoded =>
        rw [Json.stringMember?_eq_some_iff.mpr method, Option.bind_some, found, Option.bind_some,
          decoded]
        rfl
  · rw [dispatch_of_not_rightVersion version]
    simp [version]

/-! ### The registry of all methods -/

theorem decoderOf_eq_ok_iff {method : Method} {message : Incoming} :
    decoderOf method document = .ok message ↔ method.decode document = .ok message := by
  rw [decoderOf]
  cases method.decode document with
  | error e => exact ⟨nofun, nofun⟩
  | ok other =>
    constructor
    · intro same
      cases same
      rfl
    · intro same
      cases same
      rfl

theorem find?_register (registry : Registry) (name other : String) (decoder : Decoder) :
    (registry.register name decoder).2.find? other =
      if other = name then some decoder else registry.find? other :=
  Keyed.lookup_insert name other decoder registry.decoders

theorem find?_foldl_register (entries : List (String × Decoder)) (registry : Registry)
    (name : String) :
    (entries.foldl (fun r entry => (r.register entry.1 entry.2).2) registry).find? name =
      (entries.reverse.lookup name).or (registry.find? name) := by
  -- an entry that comes later replaces one of the same name, so the list is searched from its end
  induction entries generalizing registry with
  | nil => rfl
  | cons entry entries ih =>
    obtain ⟨other, decoder⟩ := entry
    rw [List.foldl_cons, ih, find?_register, List.reverse_cons, List.lookup_append]
    cases entries.reverse.lookup name with
    | some last => rfl
    | none =>
      by_cases same : name = other
      · simp [same]
      · simp [same, List.lookup_cons, beq_false_of_ne same]

theorem find?_defaults_eq_some_iff {name : String} {decoder : Decoder} :
    defaults.find? name = some decoder ↔
      ∃ method : Method, method.name = name ∧ decoderOf method = decoder := by
  let entries := Method.all.map fun method => (method.name, decoderOf method)
  have table : defaults.find? name = entries.reverse.lookup name := by
    have run := find?_foldl_register entries empty name
    have none : empty.find? name = none := rfl
    rwa [List.foldl_map, none, Option.or_none] at run
  rw [table]
  constructor
  · intro found
    obtain ⟨before, after, split, _⟩ := List.lookup_eq_some_iff.mp found
    have member : (name, decoder) ∈ entries.reverse := by
      rw [split]
      exact List.mem_append_right before List.mem_cons_self
    obtain ⟨method, _, entry⟩ := List.mem_map.mp (List.mem_reverse.mp member)
    exact ⟨method, congrArg Prod.fst entry, congrArg Prod.snd entry⟩
  · rintro ⟨method, rfl, rfl⟩
    cases method <;> rfl

end Registry

end EditorRpc
