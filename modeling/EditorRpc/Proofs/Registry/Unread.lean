import EditorRpc.Proofs.Incoming.Echo
import EditorRpc.Proofs.Wire.Unread

/-!
What the registry of all methods reads of a document. Its answer is decided by the version, the method,
and those members that the method reads; what else stands in the document, at whatever depth, does
not show in the answer. Main statement: `dispatch_unread`.
-/

set_option autoImplicit false
set_option relaxedAutoImplicit false

namespace EditorRpc

/-- The members of these names are the same in both documents, or missing in both. -/
def Json.AgreeOn (names : List String) (a b : Json) : Prop :=
  ∀ name ∈ names, a.member? name = b.member? name

/-- What a method reads of a document, its name and the version aside. -/
def Method.reads : Method → List (String × Shape)
  | .cancelRequest => [("params", .cancelParams)]
  | .beginSession => [("id", .whole), ("params", .initializeParams)]
  | .initialized => []
  | .documentSymbol => [("id", .whole), ("params", .documentParams)]
  | .codeLens => [("id", .whole), ("params", .documentParams)]
  | .codeLensResolve => [("id", .whole), ("params", .codeLens)]
  | .workspaceSymbol => [("id", .whole), ("params", .workspaceSymbolParams)]

theorem Alike.member {fields : List (String × Shape)} {name : String} {shape : Shape}
    {as bs : List (String × Json)} (h : Alike (.record fields) (some (.obj as)) (some (.obj bs)))
    (inside : (name, shape) ∈ fields) : Alike shape (as.lookup name) (bs.lookup name) := by
  cases h with
  | same => exact .same shape _
  | members items => exact items name shape inside

theorem Alike.of_agreeOn {fields : List (String × Shape)} {as bs : List (String × Json)}
    (agree : (Json.obj as).AgreeOn (fields.map Prod.fst) (.obj bs)) :
    Alike (.record fields) (some (.obj as)) (some (.obj bs)) := by
  apply Alike.members
  intro name shape inside
  have same : as.lookup name = bs.lookup name :=
    agree name (List.mem_map_of_mem (f := Prod.fst) inside)
  rw [same]
  exact .same shape _

theorem decodeMember_eq {α : Type} [Wire α] {shape : Shape} (h : Respects α shape) {name : String}
    {a b : Json} (alike : Alike shape (a.member? name) (b.member? name)) :
    decodeMember α a name = decodeMember α b name := by
  unfold decodeMember
  rcases alike.both_or_neither with ⟨noneA, noneB⟩ | ⟨x, y, someA, someB, nodes⟩
  · rw [noneA, noneB]
  · rw [someA, someB]
    exact h x y nodes

private theorem request_eq {α : Type} [Wire α] {shape : Shape} (h : Respects α shape)
    (wrap : Request α → Incoming) {a b : Json}
    (alike : Alike (.record [("id", .whole), ("params", shape)]) (some a) (some b)) :
    (decode (Request α) a).map wrap = (decode (Request α) b).map wrap := by
  rw [h.request a b alike]

theorem Method.decode_eq {m : Method} {as bs : List (String × Json)}
    (alike : Alike (.record m.reads) (some (.obj as)) (some (.obj bs))) :
    m.decode (.obj as) = m.decode (.obj bs) := by
  cases m with
  | cancelRequest =>
    have params : Alike .cancelParams (as.lookup "params") (bs.lookup "params") :=
      alike.member List.mem_cons_self
    have same : decodeMember CancelParams (.obj as) "params" =
        decodeMember CancelParams (.obj bs) "params" := decodeMember_eq CancelParams.respects params
    rw [decode, decode, same]
  | initialized => rfl
  | beginSession => exact request_eq InitializeParams.respects _ alike
  | documentSymbol => exact request_eq DocumentSymbolParams.respects _ alike
  | codeLens => exact request_eq CodeLensParams.respects _ alike
  | codeLensResolve => exact request_eq CodeLens.respects _ alike
  | workspaceSymbol => exact request_eq WorkspaceSymbolParams.respects _ alike

namespace Registry

variable {a b : Json}

theorem dispatch_eq_of_decoder {registry : Registry}
    (envelope : a.AgreeOn ["jsonrpc", "method"] b)
    (decoded : ∀ name decoder, a.member? "method" = some (.str name) →
      registry.find? name = some decoder → decoder a = decoder b) :
    registry.dispatch a = registry.dispatch b := by
  have version : a.member? "jsonrpc" = b.member? "jsonrpc" := envelope _ (by simp)
  have method : a.member? "method" = b.member? "method" := envelope _ (by simp)
  rw [dispatch, dispatch, Json.stringMember?, Json.stringMember?, Json.stringMember?,
    Json.stringMember?, ← version, ← method]
  split
  · split
    · rfl
    · next decoder found =>
      obtain ⟨name, named, found⟩ := Option.bind_eq_some_iff.mp found
      have text := Json.stringMember?_eq_some_iff.mp named
      rw [decoded name decoder text found]
  · rfl

theorem dispatch_eq_of_alike (envelope : a.AgreeOn ["jsonrpc", "method"] b)
    (alike : ∀ m : Method, a.member? "method" = some (.str m.name) →
      Alike (.record m.reads) (some a) (some b)) : defaults.dispatch a = defaults.dispatch b := by
  apply dispatch_eq_of_decoder envelope
  intro name decoder named found
  obtain ⟨m, rfl, rfl⟩ := find?_defaults_eq_some_iff.mp found
  obtain ⟨as, rfl⟩ := Json.exists_members named
  rw [envelope "method" (by simp)] at named
  obtain ⟨bs, rfl⟩ := Json.exists_members named
  rw [decoderOf, decoderOf, Method.decode_eq (alike m (envelope "method" (by simp) ▸ named))]

theorem alike_of_agreeOn {m : Method} (envelope : a.AgreeOn ["jsonrpc", "method"] b)
    (named : a.member? "method" = some (.str m.name))
    (agree : a.AgreeOn (m.reads.map Prod.fst) b) : Alike (.record m.reads) (some a) (some b) := by
  obtain ⟨as, rfl⟩ := Json.exists_members named
  rw [envelope "method" (by simp)] at named
  obtain ⟨bs, rfl⟩ := Json.exists_members named
  exact Alike.of_agreeOn agree

/-- What the answer depends on. Documents of one version and one method get the same answer if they
have the same identifier and the same parameters, whatever further members they have; a cancellation
needs no identifier for that, and the end of the handshake needs neither. For every method the
parameters may also differ in members that no record in them has a field for, and in a trace setting
that is not known. -/
theorem dispatch_unread (a b : Json) (envelope : a.AgreeOn ["jsonrpc", "method"] b) :
    (a.AgreeOn ["id", "params"] b → defaults.dispatch a = defaults.dispatch b) ∧
      (a.member? "method" = some (.str "$/cancelRequest") → a.AgreeOn ["params"] b →
        defaults.dispatch a = defaults.dispatch b) ∧
      (a.member? "method" = some (.str "initialized") →
        defaults.dispatch a = defaults.dispatch b) ∧
      ∀ m : Method, a.member? "method" = some (.str m.name) →
        Alike (.record m.reads) (some a) (some b) → defaults.dispatch a = defaults.dispatch b := by
  have decided (m : Method) (named : a.member? "method" = some (.str m.name))
      (alike : Alike (.record m.reads) (some a) (some b)) :
      defaults.dispatch a = defaults.dispatch b := by
    apply dispatch_eq_of_alike envelope
    intro other same
    rw [named] at same
    obtain rfl : m = other := Method.eq_of_name_eq (Json.str.inj (Option.some.inj same))
    exact alike
  refine ⟨?_, ?_, ?_, decided⟩
  · intro agree
    apply dispatch_eq_of_alike envelope
    intro m named
    have within : ∀ name ∈ m.reads.map Prod.fst, name ∈ ["id", "params"] := by
      cases m <;> decide
    exact alike_of_agreeOn envelope named fun name inside => agree name (within name inside)
  · intro named agree
    exact decided .cancelRequest named (alike_of_agreeOn envelope named agree)
  · intro named
    exact decided .initialized named (alike_of_agreeOn envelope named nofun)

/-- Two documents that begin a session. In one of them the client has a theme, the parameters lack a
locale, and the trace is not known; capabilities are free, so there a further member shows. -/
theorem dispatch_unread_session :
    let document (capabilities clientInfo : List (String × Json)) (locale trace : String) : Json :=
      .obj [("id", .str "1"), ("jsonrpc", .str "2.0"), ("method", .str "initialize"),
        ("params", .obj [("capabilities", .obj capabilities), ("clientInfo", .obj clientInfo),
          (locale, .str "de"), ("trace", .str trace)])]
    let a := document [] [("name", .str "ed"), ("theme", .str "dark")] "place" "loud"
    let b := document [] [("name", .str "ed")] "locale" "off"
    a.AgreeOn ["jsonrpc", "method"] b ∧ defaults.dispatch a = defaults.dispatch b ∧
      defaults.dispatch (document [("theme", .null)] [("name", .str "ed")] "locale" "off") ≠
        defaults.dispatch b := by
  intro document a b
  have envelope : a.AgreeOn ["jsonrpc", "method"] b := by
    intro name inside
    simp only [List.mem_cons, List.not_mem_nil, or_false] at inside
    rcases inside with rfl | rfl <;> rfl
  have clientInfo : Alike .clientInfo (some (.obj [("name", .str "ed"), ("theme", .str "dark")]))
      (some (.obj [("name", .str "ed")])) := by
    apply Alike.of_agreeOn
    intro name inside
    simp only [List.map_cons, List.map_nil, List.mem_cons, List.not_mem_nil, or_false] at inside
    rcases inside with rfl | rfl <;> rfl
  have trace : Alike .setting (some (.str "loud")) (some (.str "off")) := .unknown (by decide)
  have params : Alike .initializeParams (a.member? "params") (b.member? "params") := by
    apply Alike.members
    intro name shape inside
    simp only [List.mem_cons, List.not_mem_nil, or_false, Prod.mk.injEq] at inside
    rcases inside with ⟨rfl, rfl⟩ | ⟨rfl, rfl⟩ | ⟨rfl, rfl⟩ | ⟨rfl, rfl⟩ | ⟨rfl, rfl⟩ | ⟨rfl, rfl⟩ |
      ⟨rfl, rfl⟩
    case inr.inl => exact clientInfo
    case inr.inr.inr.inr.inr.inr => exact trace
    all_goals exact .same .whole _
  have alike : Alike (.record Method.beginSession.reads) (some a) (some b) := by
    apply Alike.members
    intro name shape inside
    simp only [Method.reads, List.mem_cons, List.not_mem_nil, or_false, Prod.mk.injEq] at inside
    rcases inside with ⟨rfl, rfl⟩ | ⟨rfl, rfl⟩
    · exact .same .whole _
    · exact params
  refine ⟨envelope, (dispatch_unread a b envelope).2.2.2 .beginSession rfl alike, ?_⟩
  intro same
  cases same

end Registry

end EditorRpc
