import EditorRpc.Proofs.Incoming.Echo
import EditorRpc.Proofs.Wire.Accepted

/-!
Exactly the documents of command arguments, and of the code lenses and requests that hold them. Main
statement: `Registry.commandArguments_accepted`.
-/

set_option autoImplicit false
set_option relaxedAutoImplicit false

namespace EditorRpc

variable {document : Json}

/-- The document is an array of a URI, a position and a list of locations, which are the arguments. -/
def CommandArguments.IsTriple (a : CommandArguments) (document : Json) : Prop :=
  ∃ uri position nodes, document = .arr [uri, position, .arr nodes] ∧
    decode DocumentUri uri = .ok a.uri ∧ decode Position position = .ok a.position ∧
    List.Forall₂ (fun node location => decode Location node = .ok location) nodes a.locations

private theorem eq_triple {elements : List Json} {x y z : Json} (fits : elements.length ≤ 3)
    (first : elements[0]? = some x) (second : elements[1]? = some y)
    (third : elements[2]? = some z) : elements = [x, y, z] := by
  apply List.ext_getElem?
  intro place
  match place with
  | 0 => exact first
  | 1 => exact second
  | 2 => exact third
  | n + 3 => rw [List.getElem?_eq_none (by omega), List.getElem?_eq_none (by simp)]

namespace CommandArguments

theorem holds_fields_iff {short : Mismatch} {a : CommandArguments} :
    fields.Holds short document a ↔
      ReadsFrom (document.part? "uri" 0) a.uri ∧
        ReadsFrom (document.part? "position" 1) a.position ∧
        ReadsFrom (document.part? "locations" 2) a.locations := by
  rw [fields, Record.holds_triple_iff]
  simp only [Field.holds_required_iff]
  constructor
  · rintro ⟨uri, position, locations, first, second, third, rfl⟩
    exact ⟨first, second, third⟩
  · rintro ⟨first, second, third⟩
    exact ⟨a.uri, a.position, a.locations, first, second, third, rfl⟩

theorem decode_eq_ok_iff {a : CommandArguments} :
    decode CommandArguments document = .ok a ↔ a.IsTriple document := by
  constructor
  · intro decoded
    cases document with
    | arr elements =>
      obtain ⟨fits, holds⟩ := Record.ofElements_eq_ok_iff.mp decoded
      obtain ⟨⟨uri, first, readsUri⟩, ⟨position, second, readsPosition⟩, list, third, readsList⟩ :=
        holds_fields_iff.mp holds
      obtain ⟨nodes, rfl, each⟩ := decode_list_eq_ok_iff.mp readsList
      have whole : elements = [uri, position, .arr nodes] := eq_triple fits first second third
      exact ⟨uri, position, nodes, congrArg Json.arr whole, readsUri, readsPosition, each⟩
    | _ => cases decoded
  · rintro ⟨uri, position, nodes, rfl, readsUri, readsPosition, each⟩
    have readsList : decode (List Location) (.arr nodes) = .ok a.locations :=
      decode_list_eq_ok_iff.mpr ⟨nodes, rfl, each⟩
    refine Record.ofElements_eq_ok_iff.mpr ⟨Nat.le_refl 3, ?_⟩
    exact holds_fields_iff.mpr
      ⟨⟨uri, rfl, readsUri⟩, ⟨position, rfl, readsPosition⟩, _, rfl, readsList⟩

end CommandArguments

theorem ReadsFrom.isRecord_iff {α : Type} [Wire α] {name : String} {place most : Nat} {a : α}
    (read : ReadsFrom (document.part? name place) a) :
    document.IsRecord most ↔ ∀ elements, document = .arr elements → elements.length ≤ most := by
  obtain ⟨j, found, _⟩ := read
  cases document with
  | arr elements => simp [Json.IsRecord]
  | obj members => simp [Json.IsRecord]
  | _ => cases found

/-- A command is decoded from its parts. One that is written as an array has all three of them, so
that only an object can lack the arguments. -/
theorem Command.decode_eq_ok_iff {α : Type} [Wire α] {c : Command α} :
    decode (Command α) document = .ok c ↔
      (∀ elements, document = .arr elements → elements.length = 3) ∧
        ReadsFrom (document.part? "title" 0) c.title ∧
        ReadsFrom (document.part? "command" 1) c.command ∧
        ReadsOption (document.part? "arguments" 2) c.arguments := by
  obtain ⟨short, decoded⟩ := (fields α).exists_decode_iff "Command" document
  refine (decoded c).trans ?_
  rw [fields, Record.holds_triple_iff]
  simp only [Field.holds_required_iff, Field.holds_optional_iff]
  constructor
  · rintro ⟨shape, title, command, arguments, first, second, ⟨third, inside⟩, rfl⟩
    refine ⟨fun elements array => ?_, first, second, third⟩
    have fits : elements.length ≤ 3 := first.isRecord_iff.mp shape elements array
    have three : 2 < elements.length := inside elements array
    omega
  · rintro ⟨three, first, second, third⟩
    have shape : document.IsRecord 3 :=
      first.isRecord_iff.mpr fun elements array => Nat.le_of_eq (three elements array)
    refine ⟨shape, c.title, c.command, c.arguments, first, second, ⟨third, ?_⟩, rfl⟩
    intro elements array
    have := three elements array
    omega

theorem CodeLens.decode_eq_ok_iff {l : CodeLens} :
    decode CodeLens document = .ok l ↔
      (∀ elements, document = .arr elements → elements.length ≤ 3) ∧
        ReadsFrom (document.part? "range" 0) l.range ∧
        ReadsOption (document.part? "command" 1) l.command ∧
        ReadsOption (document.part? "data" 2) l.data := by
  obtain ⟨short, decoded⟩ := fields.exists_decode_iff "CodeLens" document
  refine (decoded l).trans ?_
  rw [fields, Record.holds_triple_iff]
  simp only [Field.holds_required_iff, Field.holds_orElse_none_iff]
  constructor
  · rintro ⟨shape, range, command, data, first, second, third, rfl⟩
    exact ⟨first.isRecord_iff.mp shape, first, second, third⟩
  · rintro ⟨fits, first, second, third⟩
    have shape : document.IsRecord 3 := first.isRecord_iff.mpr fits
    exact ⟨shape, l.range, l.command, l.data, first, second, third, rfl⟩

theorem Request.decode_members_iff {α : Type} [Wire α] {r : Request α}
    {members : List (String × Json)} :
    decode (Request α) (.obj members) = .ok r ↔
      ReadsFrom ((Json.obj members).member? "id") r.id ∧
        ReadsFrom ((Json.obj members).member? "params") r.params := by
  obtain ⟨short, decoded⟩ := (fields α).exists_decode_iff "Request" (.obj members)
  refine (decoded r).trans ?_
  rw [fields, Record.holds_pair_iff]
  simp only [Field.holds_required_iff]
  constructor
  · rintro ⟨_, id, params, first, second, rfl⟩
    exact ⟨first, second⟩
  · rintro ⟨first, second⟩
    exact ⟨trivial, r.id, r.params, first, second, rfl⟩

namespace Registry

theorem dispatch_codeLensResolve_iff {id : RequestId} {l : CodeLens} :
    defaults.dispatch document = .ok (some (.codeLensResolve ⟨id, l⟩)) ↔
      RightVersion document ∧ document.member? "method" = some (.str "codeLens/resolve") ∧
        ReadsFrom (document.member? "id") id ∧ ReadsFrom (document.member? "params") l := by
  refine dispatch_defaults_eq_some_iff.trans (and_congr_right fun version =>
    and_congr_right fun _ => ?_)
  obtain ⟨members, rfl⟩ := Json.exists_members version
  refine map_eq_ok_iff.trans (Iff.trans ?_ (Request.decode_members_iff (r := ⟨id, l⟩)))
  constructor
  · rintro ⟨request, read, same⟩
    cases same
    exact read
  · intro read
    exact ⟨⟨id, l⟩, read, rfl⟩

theorem dispatch_codeLensResolve_eq_none {lens : Json} (version : RightVersion document)
    (method : document.member? "method" = some (.str "codeLens/resolve"))
    (params : document.member? "params" = some lens)
    (undecodable : ∀ l, decode CodeLens lens ≠ .ok l) : defaults.dispatch document = .ok none := by
  cases outcome : defaults.dispatch document with
  | error f => exact absurd version (dispatch_eq_error_iff.mp outcome).1
  | ok answer =>
    cases answer with
    | none => rfl
    | some message =>
      obtain ⟨_, named, read⟩ := dispatch_defaults_eq_some_iff.mp outcome
      rw [method] at named
      have same : Method.codeLensResolve = message.method :=
        Method.eq_of_name_eq (Json.str.inj (Option.some.inj named))
      rw [← same] at read
      obtain ⟨request, _, rfl⟩ := map_eq_ok_iff.mp read
      obtain ⟨_, _, _, node, found, decoded⟩ := dispatch_codeLensResolve_iff.mp outcome
      rw [params] at found
      cases found
      exact absurd decoded (undecodable request.params)

/-- Command arguments are decoded from the arrays of three elements that decode as a URI, a position
and a list of locations, and from nothing else. The same goes for the arguments of a command and those
of the command of a lens: they are missing if their part is, or is a null, and any other part that is
no such array keeps the lens from being decoded and the request to resolve it from being a message. A
record that is written as an object has its parts under their names, and one that is written as an
array has them in order: there a command has all three, and a lens may end after its range. -/
theorem commandArguments_accepted :
    (∀ document (a : CommandArguments),
      decode CommandArguments document = .ok a ↔ a.IsTriple document) ∧
    (∀ document (c : Command CommandArguments),
      decode (Command CommandArguments) document = .ok c ↔
        (∀ elements, document = .arr elements → elements.length = 3) ∧
          ReadsFrom (document.part? "title" 0) c.title ∧
          ReadsFrom (document.part? "command" 1) c.command ∧
          ReadsOption (document.part? "arguments" 2) c.arguments) ∧
    (∀ document (l : CodeLens),
      decode CodeLens document = .ok l ↔
        (∀ elements, document = .arr elements → elements.length ≤ 3) ∧
          ReadsFrom (document.part? "range" 0) l.range ∧
          ReadsOption (document.part? "command" 1) l.command ∧
          ReadsOption (document.part? "data" 2) l.data) ∧
    (∀ document id (l : CodeLens),
      defaults.dispatch document = .ok (some (.codeLensResolve ⟨id, l⟩)) ↔
        RightVersion document ∧ document.member? "method" = some (.str "codeLens/resolve") ∧
          ReadsFrom (document.member? "id") id ∧ ReadsFrom (document.member? "params") l) ∧
    ∀ lens command arguments : Json, lens.part? "command" 1 = some command →
      command.part? "arguments" 2 = some arguments → arguments ≠ .null →
      (∀ a : CommandArguments, ¬a.IsTriple arguments) →
      (∀ l, decode CodeLens lens ≠ .ok l) ∧
        ∀ document, RightVersion document →
          document.member? "method" = some (.str "codeLens/resolve") →
          document.member? "params" = some lens → defaults.dispatch document = .ok none := by
  refine ⟨fun document a => CommandArguments.decode_eq_ok_iff,
    fun document c => Command.decode_eq_ok_iff, fun document l => CodeLens.decode_eq_ok_iff,
    fun document id l => dispatch_codeLensResolve_iff, ?_⟩
  intro lens command arguments there given present odd
  have undecodable : ∀ l, decode CodeLens lens ≠ .ok l := by
    intro l decoded
    obtain ⟨_, _, readsCommand, _⟩ := CodeLens.decode_eq_ok_iff.mp decoded
    rw [there] at readsCommand
    have shown : command ≠ .null := by
      rintro rfl
      cases given
    obtain ⟨c, _, decodedCommand⟩ := readsCommand.exists_decode shown
    obtain ⟨_, _, _, readsArguments⟩ := Command.decode_eq_ok_iff.mp decodedCommand
    rw [given] at readsArguments
    obtain ⟨a, _, decodedArguments⟩ := readsArguments.exists_decode present
    exact odd a (CommandArguments.decode_eq_ok_iff.mp decodedArguments)
  exact ⟨undecodable, fun document version method params =>
    dispatch_codeLensResolve_eq_none version method params undecodable⟩

/-- Two requests to resolve a lens whose command has arguments. Three of them make a message; with a
fourth one the request is dropped. -/
theorem commandArguments_accepted_fourth :
    let arguments : CommandArguments :=
      ⟨⟨"file:///a"⟩, ⟨1, 2⟩, [⟨⟨"file:///b"⟩, ⟨⟨3, 4⟩, ⟨3, 5⟩⟩⟩]⟩
    let command : Command CommandArguments := ⟨"1 reference", "show", some arguments⟩
    let triple : List Json := [encode arguments.uri, encode arguments.position,
      encode arguments.locations]
    let lens (elements : List Json) : Json :=
      .obj [("command", .obj [("arguments", .arr elements), ("command", .str "show"),
        ("title", .str "1 reference")]), ("range", encode (default : Range))]
    let request (elements : List Json) : Json :=
      .obj [("id", .str "7"), ("jsonrpc", .str "2.0"), ("method", .str "codeLens/resolve"),
        ("params", lens elements)]
    defaults.dispatch (request triple) =
        .ok (some (.codeLensResolve ⟨.text "7", ⟨default, some command, none⟩⟩)) ∧
      defaults.dispatch (request (triple ++ [.null])) = .ok none := by
  intro arguments command triple lens request
  obtain ⟨ofTriple, ofCommand, ofLens, ofRequest, ofOthers⟩ := commandArguments_accepted
  constructor
  · have readsArguments : decode CommandArguments (.arr triple) = .ok arguments :=
      (ofTriple _ _).mpr ⟨_, _, _, rfl, arguments.uri.readsBack, arguments.position.readsBack,
        .cons (Location.readsBack _) .nil⟩
    have readsCommand : decode (Command CommandArguments) (.obj [("arguments", .arr triple),
        ("command", .str "show"), ("title", .str "1 reference")]) = .ok command :=
      (ofCommand _ _).mpr ⟨nofun, ⟨_, rfl, rfl⟩, ⟨_, rfl, rfl⟩, nofun, _, rfl, readsArguments⟩
    have readsLens : decode CodeLens (lens triple) = .ok ⟨default, some command, none⟩ :=
      (ofLens _ _).mpr ⟨nofun, ⟨_, rfl, Range.readsBack _⟩, ⟨nofun, _, rfl, readsCommand⟩, .inl rfl⟩
    exact (ofRequest _ _ _).mpr ⟨rfl, rfl, ⟨_, rfl, rfl⟩, _, rfl, readsLens⟩
  · have odd (a : CommandArguments) : ¬a.IsTriple (.arr (triple ++ [.null])) := by
      rintro ⟨_, _, _, same, _⟩
      cases same
    obtain ⟨_, dropped⟩ := ofOthers (lens (triple ++ [.null])) _ _ rfl rfl nofun odd
    exact dropped _ rfl rfl rfl

end Registry

end EditorRpc
