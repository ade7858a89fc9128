import EditorRpc.Proofs.Inbox.Answers

/-!
A stream that breaks against one that is closed after the same bytes. What does not come from the end
of the stream is the same for both; where the closed one is at its end, between two frames or within
one, the broken one fails with its fault. Main statement: `exists_readAll_broken`.
-/

set_option autoImplicit false
set_option relaxedAutoImplicit false

namespace EditorRpc

/-- A read of a broken stream is that of the closed one, unless the end caused that. -/
theorem Delimited.broken {α : Type} {read : Source → Except Stop α × Source} (h : Delimited read)
    {bytes : Bytes} {result : Except Stop α} {rest : Source}
    (reads : read (.ofBytes bytes) = (result, rest)) (fault : IoFault) :
    (ByEnd result → read ⟨bytes, .broken fault⟩ = (.error (.failed (.io fault)), .ofBytes [])) ∧
    (¬ByEnd result → ∃ left, rest = .ofBytes left ∧
      read ⟨bytes, .broken fault⟩ = (result, ⟨left, .broken fault⟩)) := by
  constructor
  · intro cause
    rcases h bytes with ⟨taken, unread, given, rfl, own, settled⟩ | ⟨f, met, _⟩
    · obtain ⟨rfl, _⟩ := Prod.mk.inj ((settled unread .closed).symm.trans reads)
      exact absurd cause own
    · exact met (.broken fault)
  · intro own
    have whole := h.append reads own [] (.broken fault)
    simpa only [List.append_nil] using whole

namespace Inbox

def IsEnd (f : Failure) : Prop :=
  f.isEof = true ∨ ∃ where?, f = .truncatedFrame where?

theorem byEnd_failed_iff {α : Type} {f : Failure} :
    ByEnd (.error (.failed f) : Except Stop α) ↔ IsEnd f := by
  constructor
  · rintro ⟨_, same, way⟩
    cases same
    exact way
  · intro way
    exact ⟨f, rfl, way⟩

variable {registry : Registry} {limits : Limits}

theorem exists_readAll_broken (registry : Registry) (positive : 1 ≤ limits.lineBytes)
    (bytes : Bytes) (fault : IoFault) :
    ∃ results f g, readAll registry limits (.ofBytes bytes) = ⟨results, .failed f⟩ ∧
      readAll registry limits ⟨bytes, .broken fault⟩ = ⟨results, .failed g⟩ ∧
      (IsEnd f → g = .io fault) ∧ (¬IsEnd f → g = f) := by
  have sounds : (Source.ofBytes bytes).ending ≠ .silent := Ending.noConfusion
  obtain ⟨results, start, f, rest, reads, stops⟩ := exists_call_failed registry limits sounds
  have closed := readAll_of_reads ⟨reads, stops⟩
  obtain ⟨left, rfl, first⟩ := reads.append positive rfl [] (.broken fault)
  rw [List.append_nil, List.append_nil] at first
  have last := (readMessage_delimited registry positive).broken stops fault
  rw [byEnd_failed_iff] at last
  by_cases cause : IsEnd f
  · have broken := readAll_of_reads ⟨first, last.1 cause⟩
    exact ⟨results, f, .io fault, closed, broken, fun _ => rfl, fun own => absurd cause own⟩
  · obtain ⟨unread, _, again⟩ := last.2 cause
    have broken := readAll_of_reads ⟨first, again⟩
    exact ⟨results, f, f, closed, broken, fun way => absurd way cause, fun _ => rfl⟩

end Inbox

end EditorRpc
