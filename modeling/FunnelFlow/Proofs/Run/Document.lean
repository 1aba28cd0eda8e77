import FunnelFlow.Run.Document
import FunnelFlow.Proofs.Value.Checked

namespace FunnelFlow

namespace HistoryEntry

theorem read_toValue (e : HistoryEntry) : Coerce.record read e.toValue = .ok e := by
  obtain ⟨nodeId, enteredAt, outcome, reason⟩ := e
  cases nodeId <;> cases outcome <;> cases reason <;> rfl

theorem itemsFrom_toValue (entries : List HistoryEntry) (i : Nat) :
    Coerce.itemsFrom (Coerce.record read) i (entries.map toValue) = .ok entries := by
  induction entries generalizing i with
  | nil => rfl
  | cons e entries ih => simp [Coerce.itemsFrom, read_toValue, ih]

end HistoryEntry

namespace Run

theorem optional_ofInstant? (t? : Option Instant) :
    Coerce.optional Coerce.instant (.ofInstant? t?) = .ok t? := by
  cases t? <;> rfl

theorem choice_status (status : RunStatus) :
    Coerce.choice RunStatus.ofName? (.text status.name) = .ok status := by
  cases status <;> rfl

/-- Whatever else there is, the fields of a run are read as that run. -/
theorem readFields_append (r : Run) (rest : Fields) :
    readFields (r.toFields ++ rest) (.ok r.id) = .ok r := by
  have hhistory : Coerce.list (Coerce.record HistoryEntry.read)
      (.list (r.history.map HistoryEntry.toValue)) = .ok r.history :=
    HistoryEntry.itemsFrom_toValue r.history 0
  simp [readFields, toFields, Coerce.required, Coerce.withDefault, Table.get?, hhistory,
    optional_ofInstant?, choice_status, Coerce.text, Coerce.integer, Coerce.object]

theorem readFields_toDocument (r : Run) : readFields r.toDocument (.ok r.id) = .ok r := by
  have hfields : readFields r.toDocument = readFields (r.toFields ++ []) := rfl
  rw [hfields, readFields_append]

theorem ofDocument_eq {r : Run} {fields : Fields} (hid : fields.get? "id" = some (.text r.id))
    (hfields : readFields fields (.ok r.id) = .ok r) :
    ofDocument (.object fields) = { needsId := false, result := fun _ => .ok r } := by
  simp only [ofDocument, Reading.ofChecked, hid, Option.map_some, Option.getD_some, Coerce.text,
    hfields]
  rfl

theorem ofDocument_toDocument (r : Run) :
    ofDocument (.object r.toDocument) = { needsId := false, result := fun _ => .ok r } :=
  ofDocument_eq rfl (readFields_toDocument r)

theorem toDocument_injective {r r' : Run} (h : r.toDocument = r'.toDocument) : r = r' := by
  have hread : ofDocument (.object r.toDocument) = ofDocument (.object r'.toDocument) := by rw [h]
  rw [ofDocument_toDocument, ofDocument_toDocument] at hread
  have hresult := congrArg (Reading.result · "") hread
  exact Except.ok.inj hresult

end Run

end FunnelFlow
