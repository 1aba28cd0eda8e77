import FunnelFlow.Funnel.Document
import FunnelFlow.Run.Basic

namespace FunnelFlow

namespace HistoryEntry

def read (fields : Fields) : Checked HistoryEntry :=
  HistoryEntry.mk <$> Coerce.withDefault fields "nodeId" none (Coerce.optional Coerce.text)
    <*> Coerce.required fields "enteredAt" Coerce.instant
    <*> Coerce.required fields "outcome" (Coerce.choice Outcome.ofName?)
    <*> Coerce.withDefault fields "reason" none (Coerce.optional Coerce.text)

def toValue (e : HistoryEntry) : Value :=
  .object [("nodeId", .ofText? e.nodeId), ("enteredAt", .instant e.enteredAt),
    ("outcome", .text e.outcome.name), ("reason", .ofText? e.reason)]

end HistoryEntry

namespace Run

def readFields (fields : Fields) (id : Checked String) : Checked Run :=
  Run.mk <$> id.within (.key "id")
    <*> Coerce.required fields "funnelId" Coerce.text
    <*> Coerce.required fields "contactId" Coerce.text
    <*> Coerce.required fields "currentNodeId" Coerce.text
    <*> Coerce.withDefault fields "status" .running (Coerce.choice RunStatus.ofName?)
    <*> Coerce.withDefault fields "resumeAt" none (Coerce.optional Coerce.instant)
    <*> Coerce.withDefault fields "attempts" 0 Coerce.integer
    <*> Coerce.withDefault fields "nextAttemptAt" none (Coerce.optional Coerce.instant)
    <*> Coerce.withDefault fields "payload" [] Coerce.object
    <*> Coerce.withDefault fields "history" [] (Coerce.list (Coerce.record HistoryEntry.read))
    <*> Coerce.withDefault fields "created_at" none (Coerce.optional Coerce.instant)
    <*> Coerce.withDefault fields "updated_at" none (Coerce.optional Coerce.instant)

def ofDocument : Value → Reading Run
  | .object fields => .ofChecked ((Table.get? fields "id").map Coerce.text) (readFields fields)
  | _ => .fail (.malformed [⟨[], .recordExpected⟩])

def toFields (r : Run) : Fields :=
  [("funnelId", .text r.funnelId), ("contactId", .text r.contactId),
    ("currentNodeId", .text r.currentNodeId), ("status", .text r.status.name),
    ("resumeAt", .ofInstant? r.resumeAt), ("attempts", .int r.attempts),
    ("nextAttemptAt", .ofInstant? r.nextAttemptAt), ("payload", .object r.payload),
    ("history", .list (r.history.map HistoryEntry.toValue)),
    ("created_at", .ofInstant? r.createdAt), ("updated_at", .ofInstant? r.updatedAt)]

def toDocument (r : Run) : Fields := ("id", .text r.id) :: r.toFields

end Run

end FunnelFlow
