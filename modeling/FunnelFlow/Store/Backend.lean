import FunnelFlow.Store.Database
import FunnelFlow.Store.Memory

namespace FunnelFlow

inductive Backend where
  | memory (m : Stored MemoryStore)
  | database (d : Stored Database)
  deriving Repr

namespace Backend

def ofMemory (runTtl funnelTtl : Span) : Backend :=
  .memory ⟨.first, .empty runTtl funnelTtl⟩

def ofDatabase (runTtl funnelTtl : Span) (address : String) : Backend :=
  .database ⟨.first, { runTtl, funnelTtl, address, isOpen := false, server := .empty .inFormat }⟩

def answer (call : StoreCall) : Backend → Except Fault call.Answer × Backend
  | .memory m => let (result, m) := (MemoryStore.answer call).run m; (result, .memory m)
  | .database d => let (result, d) := (Database.answer call).run d; (result, .database d)

def ids : Backend → IdSupply
  | .memory m => m.ids
  | .database d => d.ids

def withIds (ids : IdSupply) : Backend → Backend
  | .memory m => .memory { m with ids }
  | .database d => .database { d with ids }

def funnels : Backend → Table Value
  | .memory m => m.data.funnels
  | .database d => d.data.server.funnels.map fun row => ((Collection.idOf row).display, .object row)

def runs : Backend → Table Value
  | .memory m => m.data.runs
  | .database d => d.data.server.runs.map fun row => ((Collection.idOf row).display, .object row)

/-- A lock that is kept in two fields of a row. One without a holder is free. -/
def lockIn (holder acquired : String) (row : Fields) : Option (String × Value × Value) :=
  if (row.get holder).isNull then none
  else some ((Collection.idOf row).display, row.get holder, row.get acquired)

def lockEntry (entry : String × Lock) : String × Value × Value :=
  (entry.1, .text entry.2.holder, .instant entry.2.acquiredAt)

def funnelLocks : Backend → Table (Value × Value)
  | .memory m => m.data.funnelLocks.map lockEntry
  | .database d => d.data.server.funnelLocks.filterMap (lockIn "holder" "acquired_at")

def runLocks : Backend → Table (Value × Value)
  | .memory m => m.data.runLocks.map lockEntry
  | .database d => d.data.server.runs.filterMap (lockIn "lock_owner" "lock_acquired_at")

def putFunnel (id : String) (document : Value) : Backend → Backend
  | .memory m => .memory { m with data.funnels := m.data.funnels.set id document }
  | .database d => .database { d with
      data.server.funnels := d.data.server.funnels.replace (row id document) }
where
  row (id : String) : Value → Fields
    | .object fields => Table.set fields "_id" (.text id)
    | _ => [("_id", .text id)]

def putRun (id : String) (document : Value) : Backend → Backend
  | .memory m => .memory { m with data.runs := m.data.runs.set id document }
  | .database d => .database { d with
      data.server.runs := d.data.server.runs.replace (putFunnel.row id document) }

def onServer (f : Server → Server) : Backend → Backend
  | .memory m => .memory m
  | .database d => .database { d with data.server := f d.data.server }

/-- Runs something on a store of its own on the same database, with a client and times of locks of
its own. -/
def apart {α : Type} (runTtl funnelTtl : Span) (act : Backend → α × Backend) (b : Backend) :
    α × Backend :=
  match b with
  | .memory m => act (.memory m)
  | .database d =>
    match act (.database { d with data := { d.data with runTtl, funnelTtl, isOpen := false } }) with
    | (a, .database after) =>
      (a, .database { after with data := { d.data with server := after.data.server } })
    | (a, other) => (a, other)

end Backend

end FunnelFlow
