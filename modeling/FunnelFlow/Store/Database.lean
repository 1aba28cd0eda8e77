import FunnelFlow.Store.Collection
import FunnelFlow.Store.Contract
import FunnelFlow.Store.Keeping

/-!
The store that keeps funnels, runs and funnel locks in three collections of a document database.
The lock of a run is part of its row. A lock is taken by one update of a row that is free or whose
lock ran out; a funnel's lock row is inserted when there is none, and meets the taken id when
another holder has it.
-/

namespace FunnelFlow

/-- Calls that the database will let fail: after some that work, a number of them, or all. -/
structure Outage where
  kind : OutageKind
  after : Nat
  times : Option Nat
  deriving DecidableEq, Repr

namespace Outage

def next (o : Outage) : Option OutageKind × Outage :=
  match o.after, o.times with
  | n + 1, _ => (none, { o with after := n })
  | 0, none => (some o.kind, o)
  | 0, some 0 => (none, o)
  | 0, some (n + 1) => (some o.kind, { o with times := some n })

end Outage

structure Server where
  keeping : Keeping
  funnels : Collection
  runs : Collection
  funnelLocks : Collection
  outage : Option Outage
  refusesClients : Bool
  /-- The addresses that clients asked for, in order. -/
  opened : List String
  closed : Nat
  deriving Repr

def Server.empty (keeping : Keeping) : Server := ⟨keeping, [], [], [], none, false, [], 0⟩

/-- A store on a database. Its client is opened at the first call. -/
structure Database where
  runTtl : Span
  funnelTtl : Span
  address : String
  isOpen : Bool
  server : Server
  deriving Repr

namespace Database

open StoreM

abbrev Work := StoreM Database

def current : Work Server := do return (← data).server

def setServer (server : Server) : Work Unit := do setData { ← data with server }

def connect : Work Unit := do
  let db ← data
  if !db.isOpen then
    setData { db with server.opened := db.server.opened ++ [db.address] }
    if db.server.refusesClients then throw .noClient
    setData { ← data with isOpen := true }

/-- Counts a call of the database, which an outage lets fail. -/
def call : Work Unit := do
  let s ← current
  if let some outage := s.outage then
    let (failure, rest) := outage.next
    setServer { s with outage := some rest }
    if let some kind := failure then throw (.outage kind)

def keptRow (row : Fields) : Work Fields := do liftExcept ((← current).keeping.row row)

def keptInstant (t : Instant) : Work Instant := do liftExcept ((← current).keeping.instant t)

def report (e : Fault) : Fault :=
  if e.isRefusal then e
  else match e with
    | .outage .operation => .databaseFailed e
    | .outage _ => .databaseUnreachable e
    | _ => .databaseFailed e

def operation {α : Type} (work : Work α) : Work α := do
  connect
  tryCatch work fun e => throw (report e)

def readRow (row : Fields) : Work Funnel :=
  readFunnel (Funnel.ofDocument (.object row) (.text (row.get "_id").display))

def funnelRow (f : Funnel) : Fields :=
  Table.set (Table.erase f.toDocument "id") "_id" (.text f.id)

def saveFunnel (f : Funnel) : Work Funnel := operation do
  call
  let row ← keptRow (funnelRow f)
  let s ← current
  setServer { s with funnels := s.funnels.replace row }
  readRow (funnelRow f)

def byId (id : String) : Query := .is "_id" (.text id)

def getFunnel (id : String) : Work (Option Funnel) := operation do
  call
  match ← liftExcept ((← current).funnels.findOne (byId id)) with
  | none => return none
  | some row => return some (← readRow row)

def listFunnels : Work (List Funnel) := operation do
  call
  (← liftExcept (Collection.sortBy "created_at" (← current).funnels)).mapM readRow

def deleteFunnel (id : String) : Work Bool := operation do
  call
  let s ← current
  let (deleted, funnels) ← liftExcept (s.funnels.deleteOne (byId id))
  setServer { s with funnels }
  call
  let s ← current
  let (_, funnelLocks) ← liftExcept (s.funnelLocks.deleteOne (byId id))
  setServer { s with funnelLocks }
  return deleted

def activeFunnels (trigger : String) : Work (List Funnel) := operation do
  let t ← liftExcept (Trigger.ofName trigger)
  call
  let query := Query.both (.is "isActive" (.bool true)) (.is "trigger" (.text t.name))
  (← liftExcept ((← current).funnels.find query)).mapM readRow

/-- The latest instant at which a lock that has run out by `now` was taken. -/
def expiry (now : Instant) (ttl : Span) : Except Fault Instant := Fault.ofSpan (now.minus ttl)

/-- Locks that a holder may take: its own and those that ran out. -/
def freeFor (holder : String) (expired : Instant) : Query :=
  .either (.is "holder" (.text holder)) (.notAfter "acquired_at" expired)

def lockFunnel (id holder : String) (now : Instant) : Work Bool := operation do
  let expired ← liftExcept (expiry now (← data).funnelTtl)
  call
  let expired ← keptInstant expired
  let updates ← keptRow [("holder", .text holder), ("acquired_at", .instant now)]
  let s ← current
  let (previous, funnelLocks) ←
    liftExcept (s.funnelLocks.updateOne (.both (byId id) (freeFor holder expired)) updates)
  match previous with
  | some row =>
    setServer { s with funnelLocks }
    return row.get "holder" != .text holder
  | none =>
    match s.funnelLocks.insert (("_id", .text id) :: updates) with
    | .ok funnelLocks =>
      setServer { s with funnelLocks }
      return true
    | .error _ => throw (.funnelLocked id none)

def unlockFunnel (id holder : String) : Work Bool := operation do
  call
  let s ← current
  let (deleted, funnelLocks) ←
    liftExcept (s.funnelLocks.deleteOne (.both (byId id) (.is "holder" (.text holder))))
  setServer { s with funnelLocks }
  return deleted

def readRunRow (row : Fields) : Work Run :=
  readRun (Run.ofDocument (.object (Table.set row "id" (.text (row.get "_id").display))))

def unlocked : Fields := [("lock_owner", .null), ("lock_acquired_at", .null)]

def createRun (r : Run) : Work Run := operation do
  let row := r.toFields ++ ("_id", .text r.id) :: unlocked
  call
  let kept ← keptRow row
  let s ← current
  setServer { s with runs := ← liftExcept (s.runs.insert kept) }
  readRunRow row

def getRun (id : String) : Work (Option Run) := operation do
  call
  match ← liftExcept ((← current).runs.findOne (byId id)) with
  | none => return none
  | some row => return some (← readRunRow row)

def filterQuery (filter : RunFilter) : Except Fault Query := do
  let funnel := filter.funnelId.toList.map fun id => Query.is "funnelId" (.text id)
  let contact := filter.contactId.toList.map fun id => Query.is "contactId" (.text id)
  let status ← filter.status.toList.mapM fun name => do
    let s ← RunStatus.ofName name
    return Query.is "status" (.text s.name)
  return .all (funnel ++ contact ++ status)

def listRuns (filter : RunFilter) : Work (List Run) := operation do
  let query ← liftExcept (filterQuery filter)
  call
  let rows ← liftExcept ((← current).runs.find query)
  (← liftExcept (Collection.sortBy "created_at" rows)).mapM readRunRow

def unlockedBy (expired : Instant) : Query :=
  .either (.is "lock_owner" .null) (.notAfter "lock_acquired_at" expired)

def dueQuery (now : Instant) : Query :=
  let isIn (s : RunStatus) := Query.is "status" (.text s.name)
  .either (.both (isIn .waiting) (.notAfter "resumeAt" now))
    (.either (.both (isIn .running) (.is "nextAttemptAt" .null))
      (.both (isIn .running) (.notAfter "nextAttemptAt" now)))

/-- The ids of the first rows up to a limit; the limit zero is none. -/
def dueRuns (now : Instant) (limit : Int) : Work (List String) := operation do
  let expired ← liftExcept (expiry now (← data).runTtl)
  call
  let query := Query.both (unlockedBy (← keptInstant expired)) (dueQuery (← keptInstant now))
  let rows ← liftExcept ((← current).runs.find query)
  let ids := rows.map fun row => (row.get "_id").display
  return if limit = 0 then ids else ids.take limit.natAbs

def acquireRun (id owner : String) (now : Instant) : Work Run := operation do
  let expired ← liftExcept (expiry now (← data).runTtl)
  call
  let expired ← keptInstant expired
  let updates ← keptRow [("lock_owner", .text owner), ("lock_acquired_at", .instant now)]
  let s ← current
  let (row, runs) ← liftExcept (s.runs.updateOne (.both (byId id) (unlockedBy expired)) updates)
  match row with
  | some row =>
    setServer { s with runs }
    readRunRow (row.setAll updates)
  | none =>
    call
    if (← current).runs.hasId (.text id) then throw (.runLocked id) else throw (.runNotFound id)

def writeRun (r : Run) (owner : String) (lockFields : Fields) : Work Run := operation do
  call
  let updates ← keptRow (r.toFields ++ lockFields)
  let s ← current
  let (row, runs) ← liftExcept <|
    s.runs.updateOne (.both (byId r.id) (.is "lock_owner" (.text owner))) updates
  if row.isNone then throw (.runNotHeld r.id owner)
  setServer { s with runs }
  return r

def close : Work Unit := do
  if (← data).isOpen then
    let s ← current
    setServer { s with closed := s.closed + 1 }
    tryCatch call fun _ => pure ()
    setData { ← data with isOpen := false }

def answer : (call : StoreCall) → Work call.Answer
  | .saveFunnel f => saveFunnel f
  | .getFunnel id => getFunnel id
  | .listFunnels => listFunnels
  | .deleteFunnel id => deleteFunnel id
  | .activeFunnels trigger => activeFunnels trigger
  | .lockFunnel id holder now => lockFunnel id holder now
  | .unlockFunnel id holder => unlockFunnel id holder
  | .createRun r => createRun r
  | .getRun id => getRun id
  | .listRuns filter => listRuns filter
  | .dueRuns now limit => dueRuns now limit
  | .acquireRun id owner now => acquireRun id owner now
  | .saveRun r owner => writeRun r owner []
  | .releaseRun r owner => writeRun r owner unlocked
  | .close => close

end Database

end FunnelFlow
