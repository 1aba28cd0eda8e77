import FunnelFlow.Store.Contract

/-!
The store that keeps everything in memory. Funnels and runs are kept in their written form, and
locks beside them.
-/

namespace FunnelFlow

structure Lock where
  holder : String
  acquiredAt : Instant
  deriving DecidableEq, Repr

def Lock.holds (lock : Lock) (ttl : Span) (now : Instant) : Except Fault Bool := do
  let runsOut ← Fault.ofSpan (lock.acquiredAt.plus ttl)
  if runsOut.comparable now then .ok (now.lt runsOut) else .error .mixedZones

structure MemoryStore where
  runTtl : Span
  funnelTtl : Span
  funnels : Table Value
  runs : Table Value
  runLocks : Table Lock
  funnelLocks : Table Lock
  deriving Repr

namespace Run

/-- Whether a run is to be stepped at `now`. A run that waits without a time is never due. -/
def isDue (r : Run) (now : Instant) : Except Fault Bool :=
  match r.status with
  | .waiting => match r.resumeAt with
    | none => .ok false
    | some t => hasPassed t
  | .running => match r.nextAttemptAt with
    | none => .ok true
    | some t => hasPassed t
  | _ => .ok false
where
  hasPassed (t : Instant) : Except Fault Bool :=
    if now.comparable t then .ok (t.le now) else .error .mixedZones

end Run

namespace RunFilter

def matchesRun (filter : RunFilter) (r : Run) : Bool :=
  filter.funnelId.all (· == r.funnelId) && filter.contactId.all (· == r.contactId) &&
    filter.status.all (· == r.status.name)

end RunFilter

namespace MemoryStore

open StoreM

def empty (runTtl funnelTtl : Span) : MemoryStore := ⟨runTtl, funnelTtl, [], [], [], []⟩

abbrev Work := StoreM MemoryStore

def readDocument (document : Value) : Work Funnel := readFunnel (Funnel.ofDocument document .null)

def saveFunnel (f : Funnel) : Work Funnel := do
  let document := Value.object f.toDocument
  let m ← data
  setData { m with funnels := m.funnels.set f.id document }
  readDocument document

def getFunnel (id : String) : Work (Option Funnel) := do
  match (← data).funnels.get? id with
  | none => return none
  | some document => return some (← readDocument document)

def listFunnels : Work (List Funnel) := do
  (← data).funnels.mapM fun (_, document) => readDocument document

def deleteFunnel (id : String) : Work Bool := do
  let m ← data
  setData { m with funnelLocks := m.funnelLocks.erase id, funnels := m.funnels.erase id }
  return m.funnels.has id

/-- Whether a document is an active funnel of the trigger. The name of the trigger is looked at
only for active funnels. -/
def isActiveFor (trigger : String) (document : Value) : Except Fault Bool := do
  let doc ← document.fields?
  if (doc.get "isActive").isFilled then
    let t ← Trigger.ofName trigger
    .ok (doc.get "trigger" == .text t.name)
  else .ok false

def activeFunnels (trigger : String) : Work (List Funnel) := do
  let found ← (← data).funnels.mapM fun (_, document) => do
    if ← liftExcept (isActiveFor trigger document) then return some (← readDocument document)
    else return none
  return found.filterMap id

def lockFunnel (id holder : String) (now : Instant) : Work Bool := do
  let m ← data
  let current := m.funnelLocks.get? id
  if let some lock := current then
    if lock.holder ≠ holder then
      if ← liftExcept (lock.holds m.funnelTtl now) then
        throw (.funnelLocked id (some lock.holder))
  setData { m with funnelLocks := m.funnelLocks.set id ⟨holder, now⟩ }
  return !(current.any (·.holder == holder))

def unlockFunnel (id holder : String) : Work Bool := do
  let m ← data
  if (m.funnelLocks.get? id).any (·.holder == holder) then
    setData { m with funnelLocks := m.funnelLocks.erase id }
    return true
  else return false

def readRunDocument (document : Value) : Work Run := readRun (Run.ofDocument document)

def writeRun (r : Run) : Work Run := do
  let document := Value.object r.toDocument
  let m ← data
  setData { m with runs := m.runs.set r.id document }
  readRunDocument document

def getRun (id : String) : Work (Option Run) := do
  match (← data).runs.get? id with
  | none => return none
  | some document => return some (← readRunDocument document)

def listRuns (filter : RunFilter) : Work (List Run) := do
  let runs ← (← data).runs.mapM fun (_, document) => readRunDocument document
  return runs.filter filter.matchesRun

def isLocked (m : MemoryStore) (id : String) (now : Instant) : Except Fault Bool :=
  match m.runLocks.get? id with
  | none => .ok false
  | some lock => lock.holds m.runTtl now

/-- Goes through the unlocked runs and stops after one at which the limit is reached, so that at
least one is looked at. -/
def dueFrom (m : MemoryStore) (now : Instant) (limit : Int) (found : List String) :
    Table Value → Work (List String)
  | [] => return found
  | (id, document) :: rest => do
    if ← liftExcept (m.isLocked id now) then m.dueFrom now limit found rest
    else
      let run ← readRunDocument document
      let found := if ← liftExcept (run.isDue now) then found ++ [id] else found
      if limit ≤ found.length then return found else m.dueFrom now limit found rest

def dueRuns (now : Instant) (limit : Int) : Work (List String) := do
  let m ← data
  m.dueFrom now limit [] m.runs

def acquireRun (id owner : String) (now : Instant) : Work Run := do
  let m ← data
  match m.runs.get? id with
  | none => throw (.runNotFound id)
  | some document =>
    if ← liftExcept (m.isLocked id now) then throw (.runLocked id)
    setData { m with runLocks := m.runLocks.set id ⟨owner, now⟩ }
    readRunDocument document

def saveRun (r : Run) (owner : String) : Work Run := do
  if ((← data).runLocks.get? r.id).any (·.holder == owner) then writeRun r
  else throw (.runNotHeld r.id owner)

def releaseRun (r : Run) (owner : String) : Work Run := do
  let saved ← saveRun r owner
  let m ← data
  setData { m with runLocks := m.runLocks.erase r.id }
  return saved

def answer : (call : StoreCall) → Work call.Answer
  | .saveFunnel f => saveFunnel f
  | .getFunnel id => getFunnel id
  | .listFunnels => listFunnels
  | .deleteFunnel id => deleteFunnel id
  | .activeFunnels trigger => activeFunnels trigger
  | .lockFunnel id holder now => lockFunnel id holder now
  | .unlockFunnel id holder => unlockFunnel id holder
  | .createRun r => writeRun r
  | .getRun id => getRun id
  | .listRuns filter => listRuns filter
  | .dueRuns now limit => dueRuns now limit
  | .acquireRun id owner now => acquireRun id owner now
  | .saveRun r owner => saveRun r owner
  | .releaseRun r owner => releaseRun r owner
  | .close => pure ()

end MemoryStore

end FunnelFlow
