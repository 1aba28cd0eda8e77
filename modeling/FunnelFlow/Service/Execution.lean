import FunnelFlow.Run.Step
import FunnelFlow.Service.ContactBook
import FunnelFlow.Service.Messenger

/-!
Executes stored runs. An execution holds the lock of its run from the first read to the last write
and writes the run after every step, so that what was done survives whatever happens next.
-/

namespace FunnelFlow

/-- What executions need to know: the addresses of the peers, how messages are repeated, and the
name of the worker under which runs are locked. -/
structure Execution where
  channels : Channels
  contacts : String
  policy : RetryPolicy
  worker : String
  deriving Repr

namespace Execution

open Activity

/-- Hands a message over. Whatever goes wrong on the way is a failure that may pass. -/
def deliver (x : Execution) (r : SendRequest) : Activity Delivery :=
  (Messenger.send x.channels r.channel r.contactId r.content (some r)).tryCatch fun e =>
    pure (.failed .transient ("Transport error: " ++ e.message))

def step (x : Execution) (r : Run) (f : Funnel) (now : Instant) (attributes : Fields) :
    Activity StepResult := do
  match ← finish (r.move f now attributes) with
  | .settled run => return ⟨run, none⟩
  | .sending run message next =>
    let delivery ← x.deliver message
    let run ← finish (run.settle x.policy now next delivery)
    return ⟨run, some message⟩

def atCondition (r : Run) (f : Funnel) : Bool :=
  (f.node? r.currentNodeId).any (·.kind == .condition)

def attributesFor (x : Execution) (r : Run) (f : Funnel) : Activity (Except Fault Fields) :=
  if atCondition r f then do
    return (← (ContactBook.attributes x.contacts r.contactId).attempt).map Entries.fields
  else pure (.ok [])

def withoutAttributes (x : Execution) (r : Run) (now : Instant) (e : Fault) : Except Fault Run :=
  r.attributesUnavailable x.policy now ("Contact attributes unavailable: " ++ e.message)

/-- Steps a run while it can go on, at most `bound` times, and writes it after each step. -/
def stepAll (x : Execution) (f : Funnel) (owner : String) (now : Instant) :
    Nat → Run → Activity Run
  | 0, r => return r
  | bound + 1, r => do
    if !(← finish (r.isEligible now)) then return r
    match ← x.attributesFor r f with
    | .error e =>
      let failed ← finish (x.withoutAttributes r now e)
      store (.saveRun failed owner)
    | .ok attributes =>
      let stepped ← x.step r f now attributes
      let saved : Run ← store (.saveRun stepped.run owner)
      if saved.status = .running ∧ saved.nextAttemptAt = none then stepAll x f owner now bound saved
      else return saved

def orphan (r : Run) (now : Instant) : Run :=
  if r.isTerminal then r
  else { r.record now .funnelNotFound (some s!"Funnel {r.funnelId} not found") with
    status := .failed, updatedAt := some now }

/-- Drives a locked run until it waits, is to be tried again, or ends. A run enters a node at most
once in an execution, so one step more than there are nodes is enough. -/
def drive (x : Execution) (r : Run) (owner : String) (now : Instant) : Activity Run := do
  let found : Option Funnel ← store (.getFunnel r.funnelId)
  match found with
  | none => return orphan r now
  | some f => x.stepAll f owner now (f.nodes.length + 1) r

/-- Gives the lock of a run back without undoing what was written under it. -/
def releaseLatest (r : Run) (owner : String) : Activity Unit := do
  let latest : Option Run ← store (.getRun r.id)
  let _ : Run ← store (.releaseRun (latest.getD r) owner)

def execute (x : Execution) (id : String) (now? : Option Instant) : Activity Run := do
  let now ← instantOr now?
  let owner := x.worker ++ ":" ++ (← token)
  let r : Run ← store (.acquireRun id owner now)
  match ← (x.drive r owner now).attempt with
  | .ok driven => store (.releaseRun driven owner)
  | .error e =>
    releaseLatest r owner
    throw (if e.isRefusal then e else .failedWhile (.executingRun id) e)

def cancelled (r : Run) (now : Instant) : Run :=
  if r.isTerminal then r
  else { r.record now .cancelled none with
    status := .failed, resumeAt := none, nextAttemptAt := none, updatedAt := some now }

def cancel (x : Execution) (id : String) (now? : Option Instant) : Activity Run := do
  let now ← instantOr now?
  let owner := x.worker ++ ":cancel:" ++ (← token)
  let r : Run ← store (.acquireRun id owner now)
  store (.releaseRun (cancelled r now) owner)

def get (id : String) : Activity Run := do
  let found : Option Run ← store (.getRun id)
  match found with
  | some r => return r
  | none => throw (.runNotFound id)

def list (filter : RunFilter) : Activity (List Run) := store (.listRuns filter)

/-- The runs of a pass: those that were asked for, then those due that are not among them. -/
def passOrder (asked due : List String) : List String :=
  due.foldl (fun ids id => if ids.contains id then ids else ids ++ [id]) asked

/-- Executes runs one after the other. One that fails does not keep the others from going on. -/
def executeAll (x : Execution) (now : Instant) : List String → Activity (List Run)
  | [] => return []
  | id :: ids => do
    let result ← (x.execute id (some now)).attempt
    let rest ← executeAll x now ids
    match result with
    | .ok r => return r :: rest
    | .error _ => return rest

def pass (x : Execution) (batchSize : Int) (now? : Option Instant) : Activity (List Run) := do
  let now ← instantOr now?
  let asked ← drain
  let due : List String ← store (.dueRuns now batchSize)
  x.executeAll now (passOrder asked due)

end Execution

end FunnelFlow
