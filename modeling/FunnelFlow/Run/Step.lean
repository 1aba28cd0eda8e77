import FunnelFlow.Condition
import FunnelFlow.Run.Basic
import FunnelFlow.Run.Delivery

/-!
One step of a run. A step looks at the current node only: a condition branches, a delay parks the
run, a message is sent and the run goes on when it was accepted. A step never waits: what has to
be waited for is written into the run.
-/

namespace FunnelFlow

/-- How often a message is tried, and how long the run pauses after the first failure; each later
pause is twice as long. -/
structure RetryPolicy where
  maxAttempts : Int
  backoffSeconds : Int
  deriving DecidableEq, Repr

structure StepResult where
  run : Run
  sent : Option SendRequest
  deriving DecidableEq, Repr

namespace Action

def content : Action → Fields
  | .email subject content _ => [("subject", .text subject), ("content", .text content)]
  | .whatsApp templateId templateTitle sendTime _ =>
    [("templateId", .text templateId), ("templateTitle", .text templateTitle),
      ("sendTime", .text sendTime)]
  | _ => []

end Action

namespace Run

/-- Whether an instant has come. One that is not set has. -/
def hasCome (now : Instant) : Option Instant → Except Fault Bool
  | none => .ok true
  | some t => if now.comparable t then .ok (t.le now) else .error .mixedZones

def isEligible (r : Run) (now : Instant) : Except Fault Bool :=
  if r.isTerminal then .ok false
  else if r.status = .waiting then hasCome now r.resumeAt
  else hasCome now r.nextAttemptAt

def resume (r : Run) (now : Instant) : Run :=
  if r.status = .waiting then { r with updatedAt := some now, status := .running, resumeAt := none }
  else { r with updatedAt := some now }

/-- Leaves the current node for the next one; without one the run is completed. -/
def advance (r : Run) : Option String → Run
  | none => { r with attempts := 0, nextAttemptAt := none, status := .completed }
  | some target =>
    { r with attempts := 0, nextAttemptAt := none, currentNodeId := target, status := .running }

/-- The node is gone: the definition changed while the run was on its way. -/
def dangle (r : Run) (now : Instant) (funnelId : String) : Run :=
  { r.record now .danglingEdge (some s!"Node {r.currentNodeId} not found in funnel {funnelId}") with
    status := .failed }

def branch (r : Run) (now : Instant) (result : Bool) (whenTrue whenFalse : Option String) : Run :=
  (r.record now (if result then .branchTrue else .branchFalse) none).advance
    (if result then whenTrue else whenFalse)

/-- Parks the run at the node after a delay. A delay that nothing follows completes it. -/
def delay (r : Run) (now : Instant) (hours : Int) : Option String → Except Fault Run
  | none => .ok ((r.record now .completed (some "Delay has no successor")).advance none)
  | some next =>
    match (Span.ofHours hours).bind now.plus with
    | .ok resumeAt => .ok { r.record now .waiting none with
        currentNodeId := next, status := .waiting, resumeAt := some resumeAt, attempts := 0,
        nextAttemptAt := none }
    | .error e => .error (.span e)

/-- Counts a failed attempt: another one is scheduled unless the failure lasts or the attempts are
used up. -/
def failAttempt (policy : RetryPolicy) (r : Run) (now : Instant) (kind : FailureKind)
    (reason : String) : Except Fault Run :=
  let attempt := r.attempts + 1
  let counted := { r with attempts := attempt }
  if kind = .permanent ∨ policy.maxAttempts ≤ attempt then
    .ok { counted.record now .dispatchFailed (some reason) with
      status := .failed, nextAttemptAt := none }
  else
    match (Span.ofDoubledSeconds policy.backoffSeconds (attempt - 1)).bind now.plus with
    | .ok at' => .ok { counted.record now .retry (some reason) with nextAttemptAt := some at' }
    | .error e => .error (.span e)

/-- What a step comes to before anything is sent. -/
inductive Move where
  /-- The step is done. -/
  | settled (run : Run)
  /-- A message is to be sent; `run` is the run at its node and `next` where it goes after it. -/
  | sending (run : Run) (request : SendRequest) (next : Option String)

def requestAt (r : Run) (funnelId : String) (node : Node) : SendRequest where
  channel := node.kind.name
  contactId := r.contactId
  content := node.action.content
  funnelId := funnelId
  runId := r.id
  nodeId := node.id
  attempt := r.attempts + 1
  payload := r.payload

def moveAt (r : Run) (funnelId : String) (node : Node) (now : Instant) (attributes : Fields) :
    Except Fault Move :=
  match node.action with
  | .condition test whenTrue whenFalse =>
    (test.holds attributes).map fun result => .settled (r.branch now result whenTrue whenFalse)
  | .delay hours next => (r.delay now hours next).map .settled
  | .email _ _ next | .whatsApp _ _ _ next => .ok (.sending r (r.requestAt funnelId node) next)

def move (r : Run) (funnel : Funnel) (now : Instant) (attributes : Fields) :
    Except Fault Move := do
  if ← r.isEligible now then
    let resumed := r.resume now
    match funnel.node? resumed.currentNodeId with
    | none => .ok (.settled (resumed.dangle now funnel.id))
    | some node => resumed.moveAt funnel.id node now attributes
  else .ok (.settled r)

def settle (policy : RetryPolicy) (r : Run) (now : Instant) (next : Option String) :
    Delivery → Except Fault Run
  | .accepted => .ok ((r.record now .sent none).advance next)
  | .failed kind reason => r.failAttempt policy now kind reason

def step (policy : RetryPolicy) (r : Run) (funnel : Funnel) (now : Instant) (attributes : Fields)
    (deliver : SendRequest → Delivery) : Except Fault StepResult := do
  match ← r.move funnel now attributes with
  | .settled run => .ok ⟨run, none⟩
  | .sending run request next =>
    .ok ⟨← run.settle policy now next (deliver request), some request⟩

/-- The step at a condition whose attributes could not be read: a failed attempt. -/
def attributesUnavailable (policy : RetryPolicy) (r : Run) (now : Instant) (reason : String) :
    Except Fault Run := do
  if ← r.isEligible now then (r.resume now).failAttempt policy now .transient reason
  else .ok r

/-- The same at the node that is given, which has to be one if the run is eligible. -/
def attributesUnavailableAt (policy : RetryPolicy) (r : Run) (node? : Option Node) (now : Instant)
    (reason : String) : Except Fault Run := do
  let failed ← r.attributesUnavailable policy now reason
  if (← r.isEligible now) && node?.isNone then .error (.noSuchPart "NoneType" "type")
  else .ok failed

end Run

end FunnelFlow
