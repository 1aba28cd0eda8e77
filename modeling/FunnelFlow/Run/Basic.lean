import FunnelFlow.Calendar.Instant
import FunnelFlow.Value.Basic

namespace FunnelFlow

inductive RunStatus where
  | running
  | waiting
  | completed
  | failed
  deriving DecidableEq, Repr, Inhabited

namespace RunStatus

def name : RunStatus → String
  | .running => "RUNNING"
  | .waiting => "WAITING"
  | .completed => "COMPLETED"
  | .failed => "FAILED"

def ofName? : String → Option RunStatus
  | "RUNNING" => some .running
  | "WAITING" => some .waiting
  | "COMPLETED" => some .completed
  | "FAILED" => some .failed
  | _ => none

end RunStatus

inductive Outcome where
  | sent
  | retry
  | dispatchFailed
  | waiting
  | branchTrue
  | branchFalse
  | danglingEdge
  | funnelNotFound
  | cancelled
  | completed
  deriving DecidableEq, Repr, Inhabited

namespace Outcome

def name : Outcome → String
  | .sent => "SENT"
  | .retry => "RETRY"
  | .dispatchFailed => "DISPATCH_FAILED"
  | .waiting => "WAITING"
  | .branchTrue => "BRANCH_TRUE"
  | .branchFalse => "BRANCH_FALSE"
  | .danglingEdge => "DANGLING_EDGE"
  | .funnelNotFound => "FUNNEL_NOT_FOUND"
  | .cancelled => "CANCELLED"
  | .completed => "COMPLETED"

def ofName? : String → Option Outcome
  | "SENT" => some .sent
  | "RETRY" => some .retry
  | "DISPATCH_FAILED" => some .dispatchFailed
  | "WAITING" => some .waiting
  | "BRANCH_TRUE" => some .branchTrue
  | "BRANCH_FALSE" => some .branchFalse
  | "DANGLING_EDGE" => some .danglingEdge
  | "FUNNEL_NOT_FOUND" => some .funnelNotFound
  | "CANCELLED" => some .cancelled
  | "COMPLETED" => some .completed
  | _ => none

end Outcome

structure HistoryEntry where
  nodeId : Option String
  enteredAt : Instant
  outcome : Outcome
  reason : Option String
  deriving DecidableEq, Repr, Inhabited

/-- `resumeAt` is set while the run waits, `nextAttemptAt` while a failed message is to be sent
again; `attempts` counts the failures at the current node. -/
structure Run where
  id : String
  funnelId : String
  contactId : String
  currentNodeId : String
  status : RunStatus
  resumeAt : Option Instant
  attempts : Int
  nextAttemptAt : Option Instant
  payload : Fields
  history : List HistoryEntry
  createdAt : Option Instant
  updatedAt : Option Instant
  deriving DecidableEq, Repr, Inhabited

namespace Run

def isTerminal (r : Run) : Bool := r.status == .completed || r.status == .failed

def record (r : Run) (now : Instant) (outcome : Outcome) (reason : Option String) : Run :=
  { r with history := r.history ++ [⟨some r.currentNodeId, now, outcome, reason⟩] }

end Run

end FunnelFlow
