import FunnelFlow.Store.Memory

/-!
The store in memory hands out copies of the runs that it keeps, and a copy is made level by level. A
run that is nested deeper than the stack of the machine reaches cannot be copied: the call that
copies it fails then, after the changes that it makes before. Funnels are never nested deep.
-/

namespace FunnelFlow

/-- The call that makes the changes which come before the copy. A run whose release fails stays
locked. -/
def StoreCall.beforeCopy : StoreCall → StoreCall
  | .releaseRun r owner => .saveRun r owner
  | call => call

namespace MemoryStore

def copied (m : MemoryStore) : StoreCall → List Value
  | .createRun r | .saveRun r _ | .releaseRun r _ => [.object r.toDocument]
  | .getRun id | .acquireRun id _ _ => (m.runs.get? id).toList
  | .listRuns _ => m.runs.map (·.2)
  | _ => []

def copiesBeyond (m : MemoryStore) (levels : Nat) (call : StoreCall) : Bool :=
  (m.copied call).any (levels < ·.height)

def answerUncopied (call : StoreCall) : Work call.Answer := do
  let _ ← answer call.beforeCopy
  throw .tooDeep

/-- Answers a call when runs of at most so many levels are copied. -/
def answerWithin (levels : Nat) (call : StoreCall) : Work call.Answer := do
  if (← StoreM.data).copiesBeyond levels call then answerUncopied call else answer call

end MemoryStore

end FunnelFlow
