import FunnelFlow.Funnel.Graph
import FunnelFlow.Funnel.Violation
import FunnelFlow.Text.Blank

/-!
What a funnel must satisfy before it may be active. The checks run in a fixed order and each goes
through the nodes in funnel order, so a funnel has one list of violations.
-/

namespace FunnelFlow

def Funnel.duplicates (seen : List String) : List String → List Violation
  | [] => []
  | id :: ids =>
    let rest := duplicates (id :: seen) ids
    if seen.contains id then .duplicateNodeId id :: rest else rest

namespace Funnel

def startMissing (f : Funnel) : List Violation :=
  if f.hasNode f.startNodeId then [] else [.startMissing f.startNodeId]

def rootViolations (f : Funnel) : List Violation :=
  match f.roots with
  | [] => .noRoot :: f.startMissing
  | [root] =>
    if root = f.startNodeId then f.startMissing else [.startMismatch root f.startNodeId]
  | roots => .multipleRoots roots :: f.startMissing

def danglingViolations (f : Funnel) : List Violation :=
  f.nodes.flatMap fun n => n.edges.filterMap fun e =>
    match e.target with
    | some target => if f.hasNode target then none else some (.danglingEdge n.id e.label target)
    | none => none

def reachabilityViolations (f : Funnel) : List Violation :=
  if f.hasNode f.startNodeId then
    let reached := f.reachedFrom f.startNodeId
    (f.nodeIds.filter fun id => !reached.contains id).map fun id => .unreachable id f.startNodeId
  else []

def cycleViolations (f : Funnel) : List Violation :=
  f.backEdges.map fun e => .cycle e.source e.label e.target

end Funnel

namespace Test

def violations (id : String) (t : Test) : List Violation :=
  (if Text.allBlank t.target then [.missingTarget id] else []) ++
    (if Text.allBlank t.operator then [.missingOperator id]
      else if (Comparison.ofName? t.operator).isNone then [.unsupportedOperator id t.operator]
      else []) ++
    (if Text.allBlank t.value then [.missingValue id] else [])

end Test

namespace Node

/-- The fields that a node lacks, and a branch that is open while the other is not. -/
def violations (n : Node) : List Violation :=
  match n.action with
  | .email subject _ _ => if Text.allBlank subject then [.missingSubject n.id] else []
  | .whatsApp templateId _ _ _ => if Text.allBlank templateId then [.missingTemplate n.id] else []
  | .delay hours _ => if hours ≤ 0 then [.hoursNotPositive n.id] else []
  | .condition test whenTrue whenFalse =>
    test.violations n.id ++ match whenTrue, whenFalse with
      | none, some _ => [.incompleteBranch n.id .whenTrue]
      | some _, none => [.incompleteBranch n.id .whenFalse]
      | _, _ => []

end Node

namespace Funnel

def violations (f : Funnel) : List Violation :=
  if f.nodes.isEmpty then [.emptyFunnel]
  else duplicates [] f.nodeIds ++ f.rootViolations ++ f.danglingViolations ++
    f.reachabilityViolations ++ f.nodes.flatMap Node.violations ++ f.cycleViolations

/-- A blank start becomes the first root, or the first node when every node has an incoming
edge. -/
def inferStart (f : Funnel) : Funnel :=
  match f.startNodeId, f.nodes with
  | "", first :: _ => { f with startNodeId := f.roots.headD first.id }
  | _, _ => f

end Funnel

end FunnelFlow
