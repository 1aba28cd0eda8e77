import FunnelFlow.Funnel.Basic

namespace FunnelFlow

inductive Violation where
  | emptyFunnel
  | duplicateNodeId (id : String)
  | noRoot
  | multipleRoots (roots : List String)
  /-- The only node without incoming references is not the start node. -/
  | startMismatch (root start : String)
  /-- The start node is no node of the funnel. -/
  | startMissing (start : String)
  | danglingEdge (id : String) (label : EdgeLabel) (target : String)
  | unreachable (id start : String)
  | missingSubject (id : String)
  | missingTemplate (id : String)
  | hoursNotPositive (id : String)
  | missingTarget (id : String)
  | missingOperator (id : String)
  | unsupportedOperator (id operator : String)
  | missingValue (id : String)
  | incompleteBranch (id : String) (unset : EdgeLabel)
  | cycle (id : String) (label : EdgeLabel) (target : String)
  deriving DecidableEq, Repr

namespace Violation

inductive Kind where
  | emptyFunnel
  | duplicateNodeId
  | noRoot
  | multipleRoots
  | startMismatch
  | danglingEdge
  | unreachable
  | missingField
  | incompleteBranch
  | cycle
  deriving DecidableEq, Repr

def Kind.name : Kind → String
  | .emptyFunnel => "EMPTY_FUNNEL"
  | .duplicateNodeId => "DUPLICATE_NODE_ID"
  | .noRoot => "NO_ROOT"
  | .multipleRoots => "MULTIPLE_ROOTS"
  | .startMismatch => "START_MISMATCH"
  | .danglingEdge => "DANGLING_EDGE"
  | .unreachable => "UNREACHABLE"
  | .missingField => "MISSING_FIELD"
  | .incompleteBranch => "INCOMPLETE_BRANCH"
  | .cycle => "CYCLE"

def kind : Violation → Kind
  | .emptyFunnel => .emptyFunnel
  | .duplicateNodeId _ => .duplicateNodeId
  | .noRoot => .noRoot
  | .multipleRoots _ => .multipleRoots
  | .startMismatch .. | .startMissing _ => .startMismatch
  | .danglingEdge .. => .danglingEdge
  | .unreachable .. => .unreachable
  | .missingSubject _ | .missingTemplate _ | .hoursNotPositive _ | .missingTarget _
  | .missingOperator _ | .unsupportedOperator .. | .missingValue _ => .missingField
  | .incompleteBranch .. => .incompleteBranch
  | .cycle .. => .cycle

def nodeId? : Violation → Option String
  | .emptyFunnel | .noRoot | .multipleRoots _ | .startMissing _ => none
  | .startMismatch root _ => some root
  | .duplicateNodeId id | .danglingEdge id .. | .unreachable id _ | .missingSubject id
  | .missingTemplate id | .hoursNotPositive id | .missingTarget id | .missingOperator id
  | .unsupportedOperator id _ | .missingValue id | .incompleteBranch id _ | .cycle id .. => some id

def message : Violation → String
  | .emptyFunnel => "Funnel has no nodes"
  | .duplicateNodeId id => s!"Node id '{id}' is used by more than one node"
  | .noRoot => "Every node has an incoming edge, the funnel has no start node"
  | .multipleRoots roots =>
    s!"Funnel has {roots.length} nodes without incoming edges: " ++ ", ".intercalate roots
  | .startMismatch root start =>
    s!"Start node is '{start}' but the node without incoming edges is '{root}'"
  | .startMissing start => s!"Start node '{start}' does not exist in the funnel"
  | .danglingEdge id label target =>
    s!"Edge '{label.name}' of node '{id}' points to missing node '{target}'"
  | .unreachable id start => s!"Node '{id}' cannot be reached from start node '{start}'"
  | .missingSubject id => s!"Email node '{id}' requires a subject"
  | .missingTemplate id => s!"WhatsApp node '{id}' requires a template"
  | .hoursNotPositive id => s!"Delay node '{id}' requires a positive number of hours"
  | .missingTarget id => s!"Condition '{id}' requires a target"
  | .missingOperator id => s!"Condition '{id}' requires an operator"
  | .unsupportedOperator id operator => s!"Condition '{id}' uses unsupported operator '{operator}'"
  | .missingValue id => s!"Condition '{id}' requires a value"
  | .incompleteBranch id unset =>
    s!"Condition '{id}' has its {unset.name} branch unset, set both branches or neither"
  | .cycle id label target => s!"Edge '{label.name}' of node '{id}' loops back to '{target}'"

end Violation

end FunnelFlow
