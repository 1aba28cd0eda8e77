import FunnelFlow.Calendar.Instant
import FunnelFlow.Number.Double

namespace FunnelFlow

inductive Trigger where
  | leadSubscribed
  | newPostPublished
  deriving DecidableEq, Repr, Inhabited

namespace Trigger

def name : Trigger → String
  | .leadSubscribed => "lead_subscribed"
  | .newPostPublished => "new_post_published"

def ofName? : String → Option Trigger
  | "lead_subscribed" => some .leadSubscribed
  | "new_post_published" => some .newPostPublished
  | _ => none

end Trigger

inductive Comparison where
  | equals
  | notEquals
  | greaterThan
  | lessThan
  | contains
  deriving DecidableEq, Repr, Inhabited

namespace Comparison

def name : Comparison → String
  | .equals => "equals"
  | .notEquals => "not_equals"
  | .greaterThan => "greater_than"
  | .lessThan => "less_than"
  | .contains => "contains"

def ofName? : String → Option Comparison
  | "equals" => some .equals
  | "not_equals" => some .notEquals
  | "greater_than" => some .greaterThan
  | "less_than" => some .lessThan
  | "contains" => some .contains
  | _ => none

end Comparison

/-- Where the editor draws a node. A coordinate that was left out is zero. -/
structure Position where
  x : Option Double
  y : Option Double
  deriving DecidableEq, Repr, Inhabited

namespace Position

def number (coordinate : Option Double) : Double := coordinate.getD Double.zero

def same (p q : Position) : Bool :=
  (number p.x).same (number q.x) && (number p.y).same (number q.y)

end Position

inductive NodeKind where
  | email
  | whatsApp
  | delay
  | condition
  deriving DecidableEq, Repr, Inhabited

namespace NodeKind

def name : NodeKind → String
  | .email => "EMAIL"
  | .whatsApp => "WHATSAPP"
  | .delay => "DELAY"
  | .condition => "CONDITION"

def ofName? : String → Option NodeKind
  | "EMAIL" => some .email
  | "WHATSAPP" => some .whatsApp
  | "DELAY" => some .delay
  | "CONDITION" => some .condition
  | _ => none

end NodeKind

/-- What a condition compares. The comparison is free text until the funnel is complete. -/
structure Test where
  target : String
  operator : String
  value : String
  deriving DecidableEq, Repr, Inhabited

inductive Action where
  | email (subject content : String) (next : Option String)
  | whatsApp (templateId templateTitle sendTime : String) (next : Option String)
  | delay (hours : Int) (next : Option String)
  | condition (test : Test) (whenTrue whenFalse : Option String)
  deriving DecidableEq, Repr, Inhabited

structure Node where
  id : String
  position : Option Position
  label : Option String
  action : Action
  deriving DecidableEq, Repr, Inhabited

inductive EdgeLabel where
  | next
  | whenTrue
  | whenFalse
  deriving DecidableEq, Repr, Inhabited

def EdgeLabel.name : EdgeLabel → String
  | .next => "next"
  | .whenTrue => "true"
  | .whenFalse => "false"

/-- A labelled reference of a node; an open one leads nowhere and ends the run. -/
structure Edge where
  label : EdgeLabel
  target : Option String
  deriving DecidableEq, Repr, Inhabited

namespace Action

def kind : Action → NodeKind
  | .email .. => .email
  | .whatsApp .. => .whatsApp
  | .delay .. => .delay
  | .condition .. => .condition

def edges : Action → List Edge
  | .email _ _ next | .whatsApp _ _ _ next | .delay _ next => [⟨.next, next⟩]
  | .condition _ whenTrue whenFalse => [⟨.whenTrue, whenTrue⟩, ⟨.whenFalse, whenFalse⟩]

end Action

namespace Node

def kind (n : Node) : NodeKind := n.action.kind
def edges (n : Node) : List Edge := n.action.edges

def targets (n : Node) : List String := n.edges.filterMap (·.target)

def same (m n : Node) : Bool :=
  m.id == n.id && m.label == n.label && m.action == n.action &&
    match m.position, n.position with
    | some p, some q => p.same q
    | none, none => true
    | _, _ => false

end Node

structure Funnel where
  id : String
  name : String
  trigger : Trigger
  isActive : Bool
  startNodeId : String
  nodes : List Node
  createdAt : Option Instant
  updatedAt : Option Instant
  deriving DecidableEq, Repr, Inhabited

namespace Funnel

def node? (f : Funnel) (id : String) : Option Node := f.nodes.find? (·.id == id)

def nodeIds (f : Funnel) : List String := f.nodes.map (·.id)

def hasNode (f : Funnel) (id : String) : Bool := (f.node? id).isSome

def sameNodes : List Node → List Node → Bool
  | [], [] => true
  | m :: ms, n :: ns => m.same n && sameNodes ms ns
  | _, _ => false

/-- Whether two funnels are the same, positions being compared as points. -/
def same (f g : Funnel) : Bool :=
  f.id == g.id && f.name == g.name && f.trigger == g.trigger && f.isActive == g.isActive &&
    f.startNodeId == g.startNodeId && sameNodes f.nodes g.nodes &&
    f.createdAt == g.createdAt && f.updatedAt == g.updatedAt

end Funnel

end FunnelFlow
