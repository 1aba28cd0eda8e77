import FunnelFlow.Value.Coerce

namespace FunnelFlow

structure SendRequest where
  channel : String
  contactId : String
  content : Fields
  funnelId : String
  runId : String
  nodeId : String
  /-- Counts the attempts at this node from one. -/
  attempt : Int
  payload : Fields
  deriving DecidableEq, Repr

namespace SendRequest

def read (fields : Fields) : Checked SendRequest :=
  SendRequest.mk <$> Coerce.required fields "channel" Coerce.text
    <*> Coerce.required fields "contactId" Coerce.text
    <*> Coerce.withDefault fields "content" [] Coerce.object
    <*> Coerce.required fields "funnelId" Coerce.text
    <*> Coerce.required fields "runId" Coerce.text
    <*> Coerce.required fields "nodeId" Coerce.text
    <*> Coerce.withDefault fields "attempt" 1 Coerce.integer
    <*> Coerce.withDefault fields "payload" [] Coerce.object

def toValue (r : SendRequest) : Value :=
  .object [("channel", .text r.channel), ("contactId", .text r.contactId),
    ("content", .object r.content), ("funnelId", .text r.funnelId), ("runId", .text r.runId),
    ("nodeId", .text r.nodeId), ("attempt", .int r.attempt), ("payload", .object r.payload)]

end SendRequest

inductive FailureKind where
  | transient
  | permanent
  deriving DecidableEq, Repr

def FailureKind.name : FailureKind → String
  | .transient => "TRANSIENT_DISPATCH"
  | .permanent => "PERMANENT_DISPATCH"

inductive Delivery where
  | accepted
  | failed (kind : FailureKind) (reason : String)
  deriving DecidableEq, Repr

end FunnelFlow
