import FunnelFlow.Activity

namespace FunnelFlow

structure Event where
  trigger : Trigger
  contactId : String
  payload : Fields
  /-- Tells repetitions apart for whoever sends the events. -/
  key : Option String
  deriving DecidableEq, Repr

namespace Event

open Activity

def read (fields : Fields) : Checked Event :=
  Event.mk <$> Coerce.required fields "triggerKind" (Coerce.choice Trigger.ofName?)
    <*> Coerce.required fields "contactId" Coerce.text
    <*> Coerce.withDefault fields "payload" [] Coerce.object
    <*> Coerce.withDefault fields "idempotencyKey" none (Coerce.optional Coerce.text)

def start (e : Event) (f : Funnel) (id : String) (now : Instant) : Run where
  id := id
  funnelId := f.id
  contactId := e.contactId
  currentNodeId := f.startNodeId
  status := .running
  resumeAt := none
  attempts := 0
  nextAttemptAt := none
  payload := e.payload
  history := []
  createdAt := some now
  updatedAt := some now

/-- Starts a run on each of some funnels, and asks for its execution if anyone is there to do
it. -/
def startAll (e : Event) (executed : Bool) (now : Instant) : List Funnel → Activity (List Run)
  | [] => return []
  | f :: fs => do
    let id ← request .runId
    let created : Run ← store (.createRun (e.start f id now))
    if executed then enqueue created.id
    return created :: (← startAll e executed now fs)

def dispatch (e : Event) (executed : Bool) (now? : Option Instant) : Activity (List Run) := do
  let now ← instantOr now?
  during .dispatchingEvent do
    let funnels : List Funnel ← store (.activeFunnels e.trigger.name)
    e.startAll executed now funnels

end Event

end FunnelFlow
