import FunnelFlow.Service.Execution
import FunnelFlow.Store.Backend

/-!
A rehearsal plays the services through. The clock stands still until it is set, ids are counted,
and what the peers answer is written down in advance, together with what happens while a request is
on its way.
-/

namespace FunnelFlow.Rehearsal

inductive Step where
  /-- Carries an activity out. -/
  | act (activity : Activity Value)
  | setClock (now : Instant)
  /-- Replaces what the channels and the contact service answer, and what happens meanwhile. -/
  | script (sends : Option (List (Reply × List Step)))
      (contacts : Option (List (String × List (Reply × List Step))))
  | putFunnel (id : String) (document : Value)
  | putRun (id : String) (document : Value)
  /-- Lets calls of the database fail, or no longer. -/
  | setOutage (outage : Option Outage)
  /-- Lets no client of the database be opened. -/
  | refuseClients
  /-- Starts the application, and the background loop with it. -/
  | startUp
  | startLoop
  | stopLoop
  /-- Lets the background loop run until it waits. -/
  | settle
  /-- Shuts the application down, which must have been started: stops the background loop, then
  carries an activity out. -/
  | shutDown (activity : Activity Value)
  /-- Carries an activity out on a store of its own, which is closed in the end. -/
  | actApart (runTtl funnelTtl : Span) (activity : Activity Value)

/-- What a peer answers to one request, and what happens before. -/
abbrev Cue := Reply × List Step

inductive Loop where
  | off
  | waiting
  | sleeping
  deriving DecidableEq, Repr

structure Scheduler where
  pending : List String
  isWoken : Bool
  loop : Loop
  deriving DecidableEq, Repr

namespace Scheduler

def idle : Scheduler := ⟨[], false, .off⟩

def enqueue (s : Scheduler) (id : String) : Scheduler :=
  { s with pending := if s.pending.contains id then s.pending else s.pending ++ [id]
           isWoken := true }

def drain (s : Scheduler) : List String × Scheduler :=
  (s.pending, { s with pending := [], isWoken := false })

end Scheduler

structure World where
  now : Instant
  backend : Backend
  scheduler : Scheduler
  /-- Whether the application was started and not shut down since. -/
  isUp : Bool
  execution : Execution
  batchSize : Int
  sends : List Cue
  /-- By contact or by address; the last answer of a contact is given again and again. -/
  contacts : Table (List Cue)
  /-- What was posted since the step began, and where to. -/
  sent : List (String × Value)
  /-- The addresses that were read since the step began. -/
  reads : List String
  /-- What came of the steps that were played while a request was on its way. -/
  meanwhile : List (Except Fault Value)

namespace World

def opening (now : Instant) (backend : Backend) (execution : Execution) (batchSize : Int)
    (sends : List Cue) (contacts : Table (List Cue)) : World :=
  { now, backend, scheduler := .idle, isUp := false, execution, batchSize, sends, contacts
    sent := [], reads := [], meanwhile := [] }

/-- The next answer of a channel; without a script it accepts. -/
def takeSend (w : World) : Cue × World :=
  match w.sends with
  | [] => ((.answer 200 "", []), w)
  | cue :: rest => (cue, { w with sends := rest })

def contactKey? (w : World) (address : String) : Option String :=
  if w.contacts.has address then some address
  else w.contacts.keys.find? fun key =>
    match ContactBook.address w.execution.contacts key with
    | .ok written => written == address
    | .error _ => false

/-- The next answer of the contact service; it knows only the contacts of the script. -/
def takeContact (w : World) (address : String) : Cue × World :=
  let unknown : Cue := (.answer 404 "", [])
  match w.contactKey? address with
  | none => (unknown, w)
  | some key => match (w.contacts.get? key).getD [] with
    | [] => (unknown, w)
    | [cue] => (cue, w)
    | cue :: rest => (cue, { w with contacts := w.contacts.set key rest })

def takeFunnelId (w : World) : String × World :=
  let (id, ids) := w.backend.ids.takeFunnel
  (id, { w with backend := w.backend.withIds ids })

def takeRunId (w : World) : String × World :=
  let (id, ids) := w.backend.ids.takeRun
  (id, { w with backend := w.backend.withIds ids })

def turnPage (w : World) : World := { w with sent := [], reads := [], meanwhile := [] }

end World

end FunnelFlow.Rehearsal
