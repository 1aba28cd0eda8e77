import FunnelFlow.Store.Contract

/-!
Activities: what a service does, as a tree of the requests that it makes of its surroundings. An
activity ends with a result or a fault, or asks for something and goes on with the answer. Between
two requests of one activity others may run; nothing here says who answers, or when.
-/

namespace FunnelFlow

inductive Reply where
  | answer (status : Nat) (body : String)
  | failed (failure : RequestFailure) (message : String)
  /-- The peer broke down in a way that is no failure of the request. -/
  | broken (message : String)
  /-- The peer had an answer that strict JSON cannot write. -/
  | unwritable
  deriving DecidableEq, Repr

inductive Request where
  | store (call : StoreCall)
  /-- Posts a body to an address. -/
  | post (address : String) (body : Value)
  /-- Reads what is at an address. -/
  | read (address : String)
  | clock
  | funnelId
  | runId
  /-- A token that no other activity gets. -/
  | token
  /-- Asks for a run to be executed in the next pass. -/
  | enqueue (runId : String)
  /-- Takes the runs that wait for the next pass. -/
  | drain
  deriving Repr

def Request.Answer : Request → Type
  | store call => Except Fault call.Answer
  | post .. => Reply
  | read _ => Reply
  | clock => Instant
  | funnelId => String
  | runId => String
  | token => String
  | enqueue _ => Unit
  | drain => List String

inductive Activity (α : Type) where
  | done (result : Except Fault α)
  | ask (request : Request) (resume : request.Answer → Activity α)

namespace Activity

variable {α β : Type}

protected def bind (first : Activity α) (next : α → Activity β) : Activity β :=
  match first with
  | .done (.ok a) => next a
  | .done (.error e) => .done (.error e)
  | .ask request resume => .ask request fun answer => (resume answer).bind next

protected def tryCatch (first : Activity α) (handle : Fault → Activity α) : Activity α :=
  match first with
  | .done (.ok a) => .done (.ok a)
  | .done (.error e) => handle e
  | .ask request resume => .ask request fun answer => (resume answer).tryCatch handle

instance : Monad Activity where
  pure a := .done (.ok a)
  bind := Activity.bind

instance : MonadExcept Fault Activity where
  throw e := .done (.error e)
  tryCatch := Activity.tryCatch

def finish (r : Except Fault α) : Activity α := .done r

/-- An activity that never fails: a fault is part of its result. -/
def attempt (act : Activity α) : Activity (Except Fault α) :=
  match act with
  | .done r => .done (.ok r)
  | .ask request resume => .ask request fun answer => (resume answer).attempt

def request (r : Request) : Activity r.Answer := .ask r fun answer => .done (.ok answer)

def store (call : StoreCall) : Activity call.Answer := .ask (.store call) .done

def clock : Activity Instant := request .clock
def token : Activity String := request .token
def enqueue (id : String) : Activity Unit := request (.enqueue id)
def drain : Activity (List String) := request .drain
def post (address : String) (body : Value) : Activity Reply := request (.post address body)
def read (address : String) : Activity Reply := request (.read address)

def instantOr (now? : Option Instant) : Activity Instant :=
  match now? with
  | some now => pure now
  | none => clock

/-- Reads a funnel from a document, with a fresh id if it has none. -/
def readFunnel (r : Reading Funnel) : Activity Funnel := do
  finish (r.result (← if r.needsId then request .funnelId else pure ""))

def readRun (r : Reading Run) : Activity Run := do
  finish (r.result (← if r.needsId then request .runId else pure ""))

/-- Wraps a fault that is no refusal of the service itself. -/
def during (task : Undertaking) (act : Activity α) : Activity α :=
  act.tryCatch fun e => throw (if e.isRefusal then e else .failedWhile task e)

/-- Carries an activity out in a world that answers its requests one by one. -/
def run {σ : Type} (answer : (r : Request) → σ → r.Answer × σ) : Activity α → σ → Except Fault α × σ
  | .done result, world => (result, world)
  | .ask request resume, world =>
    let (reply, world) := answer request world
    (resume reply).run answer world

@[simp] theorem pure_bind (a : α) (f : α → Activity β) : (pure a >>= f) = f a := rfl

@[simp] theorem throw_bind (e : Fault) (f : α → Activity β) :
    ((throw e : Activity α) >>= f) = throw e := rfl

theorem run_bind {σ : Type} (answer : (r : Request) → σ → r.Answer × σ) (act : Activity α)
    (f : α → Activity β) (world : σ) :
    (act >>= f).run answer world =
      match act.run answer world with
      | (.ok a, world) => (f a).run answer world
      | (.error e, world) => (.error e, world) := by
  induction act generalizing world with
  | done result => cases result <;> rfl
  | ask request resume ih => exact ih _ _

end Activity

end FunnelFlow
