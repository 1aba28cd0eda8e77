import FunnelFlow.Fault
import FunnelFlow.Funnel.Document
import FunnelFlow.Run.Document
import FunnelFlow.Text.Quoted

/-!
What a store of funnels and runs is asked for. A funnel has at most one editor who holds its lock,
and a run at most one step in flight: acquiring a run locks it, releasing it writes it and unlocks
it. Locks run out after a time, so that nobody holds one forever.
-/

namespace FunnelFlow

structure RunFilter where
  funnelId : Option String
  contactId : Option String
  status : Option String
  deriving DecidableEq, Repr, Inhabited

def RunFilter.all : RunFilter := ⟨none, none, none⟩

inductive StoreCall where
  | saveFunnel (funnel : Funnel)
  | getFunnel (id : String)
  | listFunnels
  | deleteFunnel (id : String)
  | activeFunnels (trigger : String)
  | lockFunnel (id holder : String) (now : Instant)
  | unlockFunnel (id holder : String)
  | createRun (run : Run)
  | getRun (id : String)
  | listRuns (filter : RunFilter)
  | dueRuns (now : Instant) (limit : Int)
  | acquireRun (id owner : String) (now : Instant)
  | saveRun (run : Run) (owner : String)
  | releaseRun (run : Run) (owner : String)
  | close
  deriving Repr

namespace StoreCall

def Answer : StoreCall → Type
  | saveFunnel _ => Funnel
  | getFunnel _ => Option Funnel
  | listFunnels => List Funnel
  | deleteFunnel _ => Bool
  | activeFunnels _ => List Funnel
  /- Whether the lock is new to the holder. -/
  | lockFunnel .. => Bool
  | unlockFunnel .. => Bool
  | createRun _ => Run
  | getRun _ => Option Run
  | listRuns _ => List Run
  | dueRuns .. => List String
  | acquireRun .. => Run
  | saveRun .. => Run
  | releaseRun .. => Run
  | close => Unit

end StoreCall

structure IdSupply where
  funnels : Nat
  runs : Nat
  deriving DecidableEq, Repr, Inhabited

namespace IdSupply

def first : IdSupply := ⟨1, 1⟩

def takeFunnel (s : IdSupply) : String × IdSupply :=
  (s!"funnel-{s.funnels}", { s with funnels := s.funnels + 1 })

def takeRun (s : IdSupply) : String × IdSupply :=
  (s!"run-{s.runs}", { s with runs := s.runs + 1 })

end IdSupply

/-- A store's data, with the ids for documents that have none. -/
structure Stored (σ : Type) where
  ids : IdSupply
  data : σ
  deriving Repr

/-- Work on the data of a store. What was changed before a fault stays changed. -/
abbrev StoreM (σ : Type) := ExceptT Fault (StateM (Stored σ))

namespace StoreM

variable {σ : Type}

def data : StoreM σ σ := do return (← get).data

def setData (data : σ) : StoreM σ Unit := modify fun s => { s with data }

def takeFunnelId : StoreM σ String :=
  modifyGet fun s => let (id, ids) := s.ids.takeFunnel; (id, { s with ids })

def takeRunId : StoreM σ String :=
  modifyGet fun s => let (id, ids) := s.ids.takeRun; (id, { s with ids })

def readFunnel (r : Reading Funnel) : StoreM σ Funnel := do
  liftExcept (r.result (← if r.needsId then takeFunnelId else pure ""))

def readRun (r : Reading Run) : StoreM σ Run := do
  liftExcept (r.result (← if r.needsId then takeRunId else pure ""))

end StoreM

def Fault.ofSpan {α : Type} (r : Except SpanError α) : Except Fault α := r.mapError .span

def Trigger.ofName (name : String) : Except Fault Trigger :=
  match ofName? name with
  | some t => .ok t
  | none => .error (.notAChoice (Text.quoted name) "FunnelTrigger")

def RunStatus.ofName (name : String) : Except Fault RunStatus :=
  match ofName? name with
  | some s => .ok s
  | none => .error (.notAChoice (Text.quoted name) "RunStatus")

end FunnelFlow
