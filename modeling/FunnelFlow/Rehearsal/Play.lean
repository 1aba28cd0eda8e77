import FunnelFlow.Rehearsal.World
import FunnelFlow.Service.Editing
import FunnelFlow.Store.Copying

namespace FunnelFlow.Rehearsal

/-- The most levels of a run that are copied. -/
def mostLevels : Nat := 481

def copied (r : Run) : Except Fault Run :=
  if mostLevels < (Value.object r.toDocument).height then .error .tooDeep else .ok r

def answerStore (call : StoreCall) : Backend → Except Fault call.Answer × Backend
  | .memory m => let (result, m) := (MemoryStore.answerWithin mostLevels call).run m; (result, .memory m)
  | b => b.answer call

namespace World

def playAll (play : Step → World → Except Fault Value × World) (w : World) : List Step → World
  | [] => w
  | step :: steps =>
    let (result, w) := play step w
    playAll play { w with meanwhile := w.meanwhile ++ [result] } steps

def answer (play : Step → World → Except Fault Value × World) :
    (r : Request) → World → r.Answer × World
  | .store call, w =>
    let (result, backend) := answerStore call w.backend
    (result, { w with backend })
  | .post address body, w =>
    let ((reply, steps), w) := { w with sent := w.sent ++ [(address, body)] }.takeSend
    (reply, w.playAll play steps)
  | .read address, w =>
    let ((reply, steps), w) := { w with reads := w.reads ++ [address] }.takeContact address
    (reply, w.playAll play steps)
  | .clock, w => (w.now, w)
  | .funnelId, w => w.takeFunnelId
  | .runId, w => w.takeRunId
  | .token, w => ("00000000", w)
  | .enqueue id, w => ((), { w with scheduler := w.scheduler.enqueue id })
  | .drain, w =>
    let (pending, scheduler) := w.scheduler.drain
    (pending, { w with scheduler })

/-- Lets the background loop make passes until it waits, or sleeps after a pass that failed, or was
stopped meanwhile; it gives up after `bound` passes. -/
def rest (answer : (r : Request) → World → r.Answer × World) : (bound : Nat) → World → World
  | 0, w => w
  | bound + 1, w =>
    let (result, w) := (w.execution.pass w.batchSize none).run answer w
    if w.scheduler.loop = .off then w
    else match result with
      | .error _ => { w with scheduler.loop := .sleeping }
      | .ok _ => if w.scheduler.isWoken then rest answer bound w else w

def mostPasses : Nat := 1000

def settle (answer : (r : Request) → World → r.Answer × World) (w : World) : World :=
  if w.scheduler.loop = .waiting ∧ w.scheduler.isWoken then w.rest answer mostPasses else w

/-- Starts the background loop, which makes a pass at once. One that runs goes on. -/
def startLoop (answer : (r : Request) → World → r.Answer × World) (w : World) : World :=
  if w.scheduler.loop = .off then
    { w with scheduler.loop := .waiting }.rest answer mostPasses
  else w.settle answer

def actApart (answer : (r : Request) → World → r.Answer × World) (runTtl funnelTtl : Span)
    (activity : Activity Value) (w : World) : Except Fault Value × World :=
  let close : Activity Value := do
    let result ← activity.attempt
    let _ : Unit ← Activity.store .close
    Activity.finish result
  let ((result, w), backend) := w.backend.apart runTtl funnelTtl fun backend =>
    let (result, w) := close.run answer { w with backend }
    ((result, w), w.backend)
  (result, { w with backend })

end World

/-- Plays a step. Steps may be nested in the answers of a script; below `depth` they are passed
over. -/
def play : (depth : Nat) → Step → World → Except Fault Value × World
  | 0, _, w => (.ok .null, w)
  | depth + 1, step, w =>
    let answer := World.answer (play depth)
    match step with
    | .act activity => activity.run answer w
    | .setClock now => (.ok .null, { w with now })
    | .script sends contacts => (.ok .null, { w with
        sends := sends.getD w.sends, contacts := contacts.getD w.contacts })
    | .putFunnel id document =>
      (.ok .null, { w with backend := w.backend.putFunnel id document })
    | .putRun id document => (.ok .null, { w with backend := w.backend.putRun id document })
    | .setOutage outage => (.ok .null, { w with backend := w.backend.onServer fun s =>
        { s with outage, refusesClients := false } })
    | .refuseClients => (.ok .null, { w with backend := w.backend.onServer fun s =>
        { s with outage := none, refusesClients := true } })
    | .startUp => (.ok .null, { w with isUp := true }.startLoop answer)
    | .startLoop => (.ok .null, w.startLoop answer)
    | .stopLoop => (.ok .null, { w with scheduler.loop := .off })
    | .settle => (.ok .null, w.settle answer)
    | .shutDown activity =>
      if w.isUp then activity.run answer { w with scheduler.loop := .off, isUp := false }
      else (.error .notStarted, w)
    | .actApart runTtl funnelTtl activity => w.actApart answer runTtl funnelTtl activity

def deepest : Nat := 100

def playThrough : List Step → World → List (Except Fault Value × World)
  | [], _ => []
  | step :: steps, w =>
    let played := play deepest step w.turnPage
    played :: playThrough steps played.2

end FunnelFlow.Rehearsal
