import FunnelFlow.Rehearsal.World
import FunnelFlow.Proofs.Log
import FunnelFlow.Proofs.Service.Discipline
import FunnelFlow.Proofs.Service.Scope
import FunnelFlow.Proofs.Store.Ready

/-!
The queue of runs that were asked for. A pass takes it whole and executes what it took, then what is
due; whoever asks for a run while the pass waits for its store or its peers finds it in the queue
afterwards. Nothing is assumed of what others do meanwhile, nor of any answer but that to the query
for due runs.
-/

namespace FunnelFlow

open Activity Rehearsal

namespace Execution

variable {asked due : List String}

theorem passOrder_cons (asked due : List String) (id : String) : passOrder asked (id :: due) =
    passOrder (if asked.contains id then asked else asked ++ [id]) due := rfl

theorem passOrder_eq (asked due : List String) :
    passOrder asked due = asked ++ (due.filter (· ∉ asked)).eraseDups := by
  induction due generalizing asked with
  | nil => simp [passOrder]
  | cons id due ih =>
    rw [passOrder_cons, ih]
    by_cases hid : id ∈ asked
    · simp [hid]
    · -- from now on the id is one of those asked for, and is passed over when it comes again
      have hfilter : due.filter (· ∉ asked ++ [id]) =
          (due.filter (· ∉ asked)).filter fun other => !other == id := by
        rw [List.filter_filter]
        apply List.filter_congr
        intro other _
        rw [Bool.eq_iff_iff]
        simp [and_comm]
      rw [if_neg (by simpa using hid), hfilter, List.filter_cons_of_pos (by simpa using hid),
        List.eraseDups_cons, List.append_assoc, List.singleton_append]

theorem passOrder_nodup (hasked : asked.Nodup) (due : List String) :
    (passOrder asked due).Nodup := by
  induction due generalizing asked with
  | nil => exact hasked
  | cons id due ih =>
    rw [passOrder_cons]
    apply ih
    split
    · exact hasked
    · next hid =>
      rw [List.contains_iff_mem] at hid
      exact hasked.append (List.nodup_singleton id) (List.disjoint_singleton.mpr hid)

theorem passOrder_nil_eq (due : List String) : passOrder [] due = due.eraseDups := by
  simp [passOrder_eq]

end Execution

theorem Rehearsal.Scheduler.pending_foldl_enqueue (q : Scheduler) (ids : List String) :
    (ids.foldl Scheduler.enqueue q).pending = Execution.passOrder q.pending ids := by
  induction ids generalizing q with
  | nil => rfl
  | cons id ids ih =>
    rw [List.foldl_cons, ih]
    rfl

structure Site where
  backend : Backend
  scheduler : Scheduler

namespace Request

def isAwaited : Request → Bool
  | .store _ | .post .. | .read _ => true
  | _ => false

def isOrdinary : Request → Bool
  | .drain | .enqueue _ | .store (.dueRuns ..) => false
  | _ => true

theorem isOrdinary_of_isOfRun {r : Request} (h : r.isOfRun = true) : r.isOrdinary = true := by
  cases r with
  | store call => cases call <;> trivial
  | _ => trivial

end Request

namespace Site

/-- Others ask for runs, and do what they like with the store. -/
def after (s : Site) (calls : List String) (b : Backend) : Site :=
  ⟨b, calls.foldl Scheduler.enqueue s.scheduler⟩

/-- How requests are answered. Only the queue and the query for due runs are relied on. -/
inductive Answers : Site → (r : Request) → r.Answer → Site → Prop
  | drain (s : Site) :
    Answers s .drain s.scheduler.drain.1 { s with scheduler := s.scheduler.drain.2 }
  | enqueue (s : Site) (id : String) :
    Answers s (.enqueue id) () { s with scheduler := s.scheduler.enqueue id }
  | due (s : Site) (now : Instant) (limit : Int) :
    Answers s (.store (.dueRuns now limit)) (s.backend.answer (.dueRuns now limit)).1
      { s with backend := (s.backend.answer (.dueRuns now limit)).2 }
  | ordinary (s : Site) {r : Request} (hr : r.isOrdinary = true) (a : r.Answer) : Answers s r a s

theorem Answers.scheduler_eq {s s' : Site} {r : Request} {a : r.Answer} (h : s.Answers r a s')
    (hr : r.isOrdinary = true) : s'.scheduler = s.scheduler := by
  cases h with
  | drain | enqueue => cases hr
  | due | ordinary => rfl

end Site

namespace Activity

variable {α β : Type} {act : Activity α} {s s' : Site} {log : Log} {calls : List String}
  {result : Except Fault α}

/-- The activity can end with this result at this site, with this log and with these calls of others
for runs. -/
inductive Attended : Activity α → Site → Log → List String → Except Fault α → Site → Prop
  | done (result : Except Fault α) (s : Site) : Attended (.done result) s [] [] result s
  | atOnce {r : Request} {resume : r.Answer → Activity α} {a : r.Answer} {s s₁ s' : Site}
    {log : Log} {calls : List String} {result : Except Fault α} (hr : r.isAwaited = false)
    (hanswers : s.Answers r a s₁) (hrest : Attended (resume a) s₁ log calls result s') :
    Attended (.ask r resume) s (⟨r, a⟩ :: log) calls result s'
  | awaited {r : Request} {resume : r.Answer → Activity α} {a : r.Answer} {s s₁ s' : Site}
    {log : Log} {calls : List String} {result : Except Fault α} (hr : r.isAwaited = true)
    (hanswers : s.Answers r a s₁) (others : List String) (b : Backend)
    (hrest : Attended (resume a) (s₁.after others b) log calls result s') :
    Attended (.ask r resume) s (⟨r, a⟩ :: log) (others ++ calls) result s'

def IsOrdinary (act : Activity α) : Prop :=
  act.Abides ⟨fun r => r.isOrdinary = true, fun _ _ => True⟩ (OnSuccess fun _ => True)

namespace Attended

/-- An activity that leaves the queue alone finds in it afterwards what others put there. -/
theorem scheduler_eq (h : act.Attended s log calls result s') (hact : act.IsOrdinary) :
    s'.scheduler = calls.foldl Scheduler.enqueue s.scheduler := by
  induction h with
  | done => rfl
  | atOnce hr hanswers hrest ih =>
    rw [ih (hact.2 _ trivial), hanswers.scheduler_eq hact.1]
  | awaited hr hanswers others b hrest ih =>
    rw [ih (hact.2 _ trivial), Site.after, hanswers.scheduler_eq hact.1, List.foldl_append]

theorem of_attempt_bind {next : Except Fault α → Activity β} {result : Except Fault β}
    (h : (act.attempt >>= next).Attended s log calls result s') :
    ∃ mid s₁ log₁ log₂ calls₁ calls₂, act.Attended s log₁ calls₁ mid s₁ ∧
      (next mid).Attended s₁ log₂ calls₂ result s' ∧ log = log₁ ++ log₂ ∧
      calls = calls₁ ++ calls₂ := by
  induction act generalizing s log calls with
  | done mid => exact ⟨mid, s, [], log, [], calls, .done mid s, h, rfl, rfl⟩
  | ask r resume ih =>
    cases h with
    | atOnce hr hanswers hrest =>
      obtain ⟨mid, s₁, log₁, log₂, calls₁, calls₂, hact, hnext, rfl, rfl⟩ := ih _ hrest
      exact ⟨mid, s₁, _, log₂, calls₁, calls₂, .atOnce hr hanswers hact, hnext, rfl, rfl⟩
    | awaited hr hanswers others b hrest =>
      obtain ⟨mid, s₁, log₁, log₂, calls₁, calls₂, hact, hnext, rfl, rfl⟩ := ih _ hrest
      exact ⟨mid, s₁, _, log₂, _, calls₂, .awaited hr hanswers others b hact, hnext, rfl,
        (List.append_assoc ..).symm⟩

theorem of_map {f : α → β} {result : Except Fault β}
    (h : (act >>= fun a => pure (f a)).Attended s log calls result s') :
    ∃ mid, act.Attended s log calls mid s' ∧ result = mid.map f := by
  induction act generalizing s log calls with
  | done mid =>
    cases mid <;> cases h <;> exact ⟨_, .done _ _, rfl⟩
  | ask r resume ih =>
    cases h with
    | atOnce hr hanswers hrest =>
      obtain ⟨mid, hact, hresult⟩ := ih _ hrest
      exact ⟨mid, .atOnce hr hanswers hact, hresult⟩
    | awaited hr hanswers others b hrest =>
      obtain ⟨mid, hact, hresult⟩ := ih _ hrest
      exact ⟨mid, .awaited hr hanswers others b hact, hresult⟩

theorem of_drain_bind {next : List String → Activity β} {result : Except Fault β}
    (h : (drain >>= next).Attended s log calls result s') :
    ∃ rest, log = ⟨.drain, s.scheduler.pending⟩ :: rest ∧
      (next s.scheduler.pending).Attended { s with scheduler := s.scheduler.drain.2 } rest calls
        result s' := by
  cases h with
  | awaited hr => cases hr
  | atOnce _ hanswers hrest =>
    cases hanswers with
    | ordinary hr => cases hr
    | drain => exact ⟨_, rfl, hrest⟩

theorem of_store_bind {call : StoreCall} {next : call.Answer → Activity β}
    {result : Except Fault β} (h : (store call >>= next).Attended s log calls result s') :
    ∃ (a : Except Fault call.Answer) (s₁ : Site) (rest : Log) (others later : List String)
      (b : Backend), s.Answers (.store call) a s₁ ∧ log = ⟨.store call, a⟩ :: rest ∧
      calls = others ++ later ∧ (finish a >>= next).Attended (s₁.after others b) rest later
        result s' := by
  cases h with
  | atOnce hr => cases hr
  | awaited _ hanswers others b hrest => exact ⟨_, _, _, others, _, b, hanswers, rfl, rfl, hrest⟩

theorem of_due_bind {now : Instant} {limit : Int} {due : List String}
    {next : List String → Activity β} {result : Except Fault β}
    (hdue : (s.backend.answer (.dueRuns now limit)).1 = .ok due)
    (h : ((store (.dueRuns now limit) : Activity (List String)) >>= next).Attended s log calls
      result s') :
    ∃ rest queried later b, log = ⟨.store (.dueRuns now limit), .ok due⟩ :: rest ∧
      calls = queried ++ later ∧ (next due).Attended (s.after queried b) rest later result s' := by
  obtain ⟨a, s₁, rest, queried, later, b, hanswers, rfl, rfl, hnext⟩ := h.of_store_bind
  cases hanswers with
  | ordinary hr => cases hr
  | due =>
    rw [hdue] at hnext ⊢
    exact ⟨rest, queried, later, b, rfl, rfl, hnext⟩

end Attended

end Activity

namespace Execution

variable {x : Execution} {now : Instant} {s s' : Site} {log : Log} {calls : List String}

theorem execute_isOrdinary (id : String) : (x.execute id (some now)).IsOrdinary :=
  (execute_isOfRun id (some now)).mono (fun _ => Request.isOrdinary_of_isOfRun) fun _ _ _ => trivial

structure Turn where
  id : String
  log : Log
  result : Except Fault Run

inductive Turns (x : Execution) (now : Instant) : Site → List Turn → List String → Site → Prop
  | nil (s : Site) : Turns x now s [] [] s
  | cons {s s₁ s' : Site} {t : Turn} {turns : List Turn} {calls later : List String}
    (h : (x.execute t.id (some now)).Attended s t.log calls t.result s₁)
    (hrest : Turns x now s₁ turns later s') : Turns x now s (t :: turns) (calls ++ later) s'

theorem Turns.scheduler_eq {turns : List Turn} (h : x.Turns now s turns calls s') :
    s'.scheduler = calls.foldl Scheduler.enqueue s.scheduler := by
  induction h with
  | nil => rfl
  | cons h _ ih => rw [ih, h.scheduler_eq (execute_isOrdinary _), List.foldl_append]

theorem executeAll_cons (id : String) (ids : List String) : x.executeAll now (id :: ids) =
    (x.execute id (some now)).attempt >>= fun result =>
      x.executeAll now ids >>= fun rest => pure (result.toOption.toList ++ rest) := by
  rw [executeAll]
  congr 1
  funext result
  cases result <;> rfl

theorem executeAll_attended {ids : List String} {result : Except Fault (List Run)}
    (h : (x.executeAll now ids).Attended s log calls result s') :
    ∃ turns, x.Turns now s turns calls s' ∧ turns.map (·.id) = ids ∧
      log = turns.flatMap (·.log) ∧ result = .ok (turns.filterMap (·.result.toOption)) := by
  induction ids generalizing s log calls result with
  | nil =>
    cases h
    exact ⟨[], .nil _, rfl, rfl, rfl⟩
  | cons id ids ih =>
    rw [executeAll_cons] at h
    obtain ⟨mid, s₁, log₁, log₂, calls₁, calls₂, hact, hrest, rfl, rfl⟩ := h.of_attempt_bind
    obtain ⟨rest, hall, rfl⟩ := hrest.of_map
    obtain ⟨turns, hturns, hids, rfl, rfl⟩ := ih hall
    refine ⟨⟨id, log₁, mid⟩ :: turns, .cons hact hturns, by rw [List.map_cons, hids], rfl, ?_⟩
    cases mid <;> rfl

/-- What a pass makes of the runs that were asked for before it, of those that are due, and of the
calls for runs that come in while it is under way. -/
structure Serves (x : Execution) (now : Instant) (batch : Int) (earlier due : List String)
    (log : Log) (calls : List String) (result : Except Fault (List Run)) (s' : Site)
    (turns : List Turn) : Prop where
  order : turns.map (·.id) =
    earlier.eraseDups ++ (due.filter (· ∉ earlier)).eraseDups
  once : (turns.map (·.id)).Nodup
  executed : ∃ s queried later, x.Turns now s turns later s' ∧ calls = queried ++ later
  log : log = ⟨.drain, earlier.eraseDups⟩ :: ⟨.store (.dueRuns now batch), .ok due⟩ ::
    turns.flatMap (·.log)
  result : result = .ok (turns.filterMap (·.result.toOption))
  pending : s'.scheduler.pending = calls.eraseDups

theorem pass_serves_queue (x : Execution) (now : Instant) {batch : Int} {b : Backend}
    {q : Scheduler} {earlier due calls : List String} {log : Log}
    {result : Except Fault (List Run)} {s' : Site} (hbatch : 1 ≤ batch) (hq : q.pending = [])
    (hdue : (b.answer (.dueRuns now batch)).1 = .ok due)
    (hpass : (x.pass batch (some now)).Attended ⟨b, earlier.foldl Scheduler.enqueue q⟩
      log calls result s') :
    due = (b.readyIds now).take batch.toNat ∧
      ∃ turns, x.Serves now batch earlier due log calls result s' turns := by
  refine ⟨Backend.answer_dueRuns_eq_ok hbatch hdue, ?_⟩
  have hpending : (earlier.foldl Scheduler.enqueue q).pending = earlier.eraseDups := by
    rw [Scheduler.pending_foldl_enqueue, hq, passOrder_nil_eq]
  have hpass_eq : x.pass batch (some now) = drain >>= fun asked : List String =>
      (store (.dueRuns now batch) : Activity (List String)) >>= fun due =>
        x.executeAll now (passOrder asked due) := rfl
  rw [hpass_eq] at hpass
  obtain ⟨_, rfl, hquery⟩ := hpass.of_drain_bind
  obtain ⟨_, queried, later, b', rfl, rfl, hall⟩ := hquery.of_due_bind hdue
  obtain ⟨turns, hturns, hids, rfl, rfl⟩ := executeAll_attended hall
  rw [hpending] at hids ⊢
  refine ⟨turns, ?_, ?_, ⟨_, queried, later, hturns, rfl⟩, rfl, rfl, ?_⟩
  · rw [hids, passOrder_eq]
    simp
  · rw [hids, ← passOrder_nil_eq]
    exact passOrder_nodup (passOrder_nodup List.nodup_nil earlier) due
  · rw [hturns.scheduler_eq, Site.after, ← List.foldl_append, Scheduler.pending_foldl_enqueue,
      ← passOrder_nil_eq]
    rfl

/-- A site where peers accept every message and give no attributes, and where others ask for these
runs whenever a message is on its way. -/
def attending (others : List String) : (r : Request) → Site → r.Answer × Site
  | .store call, s => ((s.backend.answer call).1, s.after [] (s.backend.answer call).2)
  | .post .., s => (.answer 200 "", s.after others s.backend)
  | .read _, s => (.answer 404 "", s.after [] s.backend)
  | .drain, s => (s.scheduler.drain.1, { s with scheduler := s.scheduler.drain.2 })
  | .enqueue id, s => ((), { s with scheduler := s.scheduler.enqueue id })
  | .clock, s => (⟨0, none⟩, s)
  | .funnelId, s | .runId, s | .token, s => ("token", s)

theorem attended_run {α : Type} (others : List String) (act : Activity α) (s : Site) :
    ∃ log calls, act.Attended s log calls (act.run (attending others) s).1
      (act.run (attending others) s).2 := by
  induction act generalizing s with
  | done result => exact ⟨[], [], .done result s⟩
  | ask r resume ih =>
    obtain ⟨log, calls, hrest⟩ := ih (attending others r s).1 (attending others r s).2
    cases r with
    | store call =>
      cases call with
      | dueRuns now limit => exact ⟨_, _, .awaited rfl (.due s now limit) [] _ hrest⟩
      | _ => exact ⟨_, _, .awaited rfl (.ordinary s rfl _) [] _ hrest⟩
    | post => exact ⟨_, _, .awaited rfl (.ordinary s rfl _) others _ hrest⟩
    | read => exact ⟨_, _, .awaited rfl (.ordinary s rfl _) [] _ hrest⟩
    | drain => exact ⟨_, _, .atOnce rfl (.drain s) hrest⟩
    | enqueue id => exact ⟨_, _, .atOnce rfl (.enqueue s id) hrest⟩
    | _ => exact ⟨_, _, .atOnce rfl (.ordinary s rfl _) hrest⟩

def welcoming : Backend := .memory ⟨.first, (Service.keeping .welcome).putRun Run.welcomeRun⟩

def welcomePass : Except Fault (List Run) × Site :=
  (Service.worker.pass 10 (some ⟨0, none⟩)).run (attending ["third", "gone"])
    ⟨welcoming, ["gone", "gone"].foldl Scheduler.enqueue .idle⟩

theorem welcome_serves_queue :
    (welcoming.answer (.dueRuns ⟨0, none⟩ 10)).1 = .ok ["run"] ∧
    welcomePass.2.scheduler.pending = ["third", "gone"] ∧
    ∃ log calls turns, Service.worker.Serves ⟨0, none⟩ 10 ["gone", "gone"] ["run"] log calls
      welcomePass.1 welcomePass.2 turns ∧ turns.map (·.id) = ["gone", "run"] := by
  have hdue : (welcoming.answer (.dueRuns ⟨0, none⟩ 10)).1 = .ok ["run"] := rfl
  obtain ⟨log, calls, hpass⟩ := attended_run ["third", "gone"]
    (Service.worker.pass 10 (some ⟨0, none⟩))
    ⟨welcoming, ["gone", "gone"].foldl Scheduler.enqueue .idle⟩
  obtain ⟨_, turns, hserves⟩ :=
    pass_serves_queue Service.worker ⟨0, none⟩ (by decide) rfl hdue hpass
  exact ⟨hdue, rfl, log, calls, turns, hserves, hserves.order⟩

end Execution

end FunnelFlow
