import FunnelFlow.Settings
import FunnelFlow.Proofs.Service.Passes
import FunnelFlow.Proofs.Service.Queue
import FunnelFlow.Proofs.Store.Rows

namespace FunnelFlow

open Activity Rehearsal

theorem LogEntry.acquired?_eq_none {e : LogEntry} (h : e.request.isUnderLock = true) :
    e.acquired? = none := by
  obtain ⟨r, a⟩ := e
  cases r with
  | store call =>
    cases call with
    | acquireRun => cases h
    | _ => rfl
  | _ => rfl

namespace Activity.Attended

variable {α β : Type} {act : Activity α} {s s' : Site} {log : Log} {calls : List String}
  {result : Except Fault α}

theorem asks {p : Request → Prop} {post : Except Fault α → Prop}
    (h : act.Attended s log calls result s') (hact : act.Abides ⟨p, fun _ _ => True⟩ post) :
    ∀ e ∈ log, p e.request := by
  induction h with
  | done => exact fun _ he => absurd he List.not_mem_nil
  | atOnce _ _ _ ih | awaited _ _ _ _ _ ih =>
    exact List.forall_mem_cons.mpr ⟨hact.1, ih (hact.2 _ trivial)⟩

theorem acquired_eq_nil (h : act.Attended s log calls result s') (hact : act.IsUnderLock) :
    log.acquired = [] :=
  List.filterMap_eq_nil_iff.mpr fun e he => LogEntry.acquired?_eq_none (h.asks hact e he)

theorem acquired_of_instantOr_bind {now? : Option Instant} {next : Instant → Activity β}
    {result : Except Fault β} (h : (instantOr now? >>= next).Attended s log calls result s') :
    ∃ now rest, (∀ t ∈ now?, now = t) ∧ log.acquired = Log.acquired rest ∧
      (next now).Attended s rest calls result s' := by
  cases now? with
  | some now => exact ⟨now, log, fun _ => Option.some.inj, rfl, h⟩
  | none =>
    cases h with
    | awaited hr => cases hr
    | @atOnce _ _ now _ _ _ rest _ _ _ hanswers hrest =>
      cases hanswers
      exact ⟨now, rest, nofun, rfl, hrest⟩

end Activity.Attended

def Backend.KeepsTo (b : Backend) (limit : Int) : Prop :=
  ∀ now (due : List String), (b.answer (.dueRuns now limit)).1 = .ok due → (due.length : Int) ≤ limit

theorem Backend.keepsTo {b : Backend} {limit : Int} (hlimit : 1 ≤ limit) : b.KeepsTo limit := by
  intro now due h
  have htake : due.length ≤ limit.toNat := by
    rw [answer_dueRuns_eq_ok hlimit h]
    exact List.length_take_le _ _
  omega

namespace Execution

variable {x : Execution} {now : Instant} {s s' : Site} {log : Log} {calls : List String}

theorem execute_acquired {id : String} {result : Except Fault Run}
    (h : (x.execute id (some now)).Attended s log calls result s') : log.acquired = [id] := by
  rw [execute_eq] at h
  cases h with
  | awaited hr => cases hr
  | @atOnce _ _ t _ _ _ _ _ _ _ _ hlock =>
    change String at t
    obtain ⟨a, s₁, rest, others, later, b, _, rfl, rfl, hheld⟩ := hlock.of_store_bind
    have hunder : (finish a >>= x.executeHeld id now (x.worker ++ ":" ++ t)).IsUnderLock := by
      cases a with
      | ok r => exact executeHeld_isUnderLock id
      | error e => exact OnSuccess.error e
    exact congrArg (id :: ·) (hheld.acquired_eq_nil hunder)

theorem Turns.acquired_eq {turns : List Turn} (h : x.Turns now s turns calls s') :
    Log.acquired (turns.flatMap (·.log)) = turns.map (·.id) := by
  induction h with
  | nil => rfl
  | cons h _ ih =>
    rw [List.flatMap_cons, Log.acquired_append, execute_acquired h, ih, List.map_cons,
      List.singleton_append]

/-- The runs that a pass executes: those that were asked for, then those that its query gave and
that are not among them. If the query fails there are none. -/
def picked (asked : List String) : Except Fault (List String) → List String
  | .ok due => asked ++ (due.filter (· ∉ asked)).eraseDups
  | .error _ => []

theorem eraseDups_nodup (due : List String) : due.eraseDups.Nodup := by
  rw [← passOrder_nil_eq]
  exact passOrder_nodup List.nodup_nil due

theorem length_eraseDups_le (due : List String) : due.eraseDups.length ≤ due.length :=
  (List.subperm_of_subset (eraseDups_nodup due) fun _ => List.mem_eraseDups.mp).length_le

theorem filter_picked (asked due : List String) :
    (picked asked (.ok due)).filter (· ∉ asked) = (due.filter (· ∉ asked)).eraseDups := by
  have hasked : asked.filter (· ∉ asked) = [] :=
    List.filter_eq_nil_iff.mpr fun id hid => by simpa using hid
  rw [picked, List.filter_append, hasked, List.nil_append, List.filter_eq_self]
  intro id hid
  exact (List.mem_filter.mp (List.mem_eraseDups.mp hid)).2

theorem length_filter_picked_le (asked due : List String) :
    ((picked asked (.ok due)).filter (· ∉ asked)).length ≤ due.eraseDups.length := by
  rw [filter_picked]
  apply (List.subperm_of_subset (eraseDups_nodup _) _).length_le
  intro id hid
  rw [List.mem_eraseDups] at hid ⊢
  exact List.mem_of_mem_filter hid

theorem pass_acquired {batch : Int} {now? : Option Instant} {result : Except Fault (List Run)}
    (h : (x.pass batch now?).Attended s log calls result s') :
    ∃ now, (∀ t ∈ now?, now = t) ∧ log.acquired =
      picked s.scheduler.pending (s.backend.answer (.dueRuns now batch)).1 := by
  obtain ⟨now, rest, hnow, hacquired, hdrain⟩ := h.acquired_of_instantOr_bind
  refine ⟨now, hnow, hacquired.trans ?_⟩
  obtain ⟨rest, rfl, hquery⟩ := hdrain.of_drain_bind
  obtain ⟨a, s₁, rest, queried, later, b, hanswers, rfl, rfl, hall⟩ := hquery.of_store_bind
  cases hanswers with
  | ordinary hr => cases hr
  | due =>
    dsimp only at hall
    cases hanswer : (s.backend.answer (.dueRuns now batch)).1 with
    | error e =>
      rw [hanswer] at hall
      cases hall
      rfl
    | ok due =>
      rw [hanswer] at hall
      obtain ⟨turns, hturns, hids, rfl, _⟩ := executeAll_attended hall
      exact hturns.acquired_eq.trans (hids.trans (passOrder_eq s.scheduler.pending due))

/-- A pass over this store executes at most so many runs that it was not asked for. -/
def KeepsTo (x : Execution) (batch : Int) (b : Backend) : Prop :=
  ∀ now? q log calls result s', (x.pass batch now?).Attended ⟨b, q⟩ log calls result s' →
    ((log.acquired.filter (· ∉ q.pending)).length : Int) ≤ batch

theorem keepsTo_iff {batch : Int} {b : Backend} (hbatch : 0 ≤ batch) : x.KeepsTo batch b ↔
    ∀ now (due : List String), (b.answer (.dueRuns now batch)).1 = .ok due →
      (due.eraseDups.length : Int) ≤ batch := by
  constructor
  · intro h now due hdue
    -- a pass that was asked for nothing executes what is due and nothing else
    obtain ⟨log, calls, hpass⟩ := attended_run [] (x.pass batch (some now)) ⟨b, .idle⟩
    have hlength := h _ _ _ _ _ _ hpass
    obtain ⟨_, hnow, hacquired⟩ := pass_acquired hpass
    obtain rfl := hnow now rfl
    have hpicked : (picked [] (.ok due)).filter (· ∉ ([] : List String)) = due.eraseDups := by
      rw [filter_picked, List.filter_eq_self.mpr fun _ _ => decide_eq_true List.not_mem_nil]
    rw [hacquired.trans (congrArg (picked []) hdue)] at hlength
    rwa [← hpicked]
  · intro h now? q log calls result s' hpass
    obtain ⟨now, _, hacquired⟩ := pass_acquired hpass
    rw [hacquired]
    dsimp only
    cases hanswer : (b.answer (.dueRuns now batch)).1 with
    | error e => exact hbatch
    | ok due =>
      exact (Int.ofNat_le.mpr (length_filter_picked_le q.pending due)).trans (h now due hanswer)

theorem pass_keeps_to_batch (x : Execution) {batch : Int} (hbatch : 1 ≤ batch) :
    (∀ (b : Backend) now (due : List String), (b.answer (.dueRuns now batch)).1 = .ok due ↔
      b.Tells now batch ∧ due = (b.readyIds now).take batch.toNat) ∧
    (∀ b : Backend, b.KeepsTo batch ∧ x.KeepsTo batch b) ∧
    ∀ now? s log calls result s', (x.pass batch now?).Attended s log calls result s' →
      ∃ now, (∀ t ∈ now?, now = t) ∧ log.acquired =
        picked s.scheduler.pending (s.backend.answer (.dueRuns now batch)).1 := by
  refine ⟨fun _ _ _ => Backend.answer_dueRuns_eq_ok_iff hbatch, fun b => ?_,
    fun _ _ _ _ _ _ => pass_acquired⟩
  have hquery : b.KeepsTo batch := Backend.keepsTo hbatch
  refine ⟨hquery, (keepsTo_iff (by omega)).mpr fun now due hdue => ?_⟩
  exact (Int.ofNat_le.mpr (length_eraseDups_le due)).trans (hquery now due hdue)

def pairInMemory : Backend := .memory (Service.pair 24)

def pairInDatabase : Backend :=
  .database ⟨.first, {
    runTtl := ⟨300000000⟩, funnelTtl := ⟨300000000⟩, address := "mongodb://localhost", isOpen := true
    server := { Server.empty .inFormat with
      runs := ["first", "second"].map fun id => Database.runRow (Service.newcomer 24 id) none } }⟩

def nextDay : Instant := ⟨86400000000, none⟩

theorem pair_keeps_to_batch : (pairInDatabase.answer (.dueRuns nextDay 1)).1 = .ok ["first"] ∧
    pairInDatabase.KeepsTo 1 ∧
    ∃ log calls result s', (Service.worker.pass 1 (some nextDay)).Attended
      ⟨pairInMemory, Scheduler.idle.enqueue "gone"⟩ log calls result s' ∧
      log.acquired = ["gone", "first"] := by
  obtain ⟨hquery, hkeeps, hpasses⟩ := pass_keeps_to_batch Service.worker (Int.le_refl 1)
  obtain ⟨log, calls, hpass⟩ := attended_run [] (Service.worker.pass 1 (some nextDay))
    ⟨pairInMemory, Scheduler.idle.enqueue "gone"⟩
  obtain ⟨now, hnow, hacquired⟩ := hpasses _ _ _ _ _ _ hpass
  obtain rfl := hnow _ rfl
  exact ⟨rfl, (hkeeps _).1, log, calls, _, _, hpass, hacquired⟩

/-- A batch of no runs can be configured, and is exceeded. -/
theorem batch_of_zero_is_exceeded :
    (∃ setting ∈ Setting.all, setting.name = "SCHEDULER_BATCH_SIZE" ∧
      setting.read [("SCHEDULER_BATCH_SIZE", "0")] = .ok (.int 0)) ∧
    (pairInMemory.answer (.dueRuns nextDay 0)).1 = .ok ["first"] ∧
    (pairInDatabase.answer (.dueRuns nextDay 0)).1 = .ok ["first", "second"] ∧
    ∀ b ∈ [pairInMemory, pairInDatabase], ¬ b.KeepsTo 0 ∧ ¬ Service.worker.KeepsTo 0 b := by
  have hsetting : (⟨"SCHEDULER_BATCH_SIZE", .integer, "100"⟩ : Setting) ∈ Setting.all := by decide
  have hmemory : (pairInMemory.answer (.dueRuns nextDay 0)).1 = .ok ["first"] := rfl
  have hdatabase : (pairInDatabase.answer (.dueRuns nextDay 0)).1 = .ok ["first", "second"] := rfl
  refine ⟨⟨_, hsetting, rfl, rfl⟩, hmemory, hdatabase, ?_⟩
  rw [List.forall_mem_cons, List.forall_mem_singleton, keepsTo_iff le_rfl, keepsTo_iff le_rfl]
  refine ⟨⟨fun h => ?_, fun h => ?_⟩, fun h => ?_, fun h => ?_⟩
  · exact absurd (h nextDay _ hmemory) (by decide)
  · exact absurd (h nextDay _ hmemory) (by decide)
  · exact absurd (h nextDay _ hdatabase) (by decide)
  · exact absurd (h nextDay _ hdatabase) (by decide)

end Execution

end FunnelFlow
