import FunnelFlow.Proofs.Service.Alone
import FunnelFlow.Proofs.Service.Course
import FunnelFlow.Proofs.Service.Discipline

/-!
What an execution or a cancellation leaves behind that nothing else gets in the way of: the lock of
the run is given back however it ends, no completed step is lost, and the rest of the store is as it
was. A run that cannot be copied stays locked.
-/

namespace FunnelFlow

open Activity

/-- The run is unlocked and stored as `last`; nothing else has changed. -/
structure MemoryStore.Releases (m : MemoryStore) (last : Run) (m' : MemoryStore) : Prop where
  unlocked : m'.runLocks.get? last.id = none
  stores : m'.Stores last
  runs : ∀ id, id ≠ last.id → m'.runs.get? id = m.runs.get? id
  runLocks : ∀ id, id ≠ last.id → m'.runLocks.get? id = m.runLocks.get? id
  funnels : m'.funnels = m.funnels
  funnelLocks : m'.funnelLocks = m.funnelLocks
  ttls : m'.runTtl = m.runTtl ∧ m'.funnelTtl = m.funnelTtl

theorem MemoryStore.releases_unlockRun (m : MemoryStore) (last : Run) :
    m.Releases last ((m.putRun last).unlockRun last.id) where
  unlocked := Table.get?_erase_self _ _
  stores := stores_putRun
  runs _ hid := Table.get?_set_of_ne _ _ hid
  runLocks _ hid := Table.get?_erase_of_ne _ hid
  funnels := rfl
  funnelLocks := rfl
  ttls := ⟨rfl, rfl⟩

namespace Execution

variable {x : Execution} {f : Funnel} {owner : String} {now : Instant} {r r' : Run}
  {s s' : Stored MemoryStore} {log : Log} {result : Except Fault Run}

def Steps (x : Execution) (now : Instant) (definition : Option Funnel) (r r' : Run) : Prop :=
  ∃ f, definition = some f ∧ r.isEligible now = .ok true ∧
    Run.Progress x.policy f now (r.resume now) r'

theorem Stages.isChain {runs : List Run} (h : x.Stages f owner now r log runs) :
    (r :: runs).IsChain (x.Steps now (some f)) := by
  induction h with
  | nil r => exact .singleton r
  | cons heligible htakes _ _ ih =>
    exact List.isChain_cons_cons.mpr ⟨⟨f, rfl, heligible, htakes.progress⟩, ih⟩

theorem Course.isChain {found : Except Fault (Option Funnel)} {runs : List Run}
    (h : x.Course owner now r found log runs result) :
    (r :: runs).IsChain (x.Steps now found.toOption.join) := by
  cases h with
  | unread e => exact .singleton r
  | orphaned => exact .singleton r
  | stepped hstages _ => exact hstages.isChain

theorem latest_eq_of_ok {runs : List Run} {driven : Except Fault Run}
    (h : driven.mapError (refused r.id) = .ok r') : latest r runs driven = r' := by
  cases driven with
  | ok r'' => exact Except.ok.inj h
  | error e => cases h

theorem latest_eq_of_error {runs : List Run} {driven : Except Fault Run} {e : Fault}
    (h : driven.mapError (refused r.id) = .error e) :
    e.isRefusal = true ∧ latest r runs driven = runs.getLastD r := by
  cases driven with
  | ok r'' => cases h
  | error e' =>
    obtain rfl := Except.error.inj h
    exact ⟨refused_isRefusal r.id e', rfl⟩

/-- However an execution of a run ends that can be copied, the run is unlocked and stored as it was
returned, or as the last step left it that was saved, and nothing else has changed. So it is after a
cancellation. -/
theorem execute_and_cancel_release {levels : Nat} (hstores : s.data.Stores r)
    (hfree : s.data.isLocked r.id now = .ok false) (hshallow : r.payload.IsShallow levels) :
    (∀ log result s', (x.execute r.id (some now)).LoggedWithin levels s log result s' →
      ∃ last, last.id = r.id ∧ s.data.Releases last s'.data ∧
        (r :: log.saved).IsChain (x.Steps now log.definition?) ∧
        (∀ r', result = .ok r' → last = r') ∧
        ∀ e, result = .error e → e.isRefusal = true ∧ last = log.saved.getLastD r) ∧
    ∀ log result s', (x.cancel r.id (some now)).LoggedWithin levels s log result s' →
      result = .ok (cancelled r now) ∧ (cancelled r now).id = r.id ∧
        s.data.Releases (cancelled r now) s'.data := by
  constructor
  · intro log result s' hrun
    have hplain : (x.execute r.id (some now)).Logged s log result s' :=
      Task.execute.logged_of_isShallow hstores hshallow hrun
    obtain ⟨found, work, runs, driven, h⟩ := execute_logged hstores hfree hplain
    obtain ⟨owner, hcourse⟩ := h.course
    have hid := hcourse.latest_id
    refine ⟨latest r runs driven, hid, ?_, ?_, ?_, ?_⟩
    · rw [h.data, ← hid]
      exact s.data.releases_unlockRun _
    · rw [h.saved, h.definition]
      exact hcourse.isChain
    · intro r' hr'
      exact latest_eq_of_ok (h.result.symm.trans hr')
    · intro e he
      rw [h.saved]
      exact latest_eq_of_error (h.result.symm.trans he)
  · intro log result s' hrun
    have hplain : (x.cancel r.id (some now)).Logged s log result s' :=
      Task.cancel.logged_of_isShallow hstores hshallow hrun
    obtain ⟨hresult, _, hdata⟩ := cancel_logged hstores hfree hplain
    have hid := cancelled_id r now
    refine ⟨hresult, hid, ?_⟩
    rw [hdata, ← hid]
    exact s.data.releases_unlockRun _

end Execution

namespace Service

/-- The instant for which the run of the reminder waits, and the same reading with a zone, which
cannot be compared with it. -/
def tomorrow : Instant := ⟨86400000000, none⟩

def tomorrowInZone : Instant := ⟨86400000000, some 0⟩

def remindedRun : Run := { waitingRun with
  status := .completed, resumeAt := none, updatedAt := some tomorrow
  history := waitingRun.history ++ [⟨some "mail", tomorrow, .sent, none⟩] }

def reminding (now : Instant) : Activity Run := worker.execute waitingRun.id (some now)

def calledOff : Activity Run := worker.cancel waitingRun.id (some tomorrow)

theorem logged_parked (act : Activity Run) : act.LoggedWithin 4 parked
    (act.logIn (obliging tomorrow "token") parked) (act.run (obliging tomorrow "token") parked).1
    (act.run (obliging tomorrow "token") parked).2 :=
  (logged_run (obliging_served _ _) act parked).within 4

/-- The run of the reminder is executed, is executed at an instant that makes the step fail, and is
cancelled. -/
theorem parked_released :
    parked.data.Stores waitingRun ∧ parked.data.isLocked waitingRun.id tomorrow = .ok false ∧
    parked.data.isLocked waitingRun.id tomorrowInZone = .ok false ∧
    waitingRun.payload.IsShallow 4 ∧
    parked.data.Releases remindedRun
      ((reminding tomorrow).run (obliging tomorrow "token") parked).2.data ∧
    parked.data.Releases waitingRun
      ((reminding tomorrowInZone).run (obliging tomorrow "token") parked).2.data ∧
    parked.data.Releases (Execution.cancelled waitingRun tomorrow)
      (calledOff.run (obliging tomorrow "token") parked).2.data := by
  have hstores : parked.data.Stores waitingRun := MemoryStore.stores_putRun
  have hshallow : waitingRun.payload.IsShallow 4 := by decide
  refine ⟨hstores, rfl, rfl, hshallow, ?_, ?_, ?_⟩
  · obtain ⟨last, _, hreleases, _, hok, _⟩ := (Execution.execute_and_cancel_release hstores rfl
      hshallow).1 _ _ _ (logged_parked (reminding tomorrow))
    obtain rfl : last = remindedRun := hok remindedRun rfl
    exact hreleases
  · obtain ⟨last, _, hreleases, _, _, herror⟩ := (Execution.execute_and_cancel_release hstores rfl
      hshallow).1 _ _ _ (logged_parked (reminding tomorrowInZone))
    obtain rfl : last = waitingRun := (herror _ rfl).2
    exact hreleases
  · exact ((Execution.execute_and_cancel_release hstores rfl hshallow).2 _ _ _
      (logged_parked calledOff)).2.2

def deepRun : Run := { waitingRun with payload := .nested 600 }

theorem deepRun_deep : Rehearsal.mostLevels ≤ (Value.object deepRun.payload).height := by
  rw [deepRun, Fields.height_nested]
  decide

/-- An execution locks such a run before its copy fails, and nothing unlocks it. -/
theorem deepRun_keeps_lock : ¬ ∀ (x : Execution) (now : Instant) (r : Run)
    (s s' : Stored MemoryStore) (log : Log) (result : Except Fault Run), s.data.Stores r →
    s.data.isLocked r.id now = .ok false →
    (x.execute r.id (some now)).LoggedWithin Rehearsal.mostLevels s log result s' →
    s'.data.runLocks.get? r.id = none ∧ ∀ e, result = .error e → e.isRefusal = true := by
  intro h
  let s : Stored MemoryStore := ⟨.first, (keeping (reminder 24)).putRun deepRun⟩
  have hstores : s.data.Stores deepRun := MemoryStore.stores_putRun
  let call : StoreCall := .acquireRun "run" "worker:token" tomorrow
  have hdeep : s.data.copiesBeyond Rehearsal.mostLevels call = true :=
    MemoryStore.copiesBeyond_of_deep (hstores.mem_copied _ _) deepRun_deep
  have htoken : Served .token s "token" s := .outside (by rintro _ ⟨⟩) _ s
  have hrun : (worker.execute deepRun.id (some tomorrow)).LoggedWithin Rehearsal.mostLevels s
      [⟨.token, "token"⟩, ⟨.store call, .error .tooDeep⟩] (.error .tooDeep)
      ((MemoryStore.answerUncopied call).run s).2 :=
    .ask (.served htoken) (.ask (.uncopied call s hdeep) (.done _ _))
  obtain ⟨hunlocked, _⟩ := h _ _ _ _ _ _ _ hstores rfl hrun
  cases hunlocked

end Service

end FunnelFlow
