import Mathlib.Algebra.Order.Floor.Div
import FunnelFlow.Proofs.Service.Release
import FunnelFlow.Proofs.Service.Scheduling

/-!
Passes of the scheduler, one after the other and at one instant. A pass takes the first of the runs
that are due. A run that is due is executed in it or due after it, and no other run becomes due; so
each run has its turn, unless those before it are left due too often.
-/

namespace FunnelFlow

open Activity

def LogEntry.acquired? : LogEntry → Option String
  | ⟨.store (.acquireRun id _ _), _⟩ => some id
  | _ => none

def Log.acquired (log : Log) : List String := log.filterMap LogEntry.acquired?

theorem Log.acquired_append (log log' : Log) :
    Log.acquired (log ++ log') = log.acquired ++ log'.acquired :=
  List.filterMap_append

theorem Log.mem_acquired_append {log log' : Log} {id : String} :
    id ∈ Log.acquired (log ++ log') ↔ id ∈ log.acquired ∨ id ∈ log'.acquired := by
  rw [Log.acquired_append, List.mem_append]

theorem Activity.mem_logIn {α : Type} {act : Activity α} {s : Stored MemoryStore} {e : LogEntry}
    {answer : (r : Request) → Stored MemoryStore → r.Answer × Stored MemoryStore}
    (h : e ∈ act.logIn answer s) : ∃ s', e.answer = (answer e.request s').1 := by
  induction act generalizing s with
  | done result => cases h
  | ask q resume ih =>
    rcases List.mem_cons.mp h with rfl | h
    · exact ⟨s, rfl⟩
    · exact ih _ h

namespace MemoryStore

variable {m : MemoryStore} {s : Stored MemoryStore} {now : Instant} {id : String} {r last : Run}

def IsReadyAs (m : MemoryStore) (now : Instant) (id : String) : Prop :=
  ∃ r, r.id = id ∧ m.Stores r ∧ m.isReady now r = true

structure IsQuiet (m : MemoryStore) : Prop extends m.IsTidy where
  ends (id : String) (lock : Lock) (hlock : m.runLocks.get? id = some lock) :
    ∃ t, lock.acquiredAt.plus m.runTtl = .ok t

namespace IsQuiet

theorem hasPlainLocks (h : m.IsQuiet) : m.HasPlainLocks := ⟨h.locks, h.ends⟩

theorem release (h : m.IsQuiet) (hlast : last.IsPunctual) :
    ((m.putRun last).unlockRun id).IsQuiet where
  funnels := h.funnels
  runs := h.runs.putRun hlast
  distinct := Table.nodup_keys_set h.distinct _ _
  locks id' lock hlock := h.locks id' lock (Table.of_get?_erase_eq_some hlock).2
  ends id' lock hlock := h.ends id' lock (Table.of_get?_erase_eq_some hlock).2

end IsQuiet

theorem IsReadyAs.congr {m' : MemoryStore} (h : m.IsReadyAs now id)
    (hruns : m'.runs.get? id = m.runs.get? id) (hlocks : m'.runLocks.get? id = m.runLocks.get? id)
    (httl : m'.runTtl = m.runTtl) : m'.IsReadyAs now id := by
  obtain ⟨r, rfl, hstores, hready⟩ := h
  obtain ⟨hfree, hdue⟩ := isReady_iff.mp hready
  refine ⟨r, rfl, hstores.congr hruns, isReady_iff.mpr ⟨?_, hdue⟩⟩
  rwa [isLocked, hlocks, httl]

theorem Releases.isReadyAs_iff {m' : MemoryStore} (h : m.Releases last m') (hid : id ≠ last.id) :
    m'.IsReadyAs now id ↔ m.IsReadyAs now id := by
  constructor
  · exact fun hready => hready.congr (h.runs id hid).symm (h.runLocks id hid).symm h.ttls.1.symm
  · exact fun hready => hready.congr (h.runs id hid) (h.runLocks id hid) h.ttls.1

end MemoryStore

namespace Execution

variable {x : Execution} {f : Funnel} {owner : String} {now : Instant} {r : Run}
  {s s' : Stored MemoryStore} {log : Log} {runs : List Run} {result : Except Fault Run}

theorem Stages.last_isPunctual (hnow : now.zone = none) (hr : r.IsPunctual)
    (h : x.Stages f owner now r log runs) : (runs.getLastD r).IsPunctual := by
  induction h with
  | nil r => exact hr
  | cons heligible htakes _ _ ih =>
    rw [List.getLastD_cons]
    exact ih (hr.progress hnow heligible htakes.progress)

theorem Course.latest_isPunctual {found : Except Fault (Option Funnel)} (hnow : now.zone = none)
    (hr : r.IsPunctual) (h : x.Course owner now r found log runs result) :
    (latest r runs result).IsPunctual := by
  cases h with
  | unread e => exact hr
  | orphaned => exact hr.orphan now
  | stepped hstages hstops =>
    rw [hstops.latest_eq]
    exact hstages.last_isPunctual hnow hr

theorem acquired_of_execute {id : String} (h : (x.execute id (some now)).Logged s log result s') :
    id ∈ log.acquired := by
  rw [execute_eq] at h
  obtain ⟨t, rest, rfl, hlock⟩ := h.of_token_bind
  rcases hlock.of_bind with ⟨e, hrefused, _⟩ | ⟨r, s₁, log₁, log₂, hgranted, _, rfl⟩
  · obtain ⟨rfl, _⟩ := hrefused.of_store
    exact List.mem_singleton_self id
  · obtain ⟨rfl, _⟩ := hgranted.of_store
    exact List.mem_cons_self

theorem execute_quiet (hnow : now.zone = none) (hquiet : s.data.IsQuiet) {id : String}
    (hready : s.data.IsReadyAs now id)
    (h : (x.execute id (some now)).Logged s log result s') :
    s'.data.IsQuiet ∧ ∀ id', id' ≠ id → (s'.data.IsReadyAs now id' ↔ s.data.IsReadyAs now id') := by
  obtain ⟨r, rfl, hstores, hready⟩ := hready
  obtain ⟨hfree, _⟩ := MemoryStore.isReady_iff.mp hready
  obtain ⟨found, work, runs, driven, h⟩ := execute_logged hstores hfree h
  obtain ⟨owner, hcourse⟩ := h.course
  have hlast := hcourse.latest_isPunctual hnow (hquiet.runs.of_stores hstores)
  have hreleases := s.data.releases_unlockRun (latest r runs driven)
  rw [hcourse.latest_id] at hreleases
  rw [h.data]
  refine ⟨hquiet.release hlast, fun id' hid => hreleases.isReadyAs_iff ?_⟩
  rwa [hcourse.latest_id]

theorem executeAll_quiet (hnow : now.zone = none) (hquiet : s.data.IsQuiet) {ids : List String}
    (hids : ids.Nodup) (hready : ∀ id ∈ ids, s.data.IsReadyAs now id)
    {results : Except Fault (List Run)} (h : (x.executeAll now ids).Logged s log results s') :
    s'.data.IsQuiet ∧ (∀ id ∈ ids, id ∈ log.acquired) ∧
      ∀ id, id ∉ ids → (s'.data.IsReadyAs now id ↔ s.data.IsReadyAs now id) := by
  induction ids generalizing s log results with
  | nil =>
    obtain ⟨rfl, rfl, rfl⟩ := h.of_pure
    exact ⟨hquiet, by simp, fun _ _ => .rfl⟩
  | cons id ids ih =>
    obtain ⟨hid, hids⟩ := List.nodup_cons.mp hids
    obtain ⟨hready, hrest⟩ := List.forall_mem_cons.mp hready
    obtain ⟨mid, s₁, log₁, log₂, hexecute, hnext, rfl⟩ := h.of_attempt_bind
    obtain ⟨hquiet₁, hsame₁⟩ := execute_quiet hnow hquiet hready hexecute
    have hrest₁ : ∀ id' ∈ ids, s₁.data.IsReadyAs now id' := fun id' hid' =>
      (hsame₁ id' (ne_of_mem_of_not_mem hid' hid)).mpr (hrest id' hid')
    obtain ⟨results', hall⟩ : ∃ results', (x.executeAll now ids).Logged s₁ log₂ results' s' := by
      cases mid <;>
      · obtain ⟨results', hall, _⟩ := Logged.of_map hnext
        exact ⟨results', hall⟩
    obtain ⟨hquiet', hacquired, hsame⟩ := ih hquiet₁ hids hrest₁ hall
    refine ⟨hquiet', List.forall_mem_cons.mpr ⟨?_, fun id' hid' => ?_⟩, fun id' hid' => ?_⟩
    · exact Log.mem_acquired_append.mpr (.inl (acquired_of_execute hexecute))
    · exact Log.mem_acquired_append.mpr (.inr (hacquired id' hid'))
    · obtain ⟨hne, hnot⟩ := List.ne_and_not_mem_of_not_mem_cons hid'
      exact (hsame id' hnot).trans (hsame₁ id' hne)

theorem passOrder_nil {due : List String} (hdue : due.Nodup) : passOrder [] due = due := by
  have hfold (front : List String) (h : (front ++ due).Nodup) :
      due.foldl (fun ids id => if ids.contains id then ids else ids ++ [id]) front =
        front ++ due := by
    induction due generalizing front with
    | nil => rw [List.foldl_nil, List.append_nil]
    | cons id due ih =>
      have hid : ¬ front.contains id = true := by
        rw [List.contains_iff_mem]
        exact fun hin => List.disjoint_of_nodup_append h hin List.mem_cons_self
      rw [List.append_cons] at h
      rw [List.foldl_cons, if_neg hid, ih (List.nodup_cons.mp hdue).2 _ h, ← List.append_cons]
  exact hfold [] hdue

end Execution

structure Pass where
  log : Log
  due : List String

/-- How many of the runs that the pass executed are due again at the same instant. -/
def Pass.left (p : Pass) : Nat := p.due.countP (· ∈ p.log.acquired)

namespace Service

variable {runTtl funnelTtl : Span} {s s' : Stored MemoryStore} {acts : List (Activity Unit)}
  {x : Execution} {batch : Nat} {now : Instant} {due : List String} {log : Log}

/-- Passes at one instant, one after the other, while nothing is asked for and nothing else is
done. -/
inductive Passes (x : Execution) (batch : Nat) (now : Instant) :
    Stored MemoryStore → List Pass → Stored MemoryStore → Prop
  | nil (s : Stored MemoryStore) : Passes x batch now s [] s
  | cons {s s₁ s' : Stored MemoryStore} {p : Pass} {passes : List Pass}
    {results : Except Fault (List Run)}
    (hpass : (x.pass batch (some now)).Logged s p.log results s₁)
    (hasked : ∀ asked : List String, (⟨.drain, asked⟩ : LogEntry) ∈ p.log → asked = [])
    (hdue : AreReady s₁ now p.due) (hrest : Passes x batch now s₁ passes s') :
    Passes x batch now s (p :: passes) s'

theorem AreReady.mem_iff_isReadyAs (hquiet : s.data.IsQuiet) (h : AreReady s now due)
    {id : String} : id ∈ due ↔ s.data.IsReadyAs now id := by
  have hstored {r : Run} (hr : s.data.Stores r) : r.id ∈ due ↔ s.data.isReady now r = true := by
    rw [h.mem_iff.of_stores hr "", hr.succeeds_acquireRun_iff, MemoryStore.isReady_iff,
      (hquiet.runs.of_stores hr).isDue_eq]
  constructor
  · intro hid
    obtain ⟨document, hdocument⟩ := Option.ne_none_iff_exists'.mp fun hnone =>
      Table.get?_eq_none_iff.mp hnone (h.inOrder.subset hid)
    obtain ⟨r, rfl, rfl, _⟩ := hquiet.runs id document hdocument
    exact ⟨r, rfl, hdocument, (hstored hdocument).mp hid⟩
  · rintro ⟨r, rfl, hr, hready⟩
    exact (hstored hr).mpr hready

theorem areReady_of_runs (rs : List Run) (hquiet : s.data.IsQuiet)
    (hruns : s.data.runs = rs.map MemoryStore.runEntry) :
    AreReady s now ((rs.filter (s.data.isReady now)).map (·.id)) := by
  have hrs : ∀ r ∈ rs, s.data.Stores r := by
    intro r hr
    have hentry : MemoryStore.runEntry r ∈ s.data.runs := by
      rw [hruns]
      exact List.mem_map_of_mem hr
    exact Table.get?_of_mem hquiet.distinct hentry
  have hsublist := MemoryStore.ready_sublist hruns now
  refine ⟨hsublist, hsublist.nodup hquiet.distinct,
    hquiet.keepsRuns fun r hr hpunctual owner => ?_⟩
  rw [hr.mem_ready_iff hruns hrs, hr.succeeds_acquireRun_iff, MemoryStore.isReady_iff,
    hpunctual.isDue_eq]

theorem pass_eq (x : Execution) (batch : Nat) (now : Instant) : x.pass batch (some now) =
    drain >>= fun asked : List String =>
      (store (.dueRuns now batch) : Activity (List String)) >>= fun due =>
        x.executeAll now (Execution.passOrder asked due) := rfl

/-- A pass executes the first of the runs that are due, and leaves the others due as they are. -/
theorem pass_quiet (hnow : now.zone = none) (hquiet : s.data.IsQuiet) (hbatch : 1 ≤ batch)
    (hdue : AreReady s now due) {results : Except Fault (List Run)}
    (hasked : ∀ asked : List String, (⟨.drain, asked⟩ : LogEntry) ∈ log → asked = [])
    (hpass : (x.pass batch (some now)).Logged s log results s') :
    s'.data.IsQuiet ∧ ∃ ready : List String, ready.Perm due ∧
      (∀ id ∈ ready.take batch, id ∈ log.acquired) ∧
      ∀ id, id ∉ ready.take batch → (s'.data.IsReadyAs now id ↔ s.data.IsReadyAs now id) := by
  obtain ⟨rs, hruns, hrs⟩ := hquiet.exists_runs
  have hready : AreReady s now _ := areReady_of_runs rs hquiet hruns
  have hanswer := MemoryStore.answer_dueRuns hquiet.hasPlainLocks hnow hruns
    (fun r hr => (hrs r hr).2.isPlain) (Int.ofNat_le.mpr hbatch)
  generalize (rs.filter (s.data.isReady now)).map (·.id) = ready at hready hanswer
  have hperm : ready.Perm due := by
    rw [List.perm_ext_iff_of_nodup hready.nodup hdue.nodup]
    exact fun id => (hready.mem_iff_isReadyAs hquiet).trans (hdue.mem_iff_isReadyAs hquiet).symm
  have htake : (ready.take batch).Nodup := hready.nodup.sublist (List.take_sublist _ _)
  rw [pass_eq] at hpass
  obtain ⟨asked, rest, rfl, hrest⟩ := hpass.of_request_bind (by rintro _ ⟨⟩)
  obtain rfl : asked = [] := hasked asked List.mem_cons_self
  obtain ⟨rest, rfl, hall⟩ := hrest.of_store_bind hanswer
  rw [Int.toNat_natCast, Execution.passOrder_nil htake] at hall
  have hexecuted := Execution.executeAll_quiet hnow hquiet htake
    (fun id hid => (hready.mem_iff_isReadyAs hquiet).mp (List.mem_of_mem_take hid)) hall
  exact ⟨hexecuted.1, ready, hperm, hexecuted.2⟩

/-- As long as a run has not had its turn, each pass took a whole batch of others. -/
theorem Passes.length_mul_lt {passes : List Pass} (hnow : now.zone = none) (hbatch : 1 ≤ batch)
    (h : Passes x batch now s passes s') (hquiet : s.data.IsQuiet) (hdue : AreReady s now due)
    {id : String} (hid : id ∈ due) (hnot : ∀ p ∈ passes, id ∉ p.log.acquired) :
    batch * passes.length < due.length + (passes.map Pass.left).sum := by
  induction h generalizing due with
  | nil s => simpa using List.length_pos_of_mem hid
  | @cons s s₁ s' p passes results hpass hasked hdue₁ hrest ih =>
    obtain ⟨hnot, hnots⟩ := List.forall_mem_cons.mp hnot
    obtain ⟨hquiet₁, ready, hperm, hacquired, hsame⟩ :=
      pass_quiet hnow hquiet hbatch hdue hasked hpass
    have hid₁ : id ∈ p.due := by
      have hnot' : id ∉ ready.take batch := fun hin => hnot (hacquired id hin)
      rw [hdue₁.mem_iff_isReadyAs hquiet₁, hsame id hnot', ← hdue.mem_iff_isReadyAs hquiet]
      exact hid
    have hih := ih hquiet₁ hdue₁ hid₁ hnots
    -- as the run was passed over, the batch was full
    have hfull : batch ≤ ready.length := by
      by_contra hshort
      refine hnot (hacquired id ?_)
      rw [List.take_of_length_le (by omega)]
      exact hperm.mem_iff.mpr hid
    -- what is due after the pass and was not executed in it was waiting behind the batch
    have hsub : p.due.filter (· ∉ p.log.acquired) ⊆ ready.drop batch := by
      intro id' hid'
      obtain ⟨hin, hout⟩ := List.mem_filter.mp hid'
      have hnot' : id' ∉ ready.take batch := fun h => of_decide_eq_true hout (hacquired id' h)
      rw [hdue₁.mem_iff_isReadyAs hquiet₁, hsame id' hnot', ← hdue.mem_iff_isReadyAs hquiet,
        ← hperm.mem_iff, ← List.take_append_drop batch ready, List.mem_append] at hin
      exact hin.resolve_left hnot'
    have hlength := (List.subperm_of_subset (hdue₁.nodup.filter _) hsub).length_le
    have hcount : p.due.length = p.left + (p.due.filter (· ∉ p.log.acquired)).length := by
      rw [← List.countP_eq_length_filter, Pass.left,
        List.length_eq_countP_add_countP (· ∈ p.log.acquired)]
      simp
    rw [List.length_drop, hperm.length_eq] at hlength
    rw [hperm.length_eq] at hfull
    simp only [List.map_cons, List.sum_cons, List.length_cons]
    rw [Nat.mul_succ]
    omega

/-- As many passes as it takes to go through the runs that are due, and through those that were
executed and are due again, execute each run that is due before them at least once. -/
theorem InProgress.due_runs_have_their_turn (h : InProgress runTtl funnelTtl s acts)
    (hends : ∀ id lock, s.data.runLocks.get? id = some lock →
      ∃ t, lock.acquiredAt.plus s.data.runTtl = .ok t)
    (hnow : now.zone = none) :
    ∃ due, AreReady s now due ∧
      ∀ (x : Execution) (batch : Nat) (passes : List Pass) (s' : Stored MemoryStore), 1 ≤ batch →
        Passes x batch now s passes s' →
        (due.length + (passes.map Pass.left).sum) ⌈/⌉ batch ≤ passes.length →
        ∀ id ∈ due, ∃ p ∈ passes, id ∈ p.log.acquired := by
  have hquiet : s.data.IsQuiet := ⟨h.isTidy.1, hends⟩
  obtain ⟨rs, hruns, _⟩ := hquiet.exists_runs
  have hdue : AreReady s now _ := areReady_of_runs rs hquiet hruns
  refine ⟨_, hdue, fun x batch passes s' hbatch hpasses henough id hid => ?_⟩
  by_contra hnot
  have hlt := hpasses.length_mul_lt hnow hbatch hquiet hdue hid fun p hp hin => hnot ⟨p, hp, hin⟩
  rw [ceilDiv_le_iff_le_mul hbatch] at henough
  omega

def newcomer (hours : Int) (id : String) : Run := subscribed.start (reminder hours) id ⟨0, none⟩

def pair (hours : Int) : Stored MemoryStore :=
  ⟨.first, ((keeping (reminder hours)).putRun (newcomer hours "first")).putRun
    (newcomer hours "second")⟩

theorem inProgress_pair {hours : Int} (hvalid : (reminder hours).violations = []) :
    ∃ acts, InProgress ⟨300000000⟩ ⟨300000000⟩ (pair hours) acts := by
  let dispatch : Operation ⟨3, 60⟩ := .dispatch subscribed false (some ⟨0, none⟩)
  obtain ⟨acts, hsaved⟩ := inProgress_reminder hvalid
  have hfirst := hsaved.run dispatch (isPlain_some rfl) "first"
  exact ⟨_, hfirst.run dispatch (isPlain_some rfl) "second"⟩

def afterPass (s : Stored MemoryStore) : Stored MemoryStore :=
  ((worker.pass 1 (some ⟨0, none⟩)).run (still ⟨0, none⟩ "token") s).2

def passLog (s : Stored MemoryStore) : Log :=
  (worker.pass 1 (some ⟨0, none⟩)).logIn (still ⟨0, none⟩ "token") s

theorem drain_passLog {asked : List String} (h : (⟨.drain, asked⟩ : LogEntry) ∈ passLog s) :
    asked = [] := by
  obtain ⟨_, hasked⟩ := Activity.mem_logIn h
  exact hasked

theorem afterPass_quiet (hquiet : s.data.IsQuiet) : (afterPass s).data.IsQuiet := by
  obtain ⟨rs, hruns, _⟩ := hquiet.exists_runs
  have hdue : AreReady s ⟨0, none⟩ _ := areReady_of_runs rs hquiet hruns
  have hlogged := logged_run (still_served ⟨0, none⟩ "token") (worker.pass 1 (some ⟨0, none⟩)) s
  exact (pass_quiet rfl hquiet (Nat.le_refl 1) hdue (fun _ => drain_passLog) hlogged).1

theorem passes_cons (rs : List Run) {passes : List Pass} (hquiet : s.data.IsQuiet)
    (hruns : (afterPass s).data.runs = rs.map MemoryStore.runEntry)
    (hdue : (rs.filter ((afterPass s).data.isReady ⟨0, none⟩)).map (·.id) = due)
    (hrest : Passes worker 1 ⟨0, none⟩ (afterPass s) passes s') :
    Passes worker 1 ⟨0, none⟩ s (⟨passLog s, due⟩ :: passes) s' := by
  have hready : AreReady (afterPass s) ⟨0, none⟩ due :=
    hdue ▸ areReady_of_runs rs (afterPass_quiet hquiet) hruns
  exact .cons (logged_run (still_served _ _) _ s) (fun _ => drain_passLog) hready hrest

theorem pair_ends {hours : Int} (id : String) (lock : Lock)
    (h : (pair hours).data.runLocks.get? id = some lock) :
    ∃ t, lock.acquiredAt.plus (pair hours).data.runTtl = .ok t := by
  cases h

theorem pair_quiet {hours : Int} (hvalid : (reminder hours).violations = []) :
    (pair hours).data.IsQuiet := by
  obtain ⟨acts, h⟩ := inProgress_pair hvalid
  exact ⟨h.isTidy.1, pair_ends⟩

/-- The first pass makes the first run wait, and the second pass the second. -/
def twoPasses : List Pass :=
  [⟨passLog (pair 24), ["second"]⟩, ⟨passLog (afterPass (pair 24)), []⟩]

theorem passes_pair :
    Passes worker 1 ⟨0, none⟩ (pair 24) twoPasses (afterPass (afterPass (pair 24))) := by
  let first := { waitingRun with id := "first" }
  have hquiet := pair_quiet reminder_violations
  refine passes_cons [first, newcomer 24 "second"] hquiet rfl rfl ?_
  exact passes_cons [first, { waitingRun with id := "second" }] (afterPass_quiet hquiet) rfl rfl
    (.nil _)

theorem pair_have_their_turn : (∃ acts, InProgress ⟨300000000⟩ ⟨300000000⟩ (pair 24) acts) ∧
    Passes worker 1 ⟨0, none⟩ (pair 24) twoPasses (afterPass (afterPass (pair 24))) ∧
    ∃ p ∈ twoPasses, "second" ∈ p.log.acquired := by
  obtain ⟨acts, h⟩ := inProgress_pair reminder_violations
  have hnow : (⟨0, none⟩ : Instant).zone = none := rfl
  obtain ⟨due, hdue, hturn⟩ := h.due_runs_have_their_turn pair_ends hnow
  refine ⟨⟨acts, h⟩, passes_pair, ?_⟩
  have hlength : due.length ≤ 2 := hdue.inOrder.length_le
  have hleft : (twoPasses.map Pass.left).sum = 0 := rfl
  have hsecond : "second" ∈ due := by
    rw [hdue.mem_iff_isReadyAs (pair_quiet reminder_violations)]
    exact ⟨newcomer 24 "second", rfl, MemoryStore.stores_putRun, rfl⟩
  apply hturn worker 1 twoPasses _ (Nat.le_refl 1) passes_pair _ "second" hsecond
  rw [hleft, ceilDiv_le_iff_le_mul Nat.one_pos, Nat.add_zero, Nat.one_mul]
  exact hlength

/-- The delay of the first run has no end, so that a pass executes it and leaves both runs due. -/
def stuckPass : Pass := ⟨passLog (pair 100000000), ["first", "second"]⟩

/-- However many passes are made, the second run may never be executed. -/
theorem second_never_acquired (n : Nat) : ∃ passes : List Pass, passes.length = n ∧
    Passes worker 1 ⟨0, none⟩ (pair 100000000) passes (pair 100000000) ∧
    ∀ p ∈ passes, "second" ∈ p.due ∧ "second" ∉ p.log.acquired := by
  induction n with
  | zero => exact ⟨[], rfl, .nil _, by simp⟩
  | succ n ih =>
    obtain ⟨passes, rfl, hpasses, hnever⟩ := ih
    have hstuck : "second" ∈ stuckPass.due ∧ "second" ∉ stuckPass.log.acquired := by
      have hfirst : stuckPass.log.acquired = ["first"] := rfl
      rw [hfirst]
      decide
    exact ⟨stuckPass :: passes, rfl,
      passes_cons [newcomer 100000000 "first", newcomer 100000000 "second"]
        (pair_quiet endless_violations) rfl rfl hpasses,
      List.forall_mem_cons.mpr ⟨hstuck, hnever⟩⟩

theorem turn_never_comes : ¬ ∀ (s s' : Stored MemoryStore) (acts : List (Activity Unit))
    (x : Execution) (batch : Nat) (now : Instant) (due : List String) (passes : List Pass),
    InProgress ⟨300000000⟩ ⟨300000000⟩ s acts →
    (∀ id lock, s.data.runLocks.get? id = some lock →
      ∃ t, lock.acquiredAt.plus s.data.runTtl = .ok t) →
    now.zone = none → AreReady s now due → 1 ≤ batch → Passes x batch now s passes s' →
    due.length ⌈/⌉ batch ≤ passes.length → ∀ id ∈ due, ∃ p ∈ passes, id ∈ p.log.acquired := by
  intro h
  obtain ⟨acts, hacts⟩ := inProgress_pair endless_violations
  have hdue : AreReady (pair 100000000) ⟨0, none⟩ ["first", "second"] :=
    areReady_of_runs [newcomer 100000000 "first", newcomer 100000000 "second"]
      (pair_quiet endless_violations) rfl
  obtain ⟨passes, hlength, hpasses, hnever⟩ := second_never_acquired 2
  obtain ⟨p, hp, hsecond⟩ := h _ _ acts _ _ _ _ passes hacts pair_ends rfl hdue (Nat.le_refl 1)
    hpasses (by rw [hlength]; decide) "second" (by simp)
  exact (hnever p hp).2 hsecond

end Service

end FunnelFlow
