import FunnelFlow.Proofs.Run.Pause
import FunnelFlow.Proofs.Service.Release
import FunnelFlow.Proofs.Service.Rest

namespace FunnelFlow

open Activity Relation

namespace Run

variable {policy : RetryPolicy} {r : Run}

theorem moves_orphan (r : Run) (now : Instant) :
    ReflTransGen (Moves policy) r (Execution.orphan r now) := by
  have hterminal := Execution.orphan_isTerminal r now
  unfold Execution.orphan at hterminal ⊢
  split
  · exact .refl
  · next hopen => exact .single (.closed rfl rfl (by simpa using hopen) rfl)

theorem moves_cancelled (r : Run) (now : Instant) :
    ReflTransGen (Moves policy) r (Execution.cancelled r now) := by
  unfold Execution.cancelled
  split
  · exact .refl
  · next hopen => exact .single (.closed rfl rfl (by simpa using hopen) rfl)

end Run

namespace Execution

/-- What can happen to a store, as far as one run is concerned: the run is executed or cancelled,
whatever the peers answer, or something else happens that leaves the run alone. -/
inductive Happens (policy : RetryPolicy) (id : String) (s s' : Stored MemoryStore) : Prop
  | executed {x : Execution} {now : Instant} {log : Log} {result : Except Fault Run}
    (hpolicy : x.policy = policy) (hrun : (x.execute id (some now)).Logged s log result s')
  | cancelled {x : Execution} {now : Instant} {log : Log} {result : Except Fault Run}
    (hrun : (x.cancel id (some now)).Logged s log result s')
  | changed (hdocument : s'.data.runs.get? id = s.data.runs.get? id)

variable {policy : RetryPolicy} {x : Execution} {f : Funnel} {owner : String} {now : Instant}
  {r r' taken : Run} {s s' : Stored MemoryStore} {log : Log} {result : Except Fault Run}
  {found : Except Fault (Option Funnel)} {runs : List Run} {definition : Option Funnel}
  {earlier rest : List HistoryEntry} {entry : HistoryEntry} {seconds : Int}

theorem Steps.moves (h : x.Steps now definition r r') : Run.Moves x.policy r r' := by
  obtain ⟨f, _, heligible, hprogress⟩ := h
  exact .step heligible hprogress

theorem moves_of_isChain (h : (r :: runs).IsChain (x.Steps now definition)) :
    ReflTransGen (Run.Moves x.policy) r (runs.getLastD r) := by
  induction runs generalizing r with
  | nil => exact .refl
  | cons taken runs ih =>
    obtain ⟨hsteps, hrest⟩ := List.isChain_cons_cons.mp h
    rw [List.getLastD_cons]
    exact .head hsteps.moves (ih hrest)

theorem exists_step_of_mem (h : (r :: runs).IsChain (x.Steps now definition))
    (htaken : taken ∈ runs) :
    ∃ before, ReflTransGen (Run.Moves x.policy) r before ∧ x.Steps now definition before taken ∧
      ReflTransGen (Run.Moves x.policy) taken (runs.getLastD r) := by
  induction runs generalizing r with
  | nil => cases htaken
  | cons next runs ih =>
    obtain ⟨hsteps, hrest⟩ := List.isChain_cons_cons.mp h
    rw [List.getLastD_cons]
    rcases List.mem_cons.mp htaken with rfl | htaken
    · exact ⟨r, .refl, hsteps, moves_of_isChain hrest⟩
    · obtain ⟨before, hbefore, hstep, hlast⟩ := ih hrest htaken
      exact ⟨before, .head hsteps.moves hbefore, hstep, hlast⟩

theorem not_isPrefix {history : List HistoryEntry} (hnew : history <+: earlier) :
    ¬ earlier ++ [entry] <+: history := by
  intro hentry
  have hlength := (hentry.trans hnew).length_le
  rw [List.length_append, List.length_singleton] at hlength
  omega

theorem exists_mem_of_history (h : (r :: runs).IsChain (x.Steps now definition))
    (hnew : r.history <+: earlier) (hentry : earlier ++ [entry] <+: (runs.getLastD r).history) :
    ∃ taken ∈ runs, taken.history = earlier ++ [entry] := by
  induction runs generalizing r with
  | nil => exact absurd hentry (not_isPrefix hnew)
  | cons next runs ih =>
    obtain ⟨hsteps, hrest⟩ := List.isChain_cons_cons.mp h
    rw [List.getLastD_cons] at hentry
    -- the histories only grow, and by one entry at a time, so none of them leaps over `earlier`
    have hfound : next.history = earlier ++ [entry] ∨ next.history <+: earlier := by
      have hnext := Run.isPrefix_of_moves (moves_of_isChain hrest)
      rcases List.prefix_or_prefix_of_prefix hnext hentry with hbefore | hafter
      · exact List.prefix_concat_iff.mp hbefore
      · obtain ⟨e, hhistory, _⟩ := hsteps.moves.exists_entry
        rw [hhistory] at hafter ⊢
        rcases List.prefix_concat_iff.mp hafter with hsame | hshort
        · exact .inl hsame.symm
        · exact absurd hshort (not_isPrefix hnew)
    rcases hfound with hfound | hbefore
    · exact ⟨next, List.mem_cons_self, hfound⟩
    · obtain ⟨taken, htaken, hfound⟩ := ih hrest hbefore hentry
      exact ⟨taken, List.mem_cons_of_mem _ htaken, hfound⟩

theorem pendsUntil_of_mem (h : (r :: runs).IsChain (x.Steps now definition)) (hr : r.CountsRetries)
    (hpause : Pause x.policy definition earlier entry seconds) (htaken : taken ∈ runs)
    (hhistory : taken.history = earlier ++ [entry]) :
    entry.enteredAt = now ∧ taken.PendsUntil (now.after seconds) := by
  obtain ⟨before, hbefore, ⟨f, rfl, heligible, hprogress⟩, _⟩ := exists_step_of_mem h htaken
  obtain ⟨e, hrecords⟩ := Run.exists_records_of_isEligible heligible hprogress
  obtain ⟨rfl, hsame⟩ := List.append_inj' (hrecords.history.symm.trans hhistory) rfl
  obtain rfl := List.singleton_inj.mp hsame
  exact ⟨hrecords.enteredAt, hrecords.pendsUntil ((hr.moves hbefore).resume heligible) hpause⟩

theorem Executed.moves {work : Log} {driven : Except Fault Run}
    (h : x.Executed now r s log result s' found work runs driven) :
    ReflTransGen (Run.Moves x.policy) r (latest r runs driven) := by
  obtain ⟨owner, hcourse⟩ := h.course
  cases hcourse with
  | unread e => exact .refl
  | orphaned => exact Run.moves_orphan r now
  | stepped hstages hstops =>
    rw [hstops.latest_eq]
    exact moves_of_isChain hstages.isChain

theorem Happens.exists_moves (h : Happens policy r.id s s') (hstores : s.data.Stores r) :
    ∃ r' : Run, r'.id = r.id ∧ s'.data.Stores r' ∧ ReflTransGen (Run.Moves policy) r r' := by
  cases h with
  | @executed x now log result hpolicy hrun =>
    subst hpolicy
    by_cases hfree : s.data.isLocked r.id now = .ok false
    · obtain ⟨found, work, runs, driven, h⟩ := execute_logged hstores hfree hrun
      obtain ⟨owner, hcourse⟩ := h.course
      exact ⟨_, hcourse.latest_id, h.stores, h.moves⟩
    · obtain ⟨_, rfl, _⟩ := execute_refused hstores hfree hrun
      exact ⟨r, rfl, hstores, .refl⟩
  | @cancelled x now log result hrun =>
    by_cases hfree : s.data.isLocked r.id now = .ok false
    · obtain ⟨_, _, hdata⟩ := cancel_logged hstores hfree hrun
      refine ⟨Execution.cancelled r now, cancelled_id r now, ?_, Run.moves_cancelled r now⟩
      rw [hdata]
      exact MemoryStore.stores_putRun
    · obtain ⟨_, rfl, _⟩ := cancel_refused hstores hfree hrun
      exact ⟨r, rfl, hstores, .refl⟩
  | changed hdocument => exact ⟨r, rfl, hstores.congr hdocument, .refl⟩

theorem moves_of_happens (h : ReflTransGen (Happens policy r.id) s s') (hstores : s.data.Stores r)
    (hstores' : s'.data.Stores r') (hid : r'.id = r.id) : ReflTransGen (Run.Moves policy) r r' := by
  have hmoves : ∃ last : Run, last.id = r.id ∧ s'.data.Stores last ∧
      ReflTransGen (Run.Moves policy) r last := by
    clear hstores'
    induction h with
    | refl => exact ⟨r, rfl, hstores, .refl⟩
    | tail _ hnext ih =>
      obtain ⟨mid, hmid, hstored, hbefore⟩ := ih
      rw [← hmid] at hnext
      obtain ⟨last, hlast, hstored', hafter⟩ := hnext.exists_moves hstored
      exact ⟨last, hlast.trans hmid, hstored', hbefore.trans hafter⟩
  obtain ⟨last, hlast, hstored, hmoves⟩ := hmoves
  obtain rfl : r' = last := hstored.eq hstores' (hid.trans hlast.symm)
  exact hmoves

theorem start_countsRetries (e : Event) (f : Funnel) (id : String) (now : Instant) :
    (e.start f id now).CountsRetries := fun _ => rfl

/-- Once an entry asks for a pause, the run rests: as the step saved it and as it is left behind. -/
theorem Executed.restsUntil {work : Log} {driven : Except Fault Run}
    (h : x.Executed now r s log result s' found work runs driven) (hr : r.CountsRetries)
    (hnew : r.history <+: earlier) (hentry : earlier ++ [entry] <+: (latest r runs driven).history)
    (hpause : Pause x.policy log.definition? earlier entry seconds) :
    entry.enteredAt = now ∧
      (latest r runs driven).RestsUntil (now.after seconds) (earlier ++ [entry]) ∧
      ∀ taken ∈ runs, taken.history = earlier ++ [entry] →
        taken.PendsUntil (now.after seconds) := by
  obtain ⟨owner, hcourse⟩ := h.course
  rw [h.definition] at hpause
  cases hcourse with
  | unread e => exact absurd hentry (not_isPrefix hnew)
  | orphaned =>
    -- the entry would be that the definition is gone, which asks for no pause
    have hentry : earlier ++ [entry] <+: (orphan r now).history := hentry
    unfold orphan at hentry
    split at hentry
    · exact absurd hentry (not_isPrefix hnew)
    · rcases List.prefix_concat_iff.mp hentry with hsame | hshort
      · obtain ⟨_, hsame⟩ := List.append_inj' hsame rfl
        obtain rfl := List.singleton_inj.mp hsame
        rcases hpause.outcome with houtcome | houtcome <;> cases houtcome
      · exact absurd hshort (not_isPrefix hnew)
  | @stepped f done failed runs driven hstages hstops =>
    have hchain := hstages.isChain
    rw [hstops.latest_eq] at hentry ⊢
    obtain ⟨taken, htaken, hhistory⟩ := exists_mem_of_history hchain hnew hentry
    obtain ⟨hinstant, hpends⟩ := pendsUntil_of_mem hchain hr hpause htaken hhistory
    obtain ⟨_, _, _, hmoves⟩ := exists_step_of_mem hchain htaken
    have hrests : taken.RestsUntil (now.after seconds) (earlier ++ [entry]) :=
      .pending hhistory hpends
    refine ⟨hinstant, hrests.moves hmoves, fun again hagain hhistory' => ?_⟩
    exact (pendsUntil_of_mem hchain hr hpause hagain hhistory').2

theorem isEligible_of_outbound (hstores : s.data.Stores r)
    (h : (x.execute r.id (some now)).Logged s log result s') (hcalls : log.outbound ≠ []) :
    r.isEligible now = .ok true := by
  by_cases hfree : s.data.isLocked r.id now = .ok false
  · obtain ⟨found, work, runs, driven, h⟩ := execute_logged hstores hfree h
    obtain ⟨owner, hcourse⟩ := h.course
    rw [h.outbound] at hcalls
    exact hcourse.isEligible_of_outbound hcalls
  · obtain ⟨_, _, hcloses⟩ := execute_refused hstores hfree h
    exact absurd hcloses.1 hcalls

theorem exists_later_of_restsUntil {t : Instant} (hstores : s.data.Stores r)
    (h : r.RestsUntil (t.after seconds) (earlier ++ [entry])) :
    ∃ later, r.history = earlier ++ entry :: later ∧
      (∀ next, later.find? (!·.isClosing) = some next → t.HavePassed seconds next.enteredAt) ∧
      (later.find? (!·.isClosing) = none →
        ∀ (y : Execution) now log result s', (y.execute r.id (some now)).Logged s log result s' →
          log.outbound ≠ [] → t.HavePassed seconds now) := by
  cases h with
  | pending hhistory hpends =>
    refine ⟨[], hhistory, by simp, fun _ y now log result s' hrun hcalls => ?_⟩
    apply Instant.havePassed_of_hasCome
    rw [← hpends now]
    exact isEligible_of_outbound hstores hrun hcalls
  | @closed e hhistory hclosing hterminal =>
    refine ⟨[e], by simpa using hhistory, by simp [hclosing], ?_⟩
    intro _ y now log result s' hrun hcalls
    have heligible := isEligible_of_outbound hstores hrun hcalls
    simp [Run.isEligible_of_isTerminal hterminal] at heligible
  | @resumed e later hhistory hopen hcome =>
    refine ⟨e :: later, by simpa using hhistory, ?_, by simp [hopen]⟩
    intro next hnext
    obtain rfl : e = next := by simpa [hopen] using hnext
    exact Instant.havePassed_of_hasCome hcome

/-- No step is taken before the pause is over that the last entry asks for, and until then nobody is
asked for anything: neither by the rest of the execution that appended the entry nor by another one. -/
theorem execute_keeps_pauses {e : Event} {f₀ : Funnel} {id : String} {now₀ : Instant}
    {s₀ s₁ s₂ : Stored MemoryStore} {r₁ r₂ : Run}
    (hstart : s₀.data.Stores (e.start f₀ id now₀))
    (hbefore : ReflTransGen (Happens x.policy id) s₀ s) (hstores : s.data.Stores r) (hid : r.id = id)
    (hrun : (x.execute id (some now)).Logged s log result s₁)
    (hstores₁ : s₁.data.Stores r₁) (hid₁ : r₁.id = id)
    (hnew : r.history <+: earlier) (hentry : r₁.history = earlier ++ entry :: rest)
    (hpause : Pause x.policy log.definition? earlier entry seconds)
    (hafter : ReflTransGen (Happens x.policy id) s₁ s₂) (hstores₂ : s₂.data.Stores r₂)
    (hid₂ : r₂.id = id) :
    (∀ before written after taken, log = before ++ written :: after →
      written.saved? = some taken → taken.history = earlier ++ [entry] →
      Log.outbound after ≠ [] → entry.enteredAt.HavePassed seconds now) ∧
    ∃ later, r₂.history = earlier ++ entry :: later ∧
      (∀ next, later.find? (!·.isClosing) = some next →
        entry.enteredAt.HavePassed seconds next.enteredAt) ∧
      (later.find? (!·.isClosing) = none →
        ∀ (y : Execution) now' log' result' s₃,
          (y.execute id (some now')).Logged s₂ log' result' s₃ → log'.outbound ≠ [] →
          entry.enteredAt.HavePassed seconds now') := by
  subst hid
  have hcounts : r.CountsRetries :=
    (start_countsRetries e f₀ r.id now₀).moves (moves_of_happens hbefore hstart hstores rfl)
  have hprefix : earlier ++ [entry] <+: r₁.history := ⟨rest, by simp [hentry]⟩
  have hfree : s.data.isLocked r.id now = .ok false := by
    -- an execution that is refused the lock appends nothing
    by_contra hlocked
    obtain ⟨_, rfl, _⟩ := execute_refused hstores hlocked hrun
    obtain rfl := hstores.eq hstores₁ hid₁
    exact not_isPrefix hnew hprefix
  obtain ⟨found, work, runs, driven, h⟩ := execute_logged hstores hfree hrun
  obtain ⟨owner, hcourse⟩ := h.course
  obtain rfl : r₁ = latest r runs driven :=
    h.stores.eq hstores₁ (hid₁.trans hcourse.latest_id.symm)
  obtain ⟨hinstant, hrests, hpends⟩ := h.restsUntil hcounts hnew hprefix hpause
  rw [hinstant]
  constructor
  · intro before written after taken hlog hwritten hhistory hcalls
    obtain ⟨htaken, heligible⟩ := h.isEligible_of_saved hlog hwritten
    apply Instant.havePassed_of_hasCome
    rw [← hpends taken htaken hhistory now]
    exact heligible hcalls
  · have hmoves := moves_of_happens (hid₁ ▸ hafter) hstores₁ hstores₂ (hid₂.trans hid₁.symm)
    rw [← hid₂]
    exact exists_later_of_restsUntil hstores₂ (hrests.moves hmoves)

end Execution

namespace Service

open Execution

def firstRun : Run := subscribed.start (reminder 24) "run" ⟨0, none⟩

def begun : Stored MemoryStore := ⟨.first, (keeping (reminder 24)).putRun firstRun⟩

def firstDay : Activity Run := worker.execute "run" (some ⟨0, none⟩)

theorem logged_firstDay :
    firstDay.Logged begun (firstDay.logIn (still ⟨0, none⟩ "token") begun) (.ok waitingRun)
      parked :=
  logged_run (still_served ⟨0, none⟩ "token") firstDay begun

theorem logged_retry :
    nextDay.Logged parked (nextDay.logIn (still ⟨86400000000, none⟩ "token") parked) (.ok retriedRun)
      retried :=
  logged_run (still_served ⟨86400000000, none⟩ "token") nextDay parked

theorem firstDay_pause : Pause worker.policy
    (firstDay.logIn (still ⟨0, none⟩ "token") begun).definition? []
    ⟨some "wait", ⟨0, none⟩, .waiting, none⟩ (24 * 3600) :=
  .delay rfl rfl rfl rfl rfl

theorem nextDay_pause : Pause worker.policy
    (nextDay.logIn (still ⟨86400000000, none⟩ "token") parked).definition? waitingRun.history
    ⟨some "mail", ⟨86400000000, none⟩, .retry, some "Transport error: "⟩ (60 * 2 ^ (1 - 1)) :=
  .retry rfl rfl

/-- The reminder waits for a day. Then its message fails, and for a minute nobody is asked again. -/
theorem reminder_keeps_pauses :
    begun.data.Stores firstRun ∧ parked.data.Stores waitingRun ∧ retried.data.Stores retriedRun ∧
    Instant.HavePassed ⟨0, none⟩ (24 * 3600) ⟨86400000000, none⟩ ∧
    ∀ log result s', (worker.execute "run" (some ⟨86459000000, none⟩)).Logged retried log result s' →
      log.outbound = [] := by
  have hbegun : begun.data.Stores firstRun := MemoryStore.stores_putRun
  have hparked : parked.data.Stores waitingRun := MemoryStore.stores_putRun
  have hretried : retried.data.Stores retriedRun := MemoryStore.stores_putRun
  have hfirst : Happens worker.policy "run" begun parked := .executed rfl logged_firstDay
  have hnext : Happens worker.policy "run" parked retried := .executed rfl logged_retry
  refine ⟨hbegun, hparked, hretried, ?_, ?_⟩
  · obtain ⟨_, later, hhistory, hlater, _⟩ := execute_keeps_pauses hbegun .refl hbegun rfl
      logged_firstDay hparked rfl List.nil_prefix rfl firstDay_pause (.single hnext) hretried rfl
    obtain ⟨_, rfl⟩ := List.cons.inj hhistory
    exact hlater _ rfl
  · obtain ⟨_, later, hhistory, _, hidle⟩ := execute_keeps_pauses hbegun (.single hfirst) hparked
      rfl logged_retry hretried rfl List.prefix_rfl rfl nextDay_pause .refl hretried rfl
    obtain rfl : [] = later := by simpa [retriedRun] using hhistory
    intro log result s' hrun
    by_contra hcalls
    have hpassed := (hidle rfl worker _ log result s' hrun hcalls).2
    revert hpassed
    decide

end Service

end FunnelFlow
