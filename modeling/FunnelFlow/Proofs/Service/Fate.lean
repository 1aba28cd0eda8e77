import FunnelFlow.Proofs.Run.Pause
import FunnelFlow.Proofs.Run.Trail
import FunnelFlow.Proofs.Service.Discipline
import FunnelFlow.Proofs.Service.Taking

namespace FunnelFlow

open Activity

namespace Run

variable {policy : RetryPolicy} {f : Funnel} {now : Instant} {r r' : Run} {e : HistoryEntry}

inductive Fate where
  | failed
  | completed
  | waits
  | goesOn
  | retries
  deriving DecidableEq, Repr

/-- The run after the step met this fate. The entry is the one that the step recorded. -/
def Fate.Befalls (policy : RetryPolicy) (f : Funnel) (now : Instant) (r r' : Run)
    (e : HistoryEntry) : Fate → Prop
  | .failed => r'.status = .failed
  | .completed => r'.status = .completed ∧ r'.attempts = 0
  | .waits => r'.status = .waiting ∧ r'.attempts = 0 ∧ r'.nextAttemptAt = none ∧
      ∃ n hours, f.node? r.currentNodeId = some n ∧
        n.action = .delay hours (some r'.currentNodeId) ∧
        r'.resumeAt = some (now.after (hours * 3600))
  | .goesOn => r'.status = .running ∧ r'.attempts = 0 ∧ r'.nextAttemptAt = none ∧
      ∃ n label, f.node? r.currentNodeId = some n ∧ e.outcome.edge? = some label ∧
        ⟨label, some r'.currentNodeId⟩ ∈ n.edges
  | .retries => r'.status = .running ∧ r'.currentNodeId = r.currentNodeId ∧
      r'.attempts = r.attempts + 1 ∧ r'.attempts < policy.maxAttempts ∧
      r'.nextAttemptAt = some (now.after (policy.backoffSeconds * 2 ^ r.attempts.toNat))

/-- What a step at an instant does to a run: one entry is added, and what is kept is kept. -/
structure Continues (now : Instant) (r r' : Run) (e : HistoryEntry) : Prop where
  history : r'.history = r.history ++ [e]
  nodeId : e.nodeId = some r.currentNodeId
  enteredAt : e.enteredAt = now
  origin : r'.origin = r.origin
  createdAt : r'.createdAt = r.createdAt
  updatedAt : r'.updatedAt = some now
  resumeAt : r'.resumeAt.isSome = true ↔ r'.status = .waiting

structure Meets (policy : RetryPolicy) (f : Funnel) (now : Instant) (r r' : Run) (fate : Fate) :
    Prop where
  changed : r' ≠ r
  entry : ∃ e, r.Continues now r' e ∧ fate.Befalls policy f now r r' e

structure IsResumed (now : Instant) (r : Run) : Prop where
  status : r.status = .running
  resumeAt : r.resumeAt = none
  updatedAt : r.updatedAt = some now

theorem resume_isResumed (hopen : r.isTerminal = false)
    (hpause : r.resumeAt.isSome = true ↔ r.status = .waiting) : (r.resume now).IsResumed now := by
  refine ⟨resume_status hopen, ?_, ?_⟩
  · unfold resume
    split
    · rfl
    · next hwaiting => simpa [hwaiting] using hpause
  · unfold resume
    split <;> rfl

theorem resume_createdAt : (r.resume now).createdAt = r.createdAt := by
  unfold resume
  split <;> rfl

theorem advance_continues (hr : r.IsResumed now) (outcome : Outcome)
    (reason target : Option String) :
    r.Continues now ((r.record now outcome reason).advance target)
      ⟨some r.currentNodeId, now, outcome, reason⟩ := by
  cases target with
  | none => exact ⟨rfl, rfl, rfl, rfl, rfl, hr.updatedAt, by simp [advance, record, hr.resumeAt]⟩
  | some target =>
    exact ⟨rfl, rfl, rfl, rfl, rfl, hr.updatedAt, by simp [advance, record, hr.resumeAt]⟩

theorem exists_befalls_of_advance {n : Node} {outcome : Outcome} {label : EdgeLabel}
    {reason target : Option String} (hn : f.node? r.currentNodeId = some n)
    (hlabel : outcome.edge? = some label) (hedge : ⟨label, target⟩ ∈ n.edges) :
    ∃ fate : Fate, fate.Befalls policy f now r ((r.record now outcome reason).advance target)
      ⟨some r.currentNodeId, now, outcome, reason⟩ := by
  cases target with
  | none => exact ⟨.completed, rfl, rfl⟩
  | some target => exact ⟨.goesOn, rfl, rfl, rfl, n, label, hn, hlabel, hedge⟩

theorem exists_befalls_of_failAttempt {kind : FailureKind} {reason : String}
    (hr : r.IsResumed now) (hattempts : 0 ≤ r.attempts)
    (h : r.failAttempt policy now kind reason = .ok r') :
    ∃ e, r.Continues now r' e ∧
      (Fate.failed.Befalls policy f now r r' e ∨ Fate.retries.Befalls policy f now r r' e) := by
  rcases failAttempt_eq_ok h with ⟨_, rfl⟩ | ⟨_, hmore, again, hagain, rfl⟩
  · exact ⟨_, ⟨rfl, rfl, rfl, rfl, rfl, hr.updatedAt, by simp [record, hr.resumeAt]⟩, .inl rfl⟩
  · obtain ⟨span, hspan, hplus⟩ := except_bind_eq_ok_iff.mp hagain
    have hseconds := Span.ofSeconds_of_ofDoubledSeconds hattempts hspan
    obtain rfl := Instant.eq_after (except_bind_eq_ok_iff.mpr ⟨span, hseconds, hplus⟩)
    exact ⟨_, ⟨rfl, rfl, rfl, rfl, rfl, hr.updatedAt, by simp [record, hr.resumeAt, hr.status]⟩,
      .inr ⟨hr.status, rfl, rfl, hmore, rfl⟩⟩

theorem Progress.exists_befalls (h : Progress policy f now r r') (hr : r.IsResumed now)
    (hattempts : 0 ≤ r.attempts) :
    ∃ e fate, r.Continues now r' e ∧ Fate.Befalls policy f now r r' e fate := by
  cases h with
  | dangled =>
    exact ⟨_, .failed,
      ⟨rfl, rfl, rfl, rfl, rfl, hr.updatedAt, by simp [dangle, record, hr.resumeAt]⟩, rfl⟩
  | @branched n test whenTrue whenFalse hn haction result =>
    have hedge : ⟨if result then .whenTrue else .whenFalse,
        if result then whenTrue else whenFalse⟩ ∈ n.edges := by
      cases result <;> simp [Node.edges, haction, Action.edges]
    have hlabel : (if result then Outcome.branchTrue else .branchFalse).edge? =
        some (if result then .whenTrue else .whenFalse) := by
      cases result <;> rfl
    obtain ⟨fate, hfate⟩ := exists_befalls_of_advance hn hlabel hedge
    exact ⟨_, fate, advance_continues hr _ _ _, hfate⟩
  | delayed hn haction hdelay =>
    rcases delay_eq_ok hdelay with ⟨_, rfl⟩ | ⟨target, _, rfl, hagain, rfl⟩
    · exact ⟨_, .completed, advance_continues hr _ _ _, rfl, rfl⟩
    · obtain rfl := Instant.eq_after hagain
      exact ⟨_, .waits, ⟨rfl, rfl, rfl, rfl, rfl, hr.updatedAt, by simp⟩, rfl, rfl, rfl, _, _, hn,
        haction, rfl⟩
  | @sent n next hn _ hedges =>
    have hedge : ⟨.next, next⟩ ∈ n.edges := by simp [hedges]
    have hlabel : Outcome.sent.edge? = some .next := rfl
    obtain ⟨fate, hfate⟩ := exists_befalls_of_advance hn hlabel hedge
    exact ⟨_, fate, advance_continues hr _ _ _, hfate⟩
  | failed _ _ hfail =>
    obtain ⟨e, hcontinues, hfate | hfate⟩ := exists_befalls_of_failAttempt hr hattempts hfail
    · exact ⟨e, .failed, hcontinues, hfate⟩
    · exact ⟨e, .retries, hcontinues, hfate⟩

def fate (r : Run) : Fate :=
  match r.status with
  | .failed => .failed
  | .completed => .completed
  | .waiting => .waits
  | .running => if r.nextAttemptAt.isSome then .retries else .goesOn

theorem Fate.Befalls.fate_eq {fate : Fate} (h : fate.Befalls policy f now r r' e) :
    r'.fate = fate := by
  cases fate with
  | failed => simp [Run.fate, show r'.status = .failed from h]
  | completed => simp [Run.fate, h.1]
  | waits => simp [Run.fate, h.1]
  | goesOn => simp [Run.fate, h.1, h.2.2.1]
  | retries => simp [Run.fate, h.1, h.2.2.2.2]

theorem Meets.fate_eq {fate : Fate} (h : r.Meets policy f now r' fate) : r'.fate = fate := by
  obtain ⟨_, _, hfate⟩ := h.entry
  exact hfate.fate_eq

theorem meets_of_resume {fate : Fate} (hcontinues : (r.resume now).Continues now r' e)
    (hfate : fate.Befalls policy f now (r.resume now) r' e) : r.Meets policy f now r' fate := by
  have hhistory : r'.history = r.history ++ [e] := by simpa using hcontinues.history
  -- the entry alone tells the two runs apart
  have hchanged : r' ≠ r := by
    rintro rfl
    simpa using congrArg List.length hhistory
  refine ⟨hchanged, e, ⟨hhistory, ?_, hcontinues.enteredAt, ?_, ?_, hcontinues.updatedAt,
    hcontinues.resumeAt⟩, ?_⟩
  · simpa using hcontinues.nodeId
  · exact hcontinues.origin.trans resume_origin
  · exact hcontinues.createdAt.trans resume_createdAt
  · cases fate <;> simpa [Fate.Befalls] using hfate

theorem existsUnique_of_meets {fate : Fate} (h : r.Meets policy f now r' fate) :
    ∃! fate, r.Meets policy f now r' fate :=
  ⟨fate, h, fun _ hother => hother.fate_eq.symm.trans h.fate_eq⟩

/-- Only a node that is missing makes a difference to a run whose attributes are. -/
theorem attributesUnavailableAt_some (n : Node) (reason : String) :
    r.attributesUnavailableAt policy (some n) now reason =
      r.attributesUnavailable policy now reason := by
  unfold attributesUnavailableAt
  cases h : r.attributesUnavailable policy now reason with
  | error e => rfl
  | ok failed =>
    obtain ⟨eligible, heligible, _⟩ := except_bind_eq_ok_iff.mp h
    simp [heligible, bind, Except.bind]

section Eligible

variable (hattempts : 0 ≤ r.attempts) (hpause : r.resumeAt.isSome = true ↔ r.status = .waiting)
  (heligible : r.isEligible now = .ok true)
include hattempts hpause heligible

theorem step_meets {attributes : Fields} {deliver : SendRequest → Delivery} {result : StepResult}
    (h : r.step policy f now attributes deliver = .ok result) :
    ∃! fate, r.Meets policy f now result.run fate := by
  have hresumed : (r.resume now).IsResumed now :=
    resume_isResumed (isTerminal_eq_false_of_isEligible heligible) hpause
  rcases step_eq_ok h with ⟨hidle, _⟩ | ⟨_, hprogress⟩
  · simp [heligible] at hidle
  · obtain ⟨e, fate, hcontinues, hfate⟩ :=
      hprogress.exists_befalls hresumed (by rwa [resume_attempts])
    exact existsUnique_of_meets (meets_of_resume hcontinues hfate)

theorem attributesUnavailableAt_meets {n : Node} {reason : String}
    (h : r.attributesUnavailableAt policy (some n) now reason = .ok r') :
    r.Meets policy f now r' .failed ∨ r.Meets policy f now r' .retries := by
  have hresumed : (r.resume now).IsResumed now :=
    resume_isResumed (isTerminal_eq_false_of_isEligible heligible) hpause
  have hfail : (r.resume now).failAttempt policy now .transient reason = .ok r' := by
    rwa [attributesUnavailableAt_some, attributesUnavailable, heligible] at h
  obtain ⟨e, hcontinues, hfate⟩ :=
    exists_befalls_of_failAttempt hresumed (by rwa [resume_attempts]) hfail
  exact hfate.imp (meets_of_resume hcontinues) (meets_of_resume hcontinues)

end Eligible

end Run

namespace Execution

variable {x : Execution} {f : Funnel} {now : Instant} {r : Run}

structure LeavesAlone (x : Execution) (f : Funnel) (now : Instant) (r : Run) : Prop where
  asks_nobody : ∀ attributes, x.step r f now attributes = pure ⟨r, none⟩
  step : ∀ attributes (transport : SendRequest → Except Fault Delivery),
    (r.step x.policy f now attributes fun message => .ofAttempt (transport message)) = .ok ⟨r, none⟩
  unavailable : ∀ n reason, r.attributesUnavailableAt x.policy (some n) now reason = .ok r

/-- The run meets exactly one fate, whatever the transport does, and fails or is tried again where
attributes are missing. -/
structure MovesOn (x : Execution) (f : Funnel) (now : Instant) (r : Run) : Prop where
  step : ∀ attributes (transport : SendRequest → Except Fault Delivery) result,
    (r.step x.policy f now attributes fun message => .ofAttempt (transport message)) = .ok result →
      ∃! fate, r.Meets x.policy f now result.run fate
  logged : ∀ attributes s log result s',
    (x.step r f now attributes).Logged s log (.ok result) s' →
      ∃! fate, r.Meets x.policy f now result.run fate
  unavailable : ∀ n reason r', r.attributesUnavailableAt x.policy (some n) now reason = .ok r' →
    (∃! fate, r.Meets x.policy f now r' fate) ∧
      (r.Meets x.policy f now r' .failed ∨ r.Meets x.policy f now r' .retries)
  /-- Missing attributes count like a message that was lost. -/
  alike : ∀ n attributes reason, f.node? r.currentNodeId = some n →
    n.kind = .email ∨ n.kind = .whatsApp →
      r.attributesUnavailableAt x.policy (some n) now reason =
        (r.step x.policy f now attributes fun _ => .failed .transient reason).map (·.run)

theorem leavesAlone_of_not_isEligible (hidle : r.isEligible now = .ok false) :
    x.LeavesAlone f now r := by
  have hmove attributes : r.move f now attributes = .ok (.settled r) := by
    simp [Run.move, hidle, bind, Except.bind]
  constructor
  · intro attributes
    rw [Execution.step, hmove attributes]
    rfl
  · intro attributes transport
    rw [Run.step, hmove attributes]
    rfl
  · intro n reason
    rw [Run.attributesUnavailableAt_some, Run.attributesUnavailable, hidle]
    rfl

theorem exists_step_of_logged {attributes : Fields} {s s' : Stored MemoryStore} {log : Log}
    {result : StepResult} (h : (x.step r f now attributes).Logged s log (.ok result) s') :
    ∃ deliver sent, r.step x.policy f now attributes deliver = .ok ⟨result.run, sent⟩ := by
  obtain ⟨move, hmove, hsettles⟩ := (step_logged h).2.2 result rfl
  unfold Run.step
  rw [hmove]
  cases move with
  | settled run =>
    obtain ⟨_, hrun⟩ := hsettles
    exact ⟨fun _ => .accepted, none, by rw [hrun]; rfl⟩
  | sending run message next =>
    obtain ⟨delivery, _, hsettle⟩ := hsettles
    refine ⟨fun _ => delivery, some message, ?_⟩
    simp [bind, Except.bind, hsettle]

theorem unavailable_eq_step {policy : RetryPolicy} {n : Node} {attributes : Fields}
    {reason : String} (heligible : r.isEligible now = .ok true)
    (hn : f.node? r.currentNodeId = some n) (hkind : n.kind = .email ∨ n.kind = .whatsApp) :
    r.attributesUnavailable policy now reason =
      (r.step policy f now attributes fun _ => .failed .transient reason).map (·.run) := by
  have hmove : ∃ message next,
      r.move f now attributes = .ok (.sending (r.resume now) message next) := by
    obtain ⟨id, position, label, action⟩ := n
    cases action with
    | email | whatsApp =>
      simp [Run.move, Run.moveAt, heligible, bind, Except.bind, hn]
    | condition | delay => simp [Node.kind, Action.kind] at hkind
  obtain ⟨message, next, hmove⟩ := hmove
  rw [Run.attributesUnavailable, Run.step, heligible, hmove]
  cases hfail : (r.resume now).failAttempt policy now .transient reason <;>
    simp [bind, Except.bind, Except.map, Run.settle, hfail]

/-- A step leaves a run alone that is not eligible. Any other run it changes, and the run then meets
one of five fates: it fails, is completed, waits after a delay, goes on along an edge, or stays to
be tried again after a pause that doubles with each failure. -/
theorem step_meets_one_fate (x : Execution) (f : Funnel) (now : Instant) (r : Run)
    (hattempts : 0 ≤ r.attempts) (hpause : r.resumeAt.isSome = true ↔ r.status = .waiting) :
    (r.isEligible now = .ok false → x.LeavesAlone f now r) ∧
      (r.isEligible now = .ok true → x.MovesOn f now r) := by
  refine ⟨leavesAlone_of_not_isEligible, fun heligible => ⟨?_, ?_, ?_, ?_⟩⟩
  · intro attributes transport result h
    exact Run.step_meets hattempts hpause heligible h
  · intro attributes s log result s' h
    obtain ⟨deliver, sent, hstep⟩ := exists_step_of_logged h
    simpa using Run.step_meets hattempts hpause heligible hstep
  · intro n reason r' h
    have hfate := Run.attributesUnavailableAt_meets (f := f) hattempts hpause heligible h
    exact ⟨hfate.elim Run.existsUnique_of_meets Run.existsUnique_of_meets, hfate⟩
  · intro n attributes reason hn hkind
    rw [Run.attributesUnavailableAt_some]
    exact unavailable_eq_step heligible hn hkind

def lostOnce : Run :=
  { Run.welcomeRun with
    attempts := 1, nextAttemptAt := some ⟨60000000, none⟩, updatedAt := some ⟨0, none⟩
    history := [⟨some "hello", ⟨0, none⟩, .retry, some "no route"⟩] }

theorem welcome_meets_one_fate :
    (∀ r ∈ [Run.welcomeRun, lostOnce],
      0 ≤ r.attempts ∧ (r.resumeAt.isSome = true ↔ r.status = .waiting)) ∧
    Run.welcomeRun.isEligible ⟨0, none⟩ = .ok true ∧
    Run.welcomeRun.Meets ⟨3, 60⟩ .welcome ⟨0, none⟩ lostOnce .retries ∧
    lostOnce.isEligible ⟨59999999, none⟩ = .ok false ∧
    Service.worker.LeavesAlone .welcome ⟨59999999, none⟩ lostOnce := by
  have hallowed : ∀ r ∈ [Run.welcomeRun, lostOnce],
      0 ≤ r.attempts ∧ (r.resumeAt.isSome = true ↔ r.status = .waiting) := by decide
  obtain ⟨hattempts, hpause⟩ := hallowed Run.welcomeRun (by simp)
  obtain ⟨hattempts', hpause'⟩ := hallowed lostOnce (by simp)
  have hmoves :=
    (step_meets_one_fate Service.worker .welcome ⟨0, none⟩ _ hattempts hpause).2 rfl
  have halone :=
    (step_meets_one_fate Service.worker .welcome ⟨59999999, none⟩ _ hattempts' hpause').1 rfl
  obtain ⟨fate, hmeets, _⟩ :=
    hmoves.step [] (fun _ => .ok (.failed .transient "no route")) ⟨lostOnce, _⟩ rfl
  obtain rfl : Run.Fate.retries = fate := hmeets.fate_eq
  exact ⟨hallowed, rfl, hmeets, rfl, halone⟩

end Execution

end FunnelFlow
