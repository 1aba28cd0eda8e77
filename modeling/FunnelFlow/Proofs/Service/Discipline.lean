import FunnelFlow.Proofs.Service.Reachable

namespace FunnelFlow

namespace Run

structure Disciplined (policy : RetryPolicy) (r : Run) : Prop where
  waits : r.resumeAt.isSome = true ↔ r.status = .waiting
  retries : r.nextAttemptAt.isSome = true →
    r.status = .running ∧ 1 ≤ r.attempts ∧ r.attempts < policy.maxAttempts
  settled : r.status = .waiting ∨ r.status = .completed → r.attempts = 0

def lastOutcome (r : Run) : Option Outcome := r.history.getLast?.map (·.outcome)

def IsCutOff (r : Run) : Prop :=
  r.status = .failed ∧ (r.lastOutcome = some .funnelNotFound ∨
    r.lastOutcome = some .danglingEdge ∧ r.resumeAt = none)

@[simp] theorem lastOutcome_record (r : Run) (now : Instant) (outcome : Outcome)
    (reason : Option String) : (r.record now outcome reason).lastOutcome = some outcome := by
  simp [lastOutcome, record]

structure IsOrderly (policy : RetryPolicy) (r : Run) : Prop where
  attempts : 0 ≤ r.attempts
  fields : r.Disciplined policy ∨ r.IsCutOff

/-- A run as a step finds it, and as each way but one leaves it. -/
structure IsReady (policy : RetryPolicy) (r : Run) : Prop where
  attempts : 0 ≤ r.attempts
  resumeAt : r.resumeAt = none
  retries : r.nextAttemptAt.isSome = true → 1 ≤ r.attempts ∧ r.attempts < policy.maxAttempts

variable {policy : RetryPolicy} {r r' : Run} {f : Funnel} {now : Instant}

theorem IsOrderly.resume (h : r.IsOrderly policy) (hterminal : r.isTerminal = false) :
    (r.resume now).IsReady policy := by
  have hfields : r.Disciplined policy :=
    h.fields.resolve_right fun hcut => by simp [isTerminal, hcut.1] at hterminal
  by_cases hwaiting : r.status = .waiting
  · rw [Run.resume, if_pos hwaiting]
    exact ⟨h.attempts, rfl, fun hnext => (hfields.retries hnext).2⟩
  · rw [Run.resume, if_neg hwaiting]
    have hresume : r.resumeAt = none := by
      simpa using mt hfields.waits.mp hwaiting
    exact ⟨h.attempts, hresume, fun hnext => (hfields.retries hnext).2⟩

theorem IsReady.advance (h : r.IsReady policy) (target : Option String) :
    (r.advance target).IsOrderly policy := by
  refine ⟨?_, .inl ⟨?_, ?_, ?_⟩⟩ <;> cases target <;> simp [Run.advance, h.resumeAt]

theorem IsReady.record (h : r.IsReady policy) (outcome : Outcome) (reason : Option String) :
    (r.record now outcome reason).IsReady policy := ⟨h.attempts, h.resumeAt, h.retries⟩

theorem IsReady.progress (h : r.IsReady policy) (hstatus : r.status = .running)
    (hprogress : Progress policy f now r r') : r'.IsOrderly policy := by
  cases hprogress with
  | dangled => exact ⟨h.attempts, .inr ⟨rfl, .inr ⟨lastOutcome_record .., h.resumeAt⟩⟩⟩
  | branched _ _ result => exact (h.record _ _).advance _
  | sent => exact (h.record _ _).advance _
  | delayed _ _ hdelay =>
    rcases delay_eq_ok hdelay with ⟨_, rfl⟩ | ⟨target, resumeAt, _, _, rfl⟩
    · exact (h.record _ _).advance _
    · exact ⟨Int.le_refl 0, .inl ⟨by simp, by simp, fun _ => rfl⟩⟩
  | failed _ _ hfail =>
    have hattempts := h.attempts
    rcases failAttempt_eq_ok hfail with ⟨_, rfl⟩ | ⟨_, hmore, again, _, rfl⟩
    · refine ⟨Int.add_nonneg h.attempts (by decide), .inl ⟨?_, by simp, by simp⟩⟩
      simp [Run.record, h.resumeAt]
    · refine ⟨Int.add_nonneg h.attempts (by decide), .inl ⟨?_, fun _ => ⟨hstatus, ?_, hmore⟩, ?_⟩⟩
      · simp [Run.record, h.resumeAt, hstatus]
      · show 1 ≤ r.attempts + 1
        omega
      · simp [Run.record, hstatus]

end Run

theorem RetryPolicy.keeps_isOrderly (policy : RetryPolicy) :
    policy.Keeps fun r => r.IsOrderly policy where
  start e f id now :=
    ⟨Int.le_refl 0, .inl ⟨by simp [Event.start], by simp [Event.start], fun _ => rfl⟩⟩
  step hr heligible hprogress :=
    have hterminal := Run.isTerminal_eq_false_of_isEligible heligible
    (hr.resume hterminal).progress (Run.resume_status hterminal) hprogress
  orphan {r} hr now := by
    unfold Execution.orphan
    split
    · exact hr
    · exact ⟨hr.attempts, .inr ⟨rfl, .inl (Run.lastOutcome_record ..)⟩⟩
  cancelled {r} hr now := by
    unfold Execution.cancelled
    split
    · exact hr
    · exact ⟨hr.attempts, .inl ⟨by simp, by simp, by simp⟩⟩

/-- Every stored run is in order, unless it was cut off. -/
theorem Service.Reachable.disciplined {policy : RetryPolicy} {runTtl funnelTtl : Span}
    {s : Stored MemoryStore} (h : Reachable policy runTtl funnelTtl s) :
    s.data.KeepsRuns fun r => r.Disciplined policy ∨ r.IsCutOff := by
  intro id document hdocument
  obtain ⟨r, hid, hr, horderly⟩ := (h.keeps policy.keeps_isOrderly).2 id document hdocument
  exact ⟨r, hid, hr, horderly.fields⟩

namespace Service

open Activity

def reminder (hours : Int) : Funnel :=
  { id := "reminder", name := "Reminder", trigger := .leadSubscribed, isActive := true
    startNodeId := "wait"
    nodes := [
      { id := "wait", position := none, label := none, action := .delay hours (some "mail") },
      { id := "mail", position := none, label := none, action := .email "Hello" "" none }]
    createdAt := none, updatedAt := none }

theorem reminder_violations : (reminder 24).violations = [] :=
  Funnel.LeadsForward.violations_eq_nil (by decide) (by decide) (by decide) (by decide) (by decide)
    (by decide)

theorem endless_violations : (reminder 100000000).violations = [] :=
  Funnel.LeadsForward.violations_eq_nil (by decide) (by decide) (by decide) (by decide) (by decide)
    (by decide)

def stamped (f : Funnel) : Funnel :=
  { f with createdAt := some ⟨0, none⟩, updatedAt := some ⟨0, none⟩ }

/-- A store with a funnel that was saved at time zero. Its locks hold for five minutes. -/
def keeping (f : Funnel) : MemoryStore :=
  { MemoryStore.empty ⟨300000000⟩ ⟨300000000⟩ with
    funnels := [(f.id, .object (stamped f).toDocument)] }

def subscribed : Event := ⟨.leadSubscribed, "contact", [], none⟩

def waitingRun : Run := { subscribed.start (reminder 24) "run" ⟨0, none⟩ with
  currentNodeId := "mail", status := .waiting, resumeAt := some ⟨86400000000, none⟩
  history := [⟨some "wait", ⟨0, none⟩, .waiting, none⟩] }

def worker : Execution := ⟨⟨"whatsapp", "email"⟩, "contacts", ⟨3, 60⟩, "worker"⟩

theorem run_save {hours : Int} (hvalid : (reminder hours).violations = []) :
    (((Editing.Operation.save (.object (reminder hours).toDocument)).by "ada").run
      (still ⟨0, none⟩ "run") ⟨.first, .empty ⟨300000000⟩ ⟨300000000⟩⟩).2 =
    ⟨.first, keeping (reminder hours)⟩ := by
  have hread : readFunnel (Editing.ofDocument (.object (reminder hours).toDocument)) =
    pure (reminder hours) := rfl
  have hcheck : Editing.ensureActivatable (reminder hours) = pure () := by
    simp [Editing.ensureActivatable, hvalid]
  simp only [Editing.Operation.by, Editing.save, hread, pure_bind, Editing.write, hcheck]
  rfl

theorem run_save_reminder :
    (((Editing.Operation.save (.object (reminder 24).toDocument)).by "ada").run
      (still ⟨0, none⟩ "run") ⟨.first, .empty ⟨300000000⟩ ⟨300000000⟩⟩).2 =
    ⟨.first, keeping (reminder 24)⟩ := run_save reminder_violations

theorem reachable_reminder :
    Reachable ⟨3, 60⟩ ⟨300000000⟩ ⟨300000000⟩ ⟨.first, keeping (reminder 24)⟩ := by
  let save : Operation ⟨3, 60⟩ := .edit "ada" (.save (.object (reminder 24).toDocument))
  exact run_save_reminder ▸ (Reachable.empty .first).run (still_served ⟨0, none⟩ "run") save

def parked : Stored MemoryStore := ⟨.first, (keeping (reminder 24)).putRun waitingRun⟩

theorem reachable_parked : Reachable ⟨3, 60⟩ ⟨300000000⟩ ⟨300000000⟩ parked := by
  have hanswer := still_served ⟨0, none⟩ "run"
  have hstarted := reachable_reminder.run hanswer (.dispatch subscribed false (some ⟨0, none⟩))
  exact hstarted.run hanswer (.execute worker rfl "run" (some ⟨0, none⟩))

theorem parked_disciplined :
    Reachable ⟨3, 60⟩ ⟨300000000⟩ ⟨300000000⟩ parked ∧ parked.data.Stores waitingRun ∧
    parked.data.KeepsRuns fun r => r.Disciplined ⟨3, 60⟩ ∨ r.IsCutOff :=
  ⟨reachable_parked, MemoryStore.stores_putRun, reachable_parked.disciplined⟩

/-- A run that waits while its funnel is deleted keeps the time to be resumed at when it fails. -/
theorem not_disciplined_without_funnel :
    ¬ ∀ s, Reachable ⟨3, 60⟩ ⟨300000000⟩ ⟨300000000⟩ s →
      s.data.KeepsRuns fun r => r.Disciplined ⟨3, 60⟩ := by
  intro h
  have hanswer := still_served ⟨0, none⟩ "run"
  have hdeleted := reachable_parked.run hanswer (.edit "ada" (.delete "reminder"))
  let orphaned := Execution.orphan waitingRun ⟨0, none⟩
  have hfailed : Reachable ⟨3, 60⟩ ⟨300000000⟩ ⟨300000000⟩
      ⟨.first, { keeping (reminder 24) with funnels := [] }.putRun orphaned⟩ :=
    hdeleted.run hanswer (.execute worker rfl "run" (some ⟨0, none⟩))
  have hwaits := ((h _ hfailed).of_stores MemoryStore.stores_putRun).waits.mp rfl
  cases hwaits

end Service

end FunnelFlow
