import FunnelFlow.Run.Step
import FunnelFlow.Proofs.Funnel.Cycles
import FunnelFlow.Proofs.Value.Checked

namespace FunnelFlow.Run

variable {policy : RetryPolicy} {f : Funnel} {now : Instant} {r r' : Run}

theorem isTerminal_eq_false_of_isEligible (h : r.isEligible now = .ok true) :
    r.isTerminal = false := by
  unfold isEligible at h
  split at h
  · cases h
  · next hterminal => exact Bool.eq_false_iff.mpr hterminal

section Resume

@[simp] theorem resume_currentNodeId : (r.resume now).currentNodeId = r.currentNodeId := by
  unfold resume
  split <;> rfl

@[simp] theorem resume_attempts : (r.resume now).attempts = r.attempts := by
  unfold resume
  split <;> rfl

@[simp] theorem resume_id : (r.resume now).id = r.id := by
  unfold resume
  split <;> rfl

@[simp] theorem resume_history : (r.resume now).history = r.history := by
  unfold resume
  split <;> rfl

theorem resume_status (h : r.isTerminal = false) : (r.resume now).status = .running := by
  unfold resume
  split
  · rfl
  · next hwaiting => cases hstatus : r.status <;> simp_all [isTerminal]

end Resume

inductive Progress (policy : RetryPolicy) (f : Funnel) (now : Instant) (r : Run) : Run → Prop
  | dangled (hnone : f.node? r.currentNodeId = none) : Progress policy f now r (r.dangle now f.id)
  | branched {n : Node} {test : Test} {whenTrue whenFalse : Option String}
    (hn : f.node? r.currentNodeId = some n)
    (haction : n.action = .condition test whenTrue whenFalse)
    (result : Bool) : Progress policy f now r (r.branch now result whenTrue whenFalse)
  | delayed {n : Node} {hours : Int} {next : Option String} {r' : Run}
    (hn : f.node? r.currentNodeId = some n) (haction : n.action = .delay hours next)
    (hdelay : r.delay now hours next = .ok r') : Progress policy f now r r'
  | sent {n : Node} {next : Option String} (hn : f.node? r.currentNodeId = some n)
    (hkind : n.kind = .email ∨ n.kind = .whatsApp) (hedges : n.edges = [⟨.next, next⟩]) :
    Progress policy f now r ((r.record now .sent none).advance next)
  | failed {n : Node} {kind : FailureKind} {reason : String} {r' : Run}
    (hn : f.node? r.currentNodeId = some n) (hkind : n.kind ≠ .delay)
    (hfail : r.failAttempt policy now kind reason = .ok r') : Progress policy f now r r'

@[simp] theorem advance_id (target : Option String) : (r.advance target).id = r.id := by
  cases target <;> rfl

@[simp] theorem advance_history (target : Option String) :
    (r.advance target).history = r.history := by
  cases target <;> rfl

@[simp] theorem advance_attempts (target : Option String) : (r.advance target).attempts = 0 := by
  cases target <;> rfl

theorem settle_progress {n : Node} {next : Option String} {delivery : Delivery}
    (hn : f.node? r.currentNodeId = some n) (hkind : n.kind = .email ∨ n.kind = .whatsApp)
    (hedges : n.edges = [⟨.next, next⟩]) (h : r.settle policy now next delivery = .ok r') :
    Progress policy f now r r' := by
  cases delivery with
  | accepted =>
    obtain rfl : (r.record now .sent none).advance next = r' := by simpa [settle] using h
    exact .sent hn hkind hedges
  | failed kind reason => exact .failed hn (by rcases hkind with h | h <;> simp [h]) h

theorem move_eq_ok {attributes : Fields} {move : Move}
    (h : r.move f now attributes = .ok move) :
    r.isEligible now = .ok false ∧ move = .settled r ∨
      r.isEligible now = .ok true ∧
        (f.node? r.currentNodeId = none ∧ move = .settled ((r.resume now).dangle now f.id) ∨
          ∃ n, f.node? r.currentNodeId = some n ∧
            (r.resume now).moveAt f.id n now attributes = .ok move) := by
  obtain ⟨eligible, heligible, h⟩ := except_bind_eq_ok_iff.mp h
  cases eligible with
  | false => exact .inl ⟨heligible, by simpa using h.symm⟩
  | true =>
    refine .inr ⟨heligible, ?_⟩
    dsimp only [if_true] at h
    rw [if_pos rfl, resume_currentNodeId] at h
    cases hnode : f.node? r.currentNodeId with
    | none =>
      rw [hnode] at h
      exact .inl ⟨rfl, by simpa using h.symm⟩
    | some n =>
      rw [hnode] at h
      exact .inr ⟨n, rfl, h⟩

theorem step_eq_ok {attributes : Fields} {deliver : SendRequest → Delivery} {result : StepResult}
    (h : r.step policy f now attributes deliver = .ok result) :
    r.isEligible now = .ok false ∧ result = ⟨r, none⟩ ∨
      r.isEligible now = .ok true ∧ Progress policy f now (r.resume now) result.run := by
  obtain ⟨move, hmove, h⟩ := except_bind_eq_ok_iff.mp h
  rcases move_eq_ok hmove with ⟨heligible, rfl⟩ | ⟨heligible, ⟨hnone, rfl⟩ | ⟨n, hn, hmove⟩⟩
  · exact .inl ⟨heligible, by simpa using h.symm⟩
  · refine .inr ⟨heligible, ?_⟩
    obtain rfl : StepResult.mk _ none = result := by simpa using h
    exact .dangled (by rwa [resume_currentNodeId])
  · refine .inr ⟨heligible, ?_⟩
    have hn : f.node? (r.resume now).currentNodeId = some n := by rwa [resume_currentNodeId]
    obtain ⟨id, position, label, action⟩ := n
    cases action with
    | condition test whenTrue whenFalse =>
      obtain ⟨holds, _, rfl⟩ := except_map_eq_ok_iff.mp hmove
      obtain rfl : StepResult.mk _ none = result := by simpa using h
      exact .branched hn rfl holds
    | delay hours next =>
      obtain ⟨delayed, hdelay, rfl⟩ := except_map_eq_ok_iff.mp hmove
      obtain rfl : StepResult.mk delayed none = result := by simpa using h
      exact .delayed hn rfl hdelay
    | email | whatsApp =>
      obtain rfl := Except.ok.inj hmove
      obtain ⟨settled, hsettle, h⟩ := except_bind_eq_ok_iff.mp h
      obtain rfl := Except.ok.inj h
      exact settle_progress hn (by simp [Node.kind, Action.kind]) rfl hsettle

theorem attributesUnavailable_eq_ok {n : Node} {reason : String}
    (hn : f.node? r.currentNodeId = some n) (hkind : n.kind = .condition)
    (h : r.attributesUnavailable policy now reason = .ok r') :
    r.isEligible now = .ok false ∧ r' = r ∨
      r.isEligible now = .ok true ∧ Progress policy f now (r.resume now) r' := by
  obtain ⟨eligible, heligible, h⟩ := except_bind_eq_ok_iff.mp h
  cases eligible with
  | false => exact .inl ⟨heligible, by simpa using h.symm⟩
  | true =>
    have hn : f.node? (r.resume now).currentNodeId = some n := by rwa [resume_currentNodeId]
    exact .inr ⟨heligible, .failed hn (by simp [hkind]) h⟩

theorem delay_eq_ok {hours : Int} {next : Option String} (h : r.delay now hours next = .ok r') :
    next = none ∧
        r' = (r.record now .completed (some "Delay has no successor")).advance none ∨
      ∃ target resumeAt, next = some target ∧ (Span.ofHours hours).bind now.plus = .ok resumeAt ∧
        r' = { r.record now .waiting none with
          currentNodeId := target, status := .waiting, resumeAt := some resumeAt, attempts := 0,
          nextAttemptAt := none } := by
  cases next with
  | none => exact .inl ⟨rfl, (Except.ok.inj h).symm⟩
  | some target =>
    simp only [delay] at h
    split at h
    · next resumeAt hresume => exact .inr ⟨target, resumeAt, rfl, hresume, (Except.ok.inj h).symm⟩
    · cases h

theorem failAttempt_eq_ok {kind : FailureKind} {reason : String}
    (h : r.failAttempt policy now kind reason = .ok r') :
    (kind = .permanent ∨ policy.maxAttempts ≤ r.attempts + 1) ∧
        r' = { r.record now .dispatchFailed (some reason) with
          attempts := r.attempts + 1, status := .failed, nextAttemptAt := none } ∨
      kind ≠ .permanent ∧ r.attempts + 1 < policy.maxAttempts ∧ ∃ again,
        (Span.ofDoubledSeconds policy.backoffSeconds r.attempts).bind now.plus = .ok again ∧
        r' = { r.record now .retry (some reason) with
          attempts := r.attempts + 1, nextAttemptAt := some again } := by
  simp only [failAttempt] at h
  split at h
  · next hlast => exact .inl ⟨hlast, (Except.ok.inj h).symm⟩
  · next hmore =>
    rw [not_or, Int.not_le] at hmore
    split at h
    · next again hagain =>
      rw [Int.add_sub_cancel] at hagain
      exact .inr ⟨hmore.1, hmore.2, again, hagain, (Except.ok.inj h).symm⟩
    · cases h

theorem Progress.history_eq (h : Progress policy f now r r') :
    ∃ outcome reason, r'.history = r.history ++ [⟨some r.currentNodeId, now, outcome, reason⟩] := by
  cases h with
  | dangled => exact ⟨_, _, rfl⟩
  | branched _ _ result => exact ⟨_, _, advance_history _⟩
  | delayed _ _ hdelay =>
    rcases delay_eq_ok hdelay with ⟨_, rfl⟩ | ⟨_, _, _, _, rfl⟩
    · exact ⟨_, _, advance_history _⟩
    · exact ⟨_, _, rfl⟩
  | sent => exact ⟨_, _, advance_history _⟩
  | failed _ _ hfail =>
    rcases failAttempt_eq_ok hfail with ⟨_, rfl⟩ | ⟨_, _, _, _, rfl⟩
    · exact ⟨_, _, rfl⟩
    · exact ⟨_, _, rfl⟩

structure Origin where
  id : String
  funnelId : String
  contactId : String
  payload : Fields

def origin (r : Run) : Origin := ⟨r.id, r.funnelId, r.contactId, r.payload⟩

theorem resume_origin : (r.resume now).origin = r.origin := by
  unfold resume
  split <;> rfl

theorem advance_origin (target : Option String) : (r.advance target).origin = r.origin := by
  cases target <;> rfl

theorem Progress.origin_eq (h : Progress policy f now r r') : r'.origin = r.origin := by
  cases h with
  | dangled => rfl
  | branched _ _ result => exact advance_origin _
  | delayed _ _ hdelay =>
    rcases delay_eq_ok hdelay with ⟨_, rfl⟩ | ⟨_, _, _, _, rfl⟩
    · exact advance_origin _
    · rfl
  | sent => exact advance_origin _
  | failed _ _ hfail =>
    rcases failAttempt_eq_ok hfail with ⟨_, rfl⟩ | ⟨_, _, _, _, rfl⟩
    · rfl
    · rfl

theorem Progress.id_eq (h : Progress policy f now r r') : r'.id = r.id :=
  congrArg Origin.id h.origin_eq

/-- A run goes on at once when it is neither parked nor to be tried again. -/
def GoesOn (r : Run) : Prop := r.status = .running ∧ r.nextAttemptAt = none

theorem points_of_advance {n : Node} {label : EdgeLabel} {target : Option String}
    (hn : f.node? r.currentNodeId = some n) (hedge : ⟨label, target⟩ ∈ n.edges)
    (hstatus : (r'.advance target).status = .running) :
    f.Points r.currentNodeId (r'.advance target).currentNodeId := by
  cases target with
  | none => cases hstatus
  | some target => exact ⟨n, hn, Funnel.mem_targets_iff.mpr ⟨label, hedge⟩⟩

/-- A run that goes on does so along a reference of its node. -/
theorem Progress.points (h : Progress policy f now r r') (hgoes : r'.GoesOn) :
    f.Points r.currentNodeId r'.currentNodeId := by
  cases h with
  | dangled => cases hgoes.1
  | @branched n test whenTrue whenFalse hn haction result =>
    have hedge : ⟨if result then .whenTrue else .whenFalse,
        if result then whenTrue else whenFalse⟩ ∈ n.edges := by
      cases result <;> simp [Node.edges, haction, Action.edges]
    exact points_of_advance hn hedge hgoes.1
  | delayed hn haction hdelay =>
    rcases delay_eq_ok hdelay with ⟨_, rfl⟩ | ⟨_, _, _, _, rfl⟩ <;> cases hgoes.1
  | @sent n next hn _ hedges =>
    have hedge : ⟨.next, next⟩ ∈ n.edges := by simp [hedges]
    exact points_of_advance hn hedge hgoes.1
  | failed _ _ hfail =>
    rcases failAttempt_eq_ok hfail with ⟨_, rfl⟩ | ⟨_, _, _, _, rfl⟩
    · cases hgoes.1
    · cases hgoes.2

/-- Some step of the run fails: it leaves no run behind. -/
def Stuck (policy : RetryPolicy) (f : Funnel) (now : Instant) (given : Fields → Prop) (r : Run) :
    Prop :=
  (∃ attributes deliver e, given attributes ∧ r.step policy f now attributes deliver = .error e) ∨
    ∃ reason e, r.attributesUnavailable policy now reason = .error e

end FunnelFlow.Run
