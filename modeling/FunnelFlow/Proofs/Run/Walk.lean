import FunnelFlow.Service.Execution
import FunnelFlow.Proofs.Funnel.Forward
import FunnelFlow.Proofs.Run.Step

namespace FunnelFlow

/-- What a hand-over comes to. A fault on the way is a failure that may pass. -/
def Delivery.ofAttempt : Except Fault Delivery → Delivery
  | .ok delivery => delivery
  | .error e => .failed .transient ("Transport error: " ++ e.message)

theorem Activity.tryCatch_pure {α : Type} (act : Activity α) (handle : Fault → α) :
    act.tryCatch (fun e => pure (handle e)) =
      act.attempt >>= fun | .ok a => pure a | .error e => pure (handle e) := by
  induction act with
  | done result => cases result <;> rfl
  | ask request resume ih =>
    change Activity.ask request _ = Activity.ask request _
    congr 1
    funext answer
    exact ih answer

theorem Execution.deliver_eq (x : Execution) (r : SendRequest) :
    x.deliver r = (Messenger.send x.channels r.channel r.contactId r.content (some r)).attempt >>=
      fun answer => pure (Delivery.ofAttempt answer) := by
  apply (Activity.tryCatch_pure _ _).trans
  congr 1
  funext answer
  cases answer <;> rfl

namespace Run

inductive Call where
  | step (now : Instant) (attributes : Fields) (transport : SendRequest → Except Fault Delivery)
  | unavailable (now : Instant) (reason : String)

namespace Call

def now : Call → Instant
  | .step now .. => now
  | .unavailable now _ => now

def apply (policy : RetryPolicy) (f : Funnel) (r : Run) : Call → Except Fault Run
  | .step now attributes transport =>
    (r.step policy f now attributes fun request => .ofAttempt (transport request)).map (·.run)
  | .unavailable now reason => r.attributesUnavailable policy now reason

def Allowed (f : Funnel) (r : Run) : Call → Prop
  | .step .. => True
  | .unavailable .. => ∃ n, f.node? r.currentNodeId = some n ∧ n.kind = .condition

variable {policy : RetryPolicy} {f : Funnel} {r r' : Run}

theorem apply_eq_ok {call : Call} (hallowed : call.Allowed f r)
    (h : call.apply policy f r = .ok r') :
    r.isEligible call.now = .ok false ∧ r' = r ∨
      r.isEligible call.now = .ok true ∧ Progress policy f call.now (r.resume call.now) r' := by
  cases call with
  | step now attributes transport =>
    obtain ⟨result, hstep, rfl⟩ := except_map_eq_ok_iff.mp h
    exact (step_eq_ok hstep).imp_left fun ⟨heligible, hresult⟩ => ⟨heligible, by rw [hresult]⟩
  | unavailable now reason =>
    obtain ⟨n, hn, hkind⟩ := hallowed
    exact attributesUnavailable_eq_ok hn hkind h

end Call

structure IsFresh (f : Funnel) (r : Run) : Prop where
  currentNodeId : r.currentNodeId = f.startNodeId
  status : r.status = .running
  attempts : r.attempts = 0
  history : r.history = []

/-- Calls one after another, each of which returns. The number counts those at which the run was
eligible. -/
inductive Walk (policy : RetryPolicy) (f : Funnel) (r : Run) : Nat → Run → Prop
  | stay : Walk policy f r 0 r
  | call {k : Nat} {eligible : Bool} {r' r'' : Run} (h : Walk policy f r k r') (call : Call)
    (hallowed : call.Allowed f r') (heligible : r'.isEligible call.now = .ok eligible)
    (happly : call.apply policy f r' = .ok r'') : Walk policy f r (k + eligible.toNat) r''

theorem Walk.length_history {policy : RetryPolicy} {f : Funnel} {r r' : Run} {k : Nat}
    (h : r.Walk policy f k r') : r'.history.length = r.history.length + k := by
  induction h with
  | stay => rfl
  | @call k eligible r' r'' _ call hallowed heligible happly ih =>
    rcases Call.apply_eq_ok hallowed happly with ⟨hidle, rfl⟩ | ⟨htaken, hprogress⟩
    · obtain rfl : eligible = false := Except.ok.inj (heligible.symm.trans hidle)
      simpa using ih
    · obtain rfl : eligible = true := Except.ok.inj (heligible.symm.trans htaken)
      obtain ⟨_, _, hhistory⟩ := hprogress.history_eq
      simp [hhistory, ih, Nat.add_assoc]

def welcomeRun : Run :=
  { id := "run", funnelId := "welcome", contactId := "contact", currentNodeId := "hello"
    status := .running, resumeAt := none, attempts := 0, nextAttemptAt := none, payload := []
    history := [], createdAt := none, updatedAt := none }

theorem welcomeRun_isFresh : welcomeRun.IsFresh .welcome := ⟨rfl, rfl, rfl, rfl⟩

theorem welcomeRun_walk : ∃ k r', welcomeRun.Walk ⟨3, 60⟩ .welcome k r' ∧ k = 6 ∧
    r'.history.map (·.outcome) =
      [.retry, .sent, .retry, .branchFalse, .waiting, .dispatchFailed] := by
  have h₀ : welcomeRun.Walk ⟨3, 60⟩ .welcome 0 welcomeRun := .stay
  have h₁ := h₀.call (.step ⟨0, none⟩ [] fun _ => .error .notStrictJson) trivial rfl rfl
  have h₂ := h₁.call (.step ⟨30000000, none⟩ [] fun _ => .ok .accepted) trivial rfl rfl
  have h₃ := h₂.call (.step ⟨60000000, none⟩ [] fun _ => .ok .accepted) trivial rfl rfl
  have h₄ := h₃.call (.unavailable ⟨60000000, none⟩ "no answer") ⟨_, rfl, rfl⟩ rfl rfl
  have h₅ := h₄.call (.step ⟨120000000, none⟩ [] fun _ => .ok .accepted) trivial rfl rfl
  have h₆ := h₅.call (.step ⟨120000000, none⟩ [] fun _ => .ok .accepted) trivial rfl rfl
  have h₇ := h₆.call (.step ⟨86520000000, none⟩ [] fun _ => .ok (.failed .permanent "refused"))
    trivial rfl rfl
  exact ⟨_, _, h₇, by decide, rfl⟩

end Run

end FunnelFlow
