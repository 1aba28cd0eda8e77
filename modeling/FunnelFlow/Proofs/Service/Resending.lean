import FunnelFlow.Proofs.Service.Discipline
import FunnelFlow.Proofs.Service.Taking

namespace FunnelFlow

open Activity

namespace Run

variable {policy : RetryPolicy} {now : Instant} {r r' : Run}

structure Misses (now : Instant) (r r' : Run) (outcome : Outcome) : Prop where
  currentNodeId : r'.currentNodeId = r.currentNodeId
  attempts : r'.attempts = r.attempts + 1
  history : ∃ reason, r'.history = r.history ++ [⟨some r.currentNodeId, now, outcome, some reason⟩]

structure IsResent (policy : RetryPolicy) (now : Instant) (r r' : Run) : Prop
    extends Misses now r r' .retry where
  status : r'.status = .running
  scheduled : ∃ again, r'.nextAttemptAt = some again ∧
    (Span.ofDoubledSeconds policy.backoffSeconds r.attempts).bind now.plus = .ok again

structure IsGivenUp (now : Instant) (r r' : Run) : Prop
    extends Misses now r r' .dispatchFailed where
  status : r'.status = .failed
  nextAttemptAt : r'.nextAttemptAt = none

theorem isResent_of_failAttempt {reason : String} (hopen : r.isTerminal = false)
    (hmore : r.attempts + 1 < policy.maxAttempts)
    (h : (r.resume now).failAttempt policy now .transient reason = .ok r') :
    r.IsResent policy now r' := by
  rcases failAttempt_eq_ok h with ⟨hlast, _⟩ | ⟨_, _, again, hagain, rfl⟩
  · rw [resume_attempts] at hlast
    exact absurd (hlast.resolve_left nofun) (Int.not_le.mpr hmore)
  · rw [resume_attempts] at hagain
    exact ⟨⟨resume_currentNodeId, by rw [resume_attempts], reason, by simp [record]⟩,
      resume_status hopen, again, rfl, hagain⟩

theorem isGivenUp_of_failAttempt {reason : String}
    (h : (r.resume now).failAttempt policy now .permanent reason = .ok r') :
    r.IsGivenUp now r' := by
  rcases failAttempt_eq_ok h with ⟨_, rfl⟩ | ⟨hpasses, _⟩
  · exact ⟨⟨resume_currentNodeId, by rw [resume_attempts], reason, by simp [record]⟩, rfl, rfl⟩
  · exact absurd rfl hpasses

end Run

namespace Messenger

variable {status : Nat} {reply : Reply}

theorem judge_success (channel text : String) (h : 200 ≤ status ∧ status ≤ 299) :
    judge channel (.answer status text) = .ok .accepted := by
  have hsuccess : Status.isSuccess status = true := by
    simp only [Status.isSuccess, Bool.and_eq_true, decide_eq_true_eq]
    omega
  rw [judge, if_pos hsuccess]

theorem judge_failure (channel text : String) (h : ¬ (200 ≤ status ∧ status ≤ 299)) :
    ∃ reason, judge channel (.answer status text) = .ok (.failed (if status ∈
      [408, 425, 429, 500, 502, 503, 504] then .transient else .permanent) reason) := by
  have hfailure : Status.isSuccess status ≠ true := by
    simp only [Status.isSuccess, ne_eq, Bool.and_eq_true, decide_eq_true_eq]
    omega
  refine ⟨channel ++ " service returned " ++ toString status ++ ": " ++ text, ?_⟩
  rw [judge, if_neg hfailure]
  simp only [isRetryable, List.contains_iff_mem]

theorem ofAttempt_judge_of_no_answer (channel : String)
    (h : ∀ status text, reply ≠ .answer status text) :
    ∃ reason, Delivery.ofAttempt (judge channel reply) = .failed .transient reason := by
  cases reply with
  | answer status text => exact absurd rfl (h status text)
  | failed failure message => exact ⟨_, rfl⟩
  | broken message => exact ⟨_, rfl⟩
  | unwritable => exact ⟨_, rfl⟩

end Messenger

namespace Execution

variable {x : Execution} {f : Funnel} {now : Instant} {r : Run} {n : Node}
  {s s' : Stored MemoryStore} {log : Log}

def messageAt (r : Run) (f : Funnel) (n : Node) : Value :=
  let message := r.requestAt f.id n
  Messenger.body message.channel message.contactId message.content (some message)

structure ReactsTo (x : Execution) (now : Instant) (r : Run) (next : Option String) (r' : Run)
    (reply : Reply) : Prop where
  accepted (status : Nat) (text : String) (h : reply = .answer status text)
    (hstatus : 200 ≤ status ∧ status ≤ 299) :
    r' = ((r.resume now).record now .sent none).advance next
  passing (status : Nat) (text : String) (h : reply = .answer status text)
    (hstatus : status ∈ [408, 425, 429, 500, 502, 503, 504]) : r.IsResent x.policy now r'
  lasting (status : Nat) (text : String) (h : reply = .answer status text)
    (hstatus : ¬ (200 ≤ status ∧ status ≤ 299))
    (hlasts : status ∉ [408, 425, 429, 500, 502, 503, 504]) : r.IsGivenUp now r'
  unanswered (h : ∀ status text, reply ≠ .answer status text) : r.IsResent x.policy now r'

theorem reactsTo_of_settle {channel : String} {next : Option String} {reply : Reply} {r' : Run}
    (hopen : r.isTerminal = false) (hmore : r.attempts + 1 < x.policy.maxAttempts)
    (h : (r.resume now).settle x.policy now next
      (.ofAttempt (Messenger.judge channel reply)) = .ok r') : x.ReactsTo now r next r' reply where
  accepted status text hreply hstatus := by
    rw [hreply, Messenger.judge_success channel text hstatus] at h
    exact (Except.ok.inj h).symm
  passing status text hreply hstatus := by
    have hfailure : ¬ (200 ≤ status ∧ status ≤ 299) := by
      simp only [List.mem_cons, List.not_mem_nil, or_false] at hstatus
      omega
    obtain ⟨reason, hjudge⟩ := Messenger.judge_failure channel text hfailure
    rw [hreply, hjudge, if_pos hstatus] at h
    exact Run.isResent_of_failAttempt hopen hmore h
  lasting status text hreply hstatus hlasts := by
    obtain ⟨reason, hjudge⟩ := Messenger.judge_failure channel text hstatus
    rw [hreply, hjudge, if_neg hlasts] at h
    have hfail : (r.resume now).failAttempt x.policy now .permanent reason = .ok r' := h
    exact Run.isGivenUp_of_failAttempt hfail
  unanswered hreply := by
    obtain ⟨reason, hjudge⟩ := Messenger.ofAttempt_judge_of_no_answer channel hreply
    rw [hjudge] at h
    exact Run.isResent_of_failAttempt hopen hmore h

theorem deliver_posts {m : SendRequest} {address : String} {delivery : Delivery}
    (haddress : Messenger.endpoint? x.channels m.channel = some address)
    (h : (x.deliver m).Logged s log (.ok delivery) s') :
    let body := Messenger.body m.channel m.contactId m.content (some m)
    (Json.isStrict body = false ∧ log = [] ∧ ∃ reason, delivery = .failed .transient reason) ∨
      ∃ reply, Json.isStrict body = true ∧ log = [⟨.post address body, reply⟩] ∧
        delivery = .ofAttempt (Messenger.judge m.channel reply) := by
  intro body
  rw [deliver_eq] at h
  obtain ⟨mid, s₁, log₁, log₂, hsend, hrest, rfl⟩ := h.of_attempt_bind
  obtain ⟨rfl, hdelivery, rfl⟩ := hrest.of_pure
  obtain rfl := Except.ok.inj hdelivery
  rw [List.append_nil]
  obtain ⟨_, ⟨hstrict, rfl, e, rfl⟩ | ⟨reply, hstrict, rfl, rfl⟩⟩ :=
    Messenger.send_logged haddress hsend
  · exact .inl ⟨hstrict, rfl, _, rfl⟩
  · exact .inr ⟨reply, hstrict, rfl, rfl⟩

theorem exists_move_of_message (attributes : Fields) (heligible : r.isEligible now = .ok true)
    (hn : f.node? r.currentNodeId = some n) (hkind : n.kind = .email ∨ n.kind = .whatsApp) :
    ∃ next, n.edges = [⟨.next, next⟩] ∧
      r.move f now attributes = .ok (.sending (r.resume now) (r.requestAt f.id n) next) := by
  have hmove : r.move f now attributes = (r.resume now).moveAt f.id n now attributes := by
    simp [Run.move, heligible, bind, Except.bind, hn]
  rw [hmove]
  obtain ⟨id, position, label, action⟩ := n
  cases action with
  | email subject content next => exact ⟨next, rfl, by simp [Run.moveAt]⟩
  | whatsApp templateId templateTitle sendTime next => exact ⟨next, rfl, by simp [Run.moveAt]⟩
  | condition | delay => simp [Node.kind, Action.kind] at hkind

theorem exists_endpoint (channels : Channels) (r : Run) (funnelId : String)
    (hkind : n.kind = .email ∨ n.kind = .whatsApp) :
    ∃ address, Messenger.endpoint? channels (r.requestAt funnelId n).channel = some address := by
  rcases hkind with hkind | hkind
  · exact ⟨channels.email, by simp [Run.requestAt, hkind, NodeKind.name, Messenger.endpoint?]⟩
  · exact ⟨channels.whatsApp, by simp [Run.requestAt, hkind, NodeKind.name, Messenger.endpoint?]⟩

/-- A step at a message of which more attempts are left: a message that cannot be written is tried
again, any other is posted once, and the reply decides. -/
theorem step_reacts_to_reply {attributes : Fields} {result : StepResult}
    (heligible : r.isEligible now = .ok true)
    (hn : f.node? r.currentNodeId = some n) (hkind : n.kind = .email ∨ n.kind = .whatsApp)
    (hmore : r.attempts + 1 < x.policy.maxAttempts)
    (hrun : (x.step r f now attributes).Logged s log (.ok result) s') :
    s' = s ∧
      (Json.isStrict (messageAt r f n) = false ∧ log = [] ∧ r.IsResent x.policy now result.run ∨
        ∃ address reply next, Json.isStrict (messageAt r f n) = true ∧
          log = [⟨.post address (messageAt r f n), reply⟩] ∧ n.edges = [⟨.next, next⟩] ∧
          x.ReactsTo now r next result.run reply) := by
  have hopen := Run.isTerminal_eq_false_of_isEligible heligible
  obtain ⟨next, hedges, hmove⟩ :=
    exists_move_of_message attributes heligible hn hkind
  obtain ⟨hkept, _, hsettles⟩ := step_logged hrun
  obtain ⟨move, hmove', hsettled⟩ := hsettles result rfl
  obtain rfl := Except.ok.inj (hmove.symm.trans hmove')
  obtain ⟨delivery, hdeliver, hsettle⟩ := hsettled
  obtain ⟨address, haddress⟩ := exists_endpoint x.channels r f.id hkind
  refine ⟨hkept, ?_⟩
  rcases deliver_posts haddress hdeliver with
    ⟨hstrict, hlog, reason, rfl⟩ | ⟨reply, hstrict, hlog, rfl⟩
  · exact .inl ⟨hstrict, hlog, Run.isResent_of_failAttempt hopen hmore hsettle⟩
  · exact .inr ⟨address, reply, next, hstrict, hlog, hedges, reactsTo_of_settle hopen hmore hsettle⟩

def hello : Node :=
  { id := "hello", position := none, label := none, action := .email "Hello" "" (some "opened") }

def answeredHello (status : Nat) : Log :=
  [⟨.post "email" (messageAt .welcomeRun .welcome hello), .answer status ""⟩]

def failedHello (status : RunStatus) (again : Option Instant) (outcome : Outcome)
    (reason : String) : StepResult where
  run := { Run.welcomeRun with
    status, attempts := 1, nextAttemptAt := again, updatedAt := some ⟨0, none⟩
    history := [⟨some "hello", ⟨0, none⟩, outcome, some reason⟩] }
  sent := some (Run.welcomeRun.requestAt "welcome" hello)

/-- The channel service is unavailable, and the message is sent again a minute later. -/
def resentHello : StepResult :=
  failedHello .running (some ⟨60000000, none⟩) .retry "EMAIL service returned 503: "

/-- The channel service does not implement what it is asked for, which ends the run. -/
def givenUpHello : StepResult :=
  failedHello .failed none .dispatchFailed "EMAIL service returned 501: "

theorem unavailable_logged (s : Stored MemoryStore) :
    (Service.worker.step .welcomeRun .welcome ⟨0, none⟩ []).Logged s (answeredHello 503)
      (.ok resentHello) s :=
  .ask (.outside (by rintro _ ⟨⟩) _ s) (.done _ s)

theorem unimplemented_logged (s : Stored MemoryStore) :
    (Service.worker.step .welcomeRun .welcome ⟨0, none⟩ []).Logged s (answeredHello 501)
      (.ok givenUpHello) s :=
  .ask (.outside (by rintro _ ⟨⟩) _ s) (.done _ s)

theorem unavailable_is_resent :
    let s : Stored MemoryStore := ⟨.first, .empty ⟨0⟩ ⟨0⟩⟩
    Run.welcomeRun.isEligible ⟨0, none⟩ = .ok true ∧
    Funnel.welcome.node? Run.welcomeRun.currentNodeId = some hello ∧ hello.kind = .email ∧
    Run.welcomeRun.attempts + 1 < Service.worker.policy.maxAttempts ∧
    (Service.worker.step .welcomeRun .welcome ⟨0, none⟩ []).Logged s (answeredHello 503)
      (.ok resentHello) s ∧
    Run.welcomeRun.IsResent ⟨3, 60⟩ ⟨0, none⟩ resentHello.run := by
  intro s
  have hmore : Run.welcomeRun.attempts + 1 < Service.worker.policy.maxAttempts := by decide
  have hlogged := unavailable_logged s
  obtain ⟨_, ⟨_, hlog, _⟩ | ⟨address, reply, next, _, hlog, _, hreacts⟩⟩ :=
    step_reacts_to_reply rfl rfl (.inl rfl) hmore hlogged
  · cases hlog
  · obtain ⟨⟨⟩, hreply⟩ := LogEntry.mk.inj (List.cons.inj hlog).1
    obtain rfl := eq_of_heq hreply
    exact ⟨rfl, rfl, rfl, hmore, hlogged, hreacts.passing 503 "" rfl (by decide)⟩

/-- Not every failure of the channel service is met by sending the message again. -/
theorem not_resent_when_unimplemented :
    ¬ ∀ (x : Execution) (f : Funnel) (now : Instant) (r : Run) (n : Node) (attributes : Fields)
      (address text : String) (status : Nat) (result : StepResult) (s s' : Stored MemoryStore),
      r.isEligible now = .ok true → f.node? r.currentNodeId = some n →
      n.kind = .email ∨ n.kind = .whatsApp → r.attempts + 1 < x.policy.maxAttempts →
      (x.step r f now attributes).Logged s
        [⟨.post address (messageAt r f n), .answer status text⟩] (.ok result) s' →
      status = 429 ∨ 500 ≤ status ∧ status ≤ 599 → r.IsResent x.policy now result.run := by
  intro h
  have hresent := h Service.worker .welcome ⟨0, none⟩ .welcomeRun hello [] _ _ 501 givenUpHello
    ⟨.first, .empty ⟨0⟩ ⟨0⟩⟩ _ rfl rfl (.inl rfl) (by decide) (unimplemented_logged _) (by decide)
  exact nomatch hresent.status

end Execution

end FunnelFlow
