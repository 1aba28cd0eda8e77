import FunnelFlow.Proofs.Log
import FunnelFlow.Proofs.Service.Holding

namespace FunnelFlow

open Activity

namespace Run

variable {r : Run} {now : Instant}

@[simp] theorem resume_requestAt (funnelId : String) (n : Node) :
    (r.resume now).requestAt funnelId n = r.requestAt funnelId n := by
  unfold resume requestAt
  split <;> rfl

theorem not_goesOn_of_failAttempt {policy : RetryPolicy} {kind : FailureKind} {reason : String}
    {r' : Run} (h : r.failAttempt policy now kind reason = .ok r') : ¬ r'.GoesOn := by
  rcases failAttempt_eq_ok h with ⟨_, rfl⟩ | ⟨_, _, _, _, rfl⟩
  · exact fun hgoes => nomatch hgoes.1
  · exact fun hgoes => nomatch hgoes.2

end Run

/-- A message is posted once, unless strict JSON cannot write it. -/
theorem Messenger.send_logged {channels : Channels} {channel contactId address : String}
    {content : Fields} {request : Option SendRequest} {s s' : Stored MemoryStore} {log : Log}
    {result : Except Fault Delivery} (haddress : endpoint? channels channel = some address)
    (h : (send channels channel contactId content request).Logged s log result s') :
    let message := body channel contactId content request
    s' = s ∧ ((Json.isStrict message = false ∧ log = [] ∧ ∃ e, result = .error e) ∨
      ∃ reply, Json.isStrict message = true ∧ log = [⟨.post address message, reply⟩] ∧
        result = judge channel reply) := by
  intro message
  simp only [send, haddress] at h
  cases hobstacle : Json.obstacle? (body channel contactId content request) with
  | some e =>
    rw [hobstacle] at h
    obtain ⟨rfl, rfl, rfl⟩ := Logged.of_finish h
    exact ⟨rfl, .inl ⟨by simp [Json.isStrict, message, hobstacle], rfl, e, rfl⟩⟩
  | none =>
    rw [hobstacle] at h
    obtain ⟨reply, rest, rfl, hjudge⟩ := h.of_request_bind (by rintro _ ⟨⟩)
    obtain ⟨rfl, rfl, rfl⟩ := hjudge.of_finish
    exact ⟨rfl, .inr ⟨reply, by simp [Json.isStrict, message, hobstacle], rfl, rfl⟩⟩

inductive PeerCall where
  | send (message : SendRequest)
  | attributes (contactId : String)

namespace Execution

variable {x : Execution} {f : Funnel} {owner : String} {now : Instant} {r r' : Run}
  {s s' : Stored MemoryStore} {log : Log} {result : Except Fault Run}

/-- The requests of a call. A message is posted to the service of its channel, with all that is known
of it; what strict JSON cannot write is not posted, and what has no address is not read. -/
def requests (x : Execution) : PeerCall → List Request
  | .send m =>
    let message : Value := .object [("channel", .text m.channel), ("contactId", .text m.contactId),
      ("content", .object m.content), ("funnelId", .text m.funnelId), ("runId", .text m.runId),
      ("nodeId", .text m.nodeId), ("attempt", .int m.attempt), ("payload", .object m.payload)]
    let address? := if m.channel = "EMAIL" then some x.channels.email
      else if m.channel = "WHATSAPP" then some x.channels.whatsApp else none
    if Json.isStrict message then address?.toList.map fun address => .post address message else []
  | .attributes contactId =>
    match Address.normal (x.contacts ++ "/" ++ contactId ++ "/attributes") with
    | .ok address => [.read address]
    | .error _ => []

theorem requests_send {m : SendRequest} {address : String}
    (haddress : Messenger.endpoint? x.channels m.channel = some address) :
    x.requests (.send m) =
      let body := Messenger.body m.channel m.contactId m.content (some m)
      if Json.isStrict body then [.post address body] else [] := by
  unfold Messenger.endpoint? at haddress
  split at haddress
  · next hchannel =>
    obtain rfl := Option.some.inj haddress
    simp [requests, hchannel, Messenger.body]
  · next hchannel =>
    obtain rfl := Option.some.inj haddress
    simp [requests, hchannel, Messenger.body]
  · cases haddress

theorem requests_send_of_none {m : SendRequest}
    (hnone : Messenger.endpoint? x.channels m.channel = none) : x.requests (.send m) = [] := by
  unfold Messenger.endpoint? at hnone
  split at hnone
  · cases hnone
  · cases hnone
  · next hwhatsApp hemail =>
    have hemail' : m.channel ≠ "EMAIL" := hemail
    have hwhatsApp' : m.channel ≠ "WHATSAPP" := hwhatsApp
    simp [requests, hemail', hwhatsApp']

theorem deliver_logged {m : SendRequest} {delivered : Except Fault Delivery}
    (h : (x.deliver m).Logged s log delivered s') :
    (∃ delivery, delivered = .ok delivery) ∧ log.outbound = x.requests (.send m) ∧
      log.saved = [] ∧ s' = s := by
  rw [deliver_eq] at h
  obtain ⟨mid, s₁, log₁, log₂, hsend, hrest, rfl⟩ := h.of_attempt_bind
  obtain ⟨rfl, rfl, rfl⟩ := hrest.of_pure
  rw [List.append_nil]
  refine ⟨⟨_, rfl⟩, ?_⟩
  cases haddress : Messenger.endpoint? x.channels m.channel with
  | none =>
    simp only [Messenger.send, haddress] at hsend
    obtain ⟨rfl, _, rfl⟩ := hsend.of_pure
    exact ⟨(requests_send_of_none haddress).symm, rfl, rfl⟩
  | some address =>
    rw [requests_send haddress]
    obtain ⟨rfl, ⟨hstrict, rfl, _⟩ | ⟨reply, hstrict, rfl, _⟩⟩ :=
      Messenger.send_logged haddress hsend
    · exact ⟨by simp [hstrict, Log.outbound], rfl, rfl⟩
    · exact ⟨by simp only [hstrict]; rfl, rfl, rfl⟩

theorem requests_attributes (contactId : String) : x.requests (.attributes contactId) =
    match ContactBook.address x.contacts contactId with
    | .ok address => [.read address]
    | .error _ => [] := rfl

theorem attributes_logged {contactId : String} {answer : Except Fault Entries}
    (h : (ContactBook.attributes x.contacts contactId).Logged s log answer s') :
    log.outbound = x.requests (.attributes contactId) ∧ log.saved = [] ∧ s' = s := by
  unfold ContactBook.attributes at h
  rw [requests_attributes]
  rcases h.of_finish_bind with ⟨address, haddress, h⟩ | ⟨e, haddress, rfl, _, rfl⟩
  · rw [haddress]
    obtain ⟨a, rest, rfl, hjudge⟩ := Logged.of_request_bind (by rintro _ ⟨⟩) h
    obtain ⟨rfl, _, rfl⟩ := hjudge.of_finish
    exact ⟨rfl, rfl, rfl⟩
  · rw [haddress]
    exact ⟨rfl, rfl, rfl⟩

/-- What a step does to an eligible run: what its peers are asked, and the run after it. -/
inductive Takes (x : Execution) (f : Funnel) (now : Instant) (r : Run) : Log → Run → Prop
  | dangled (hnone : f.node? r.currentNodeId = none) :
    Takes x f now r [] ((r.resume now).dangle now f.id)
  | delayed {n : Node} {hours : Int} {next : Option String} {r' : Run}
    (hn : f.node? r.currentNodeId = some n) (haction : n.action = .delay hours next)
    (hdelay : (r.resume now).delay now hours next = .ok r') : Takes x f now r [] r'
  | messaged {n : Node} {next : Option String} {delivery : Delivery} {log : Log}
    {s : Stored MemoryStore} {r' : Run} (hn : f.node? r.currentNodeId = some n)
    (hkind : n.kind = .email ∨ n.kind = .whatsApp) (hedges : n.edges = [⟨.next, next⟩])
    (hlog : (x.deliver (r.requestAt f.id n)).Logged s log (.ok delivery) s)
    (hsettle : (r.resume now).settle x.policy now next delivery = .ok r') : Takes x f now r log r'
  | branched {n : Node} {test : Test} {whenTrue whenFalse : Option String} {entries : Entries}
    {log : Log} {s : Stored MemoryStore} {holds : Bool} (hn : f.node? r.currentNodeId = some n)
    (haction : n.action = .condition test whenTrue whenFalse)
    (hlog : (ContactBook.attributes x.contacts r.contactId).Logged s log (.ok entries) s)
    (hholds : test.holds entries.fields = .ok holds) :
    Takes x f now r log ((r.resume now).branch now holds whenTrue whenFalse)
  | unread {n : Node} {e : Fault} {log : Log} {s : Stored MemoryStore} {r' : Run}
    (hn : f.node? r.currentNodeId = some n) (hkind : n.kind = .condition)
    (hlog : (ContactBook.attributes x.contacts r.contactId).Logged s log (.error e) s)
    (hfail : (r.resume now).failAttempt x.policy now .transient
      ("Contact attributes unavailable: " ++ e.message) = .ok r') : Takes x f now r log r'

namespace Takes

theorem progress (h : x.Takes f now r log r') : Run.Progress x.policy f now (r.resume now) r' := by
  cases h with
  | dangled hnone => exact .dangled (by rwa [Run.resume_currentNodeId])
  | delayed hn haction hdelay => exact .delayed (by rwa [Run.resume_currentNodeId]) haction hdelay
  | messaged hn hkind hedges _ hsettle =>
    exact Run.settle_progress (by rwa [Run.resume_currentNodeId]) hkind hedges hsettle
  | branched hn haction _ _ => exact .branched (by rwa [Run.resume_currentNodeId]) haction _
  | unread hn hkind _ hfail =>
    exact .failed (by rwa [Run.resume_currentNodeId]) (by simp [hkind]) hfail

theorem saved_eq (h : x.Takes f now r log r') : log.saved = [] := by
  cases h with
  | dangled => rfl
  | delayed => rfl
  | messaged _ _ _ hlog _ => exact (deliver_logged hlog).2.2.1
  | branched _ _ hlog _ => exact (attributes_logged hlog).2.1
  | unread _ _ hlog _ => exact (attributes_logged hlog).2.1

theorem origin_eq (h : x.Takes f now r log r') : r'.origin = r.origin :=
  h.progress.origin_eq.trans Run.resume_origin

theorem id_eq (h : x.Takes f now r log r') : r'.id = r.id :=
  congrArg Run.Origin.id h.origin_eq

end Takes

theorem attributesFor_logged {answer : Except Fault (Except Fault Fields)}
    (h : (x.attributesFor r f).Logged s log answer s') : s' = s ∧ log.saved = [] ∧
      ((∃ n, f.node? r.currentNodeId = some n ∧ n.kind = .condition ∧ ∃ read,
          (ContactBook.attributes x.contacts r.contactId).Logged s log read s ∧
          answer = .ok (read.map Entries.fields)) ∨
        atCondition r f = false ∧ log = [] ∧ answer = .ok (.ok [])) := by
  unfold attributesFor at h
  split at h
  · next hcondition =>
    obtain ⟨n, hn, hkind⟩ := exists_of_atCondition hcondition
    obtain ⟨read, s₁, log₁, log₂, hread, hrest, rfl⟩ := h.of_attempt_bind
    obtain ⟨rfl, rfl, rfl⟩ := hrest.of_pure
    obtain ⟨_, hsaved, rfl⟩ := attributes_logged hread
    rw [List.append_nil]
    exact ⟨rfl, hsaved, .inl ⟨n, hn, hkind, read, hread, rfl⟩⟩
  · next hcondition =>
    obtain ⟨rfl, rfl, rfl⟩ := h.of_pure
    exact ⟨rfl, rfl, .inr ⟨Bool.eq_false_iff.mpr hcondition, rfl, rfl⟩⟩

def Settles (x : Execution) (now : Instant) (s : Stored MemoryStore) (log : Log) (r' : Run) :
    Run.Move → Prop
  | .settled run => log = [] ∧ r' = run
  | .sending run message next => ∃ delivery, (x.deliver message).Logged s log (.ok delivery) s ∧
      run.settle x.policy now next delivery = .ok r'

theorem step_logged {attributes : Fields} {stepped : Except Fault StepResult}
    (h : (x.step r f now attributes).Logged s log stepped s') :
    s' = s ∧ log.saved = [] ∧ ∀ taken, stepped = .ok taken → ∃ move,
      r.move f now attributes = .ok move ∧ x.Settles now s log taken.run move := by
  unfold step at h
  rcases h.of_finish_bind with ⟨move, hmove, h⟩ | ⟨e, _, rfl, rfl, rfl⟩
  · cases move with
    | settled run =>
      obtain ⟨rfl, rfl, rfl⟩ := h.of_pure
      refine ⟨rfl, rfl, ?_⟩
      rintro _ ⟨⟩
      exact ⟨_, hmove, rfl, rfl⟩
    | sending run message next =>
      rcases h.of_bind with ⟨e, hdeliver, _⟩ | ⟨delivery, s₁, log₁, log₂, hdeliver, hsettle, rfl⟩
      · obtain ⟨⟨_, hfault⟩, _⟩ := deliver_logged hdeliver
        cases hfault
      · obtain ⟨_, _, hsaved, rfl⟩ := deliver_logged hdeliver
        rcases hsettle.of_finish_bind with ⟨run', hsettled, h⟩ | ⟨e, _, rfl, rfl, rfl⟩
        · obtain ⟨rfl, rfl, rfl⟩ := h.of_pure
          rw [List.append_nil]
          refine ⟨rfl, hsaved, ?_⟩
          rintro _ ⟨⟩
          exact ⟨_, hmove, delivery, hdeliver, hsettled⟩
        · rw [List.append_nil]
          exact ⟨rfl, hsaved, by rintro _ ⟨⟩⟩
  · exact ⟨rfl, rfl, by rintro _ ⟨⟩⟩

theorem takes_of_step {attributes : Fields} {move : Run.Move}
    (heligible : r.isEligible now = .ok true) (hcondition : atCondition r f = false)
    (hmove : r.move f now attributes = .ok move) (h : x.Settles now s log r' move) :
    x.Takes f now r log r' := by
  rcases Run.move_eq_ok hmove with ⟨hidle, _⟩ | ⟨_, ⟨hnone, rfl⟩ | ⟨n, hn, hmove⟩⟩
  · simp [heligible] at hidle
  · obtain ⟨rfl, rfl⟩ := h
    exact .dangled hnone
  · have hkind : n.kind ≠ .condition := by simpa [atCondition, hn] using hcondition
    obtain ⟨id, position, label, action⟩ := n
    cases action with
    | condition => exact absurd rfl hkind
    | delay hours next =>
      obtain ⟨delayed, hdelay, rfl⟩ := except_map_eq_ok_iff.mp hmove
      obtain ⟨rfl, rfl⟩ := h
      exact .delayed hn rfl hdelay
    | email | whatsApp =>
      obtain rfl := Except.ok.inj hmove
      obtain ⟨delivery, hdeliver, hsettle⟩ := h
      rw [Run.resume_requestAt] at hdeliver
      exact .messaged hn (by simp [Node.kind, Action.kind]) rfl hdeliver hsettle

theorem takes_of_branch {n : Node} {entries : Entries} {move : Run.Move} {read : Log}
    {s₀ : Stored MemoryStore} (heligible : r.isEligible now = .ok true)
    (hn : f.node? r.currentNodeId = some n) (hkind : n.kind = .condition)
    (hread : (ContactBook.attributes x.contacts r.contactId).Logged s₀ read (.ok entries) s₀)
    (hmove : r.move f now entries.fields = .ok move) (h : x.Settles now s log r' move) :
    x.Takes f now r (read ++ log) r' := by
  rcases Run.move_eq_ok hmove with ⟨hidle, _⟩ | ⟨_, ⟨hnone, _⟩ | ⟨m, hm, hmove⟩⟩
  · simp [heligible] at hidle
  · simp [hn] at hnone
  · obtain rfl : n = m := Option.some.inj (hn.symm.trans hm)
    obtain ⟨id, position, label, action⟩ := n
    cases action with
    | condition test whenTrue whenFalse =>
      -- the attributes were read before the step, which then asks nobody
      obtain ⟨holds, hholds, rfl⟩ := except_map_eq_ok_iff.mp hmove
      obtain ⟨rfl, rfl⟩ := h
      rw [List.append_nil]
      exact .branched hn rfl hread hholds
    | _ => cases hkind

end Execution

end FunnelFlow
