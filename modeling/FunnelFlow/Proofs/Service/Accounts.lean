import FunnelFlow.Proofs.Service.Rest

namespace FunnelFlow

open Activity

namespace Execution

def IsEntry (nodeId : String) (outcomes : List Outcome) (e : HistoryEntry) : Prop :=
  e.nodeId = some nodeId ∧ e.outcome ∈ outcomes

inductive Says (n : Node) : String → Fields → Prop
  | email {subject content : String} {next : Option String}
    (haction : n.action = .email subject content next) :
    Says n "EMAIL" [("subject", .text subject), ("content", .text content)]
  | whatsApp {templateId templateTitle sendTime : String} {next : Option String}
    (haction : n.action = .whatsApp templateId templateTitle sendTime next) :
    Says n "WHATSAPP" [("templateId", .text templateId), ("templateTitle", .text templateTitle),
      ("sendTime", .text sendTime)]

theorem says_of_kind {n : Node} (hkind : n.kind = .email ∨ n.kind = .whatsApp) :
    Says n n.kind.name n.action.content := by
  obtain ⟨id, position, label, action⟩ := n
  cases action with
  | email subject content next => exact .email rfl
  | whatsApp templateId templateTitle sendTime next => exact .whatsApp rfl
  | _ => simp [Node.kind, Action.kind] at hkind

/-- The calls that an entry stands for, and the part of the log that they fill. `o` is where the run
comes from, `before` the run that the step found. -/
inductive Accounts (x : Execution) (o : Run.Origin) (definition : Option Funnel) (before : Run) :
    HistoryEntry → List PeerCall → Log → Prop
  | message {f : Funnel} {n : Node} {channel : String} {content : Fields} {m : SendRequest}
    {delivery : Delivery} {e : HistoryEntry} {asked : Log} {s : Stored MemoryStore}
    (hf : definition = some f) (hn : f.node? before.currentNodeId = some n)
    (hmessage : Says n channel content)
    (hm : m = {
      channel, content, contactId := o.contactId, funnelId := f.id, runId := o.id, nodeId := n.id
      attempt := before.attempts + 1, payload := o.payload })
    (hlog : (x.deliver m).Logged s asked (.ok delivery) s)
    (hentry : IsEntry n.id (if delivery = .accepted then [.sent] else [.retry, .dispatchFailed]) e) :
    Accounts x o definition before e [.send m] asked
  | condition {f : Funnel} {n : Node} {read : Except Fault Entries} {e : HistoryEntry}
    {asked : Log} {s : Stored MemoryStore} (hf : definition = some f)
    (hn : f.node? before.currentNodeId = some n) (hkind : n.kind = .condition)
    (hlog : (ContactBook.attributes x.contacts o.contactId).Logged s asked read s)
    (hentry : IsEntry n.id
      (if read.isOk then [.branchTrue, .branchFalse] else [.retry, .dispatchFailed]) e) :
    Accounts x o definition before e [.attributes o.contactId] asked
  | delay {f : Funnel} {n : Node} {e : HistoryEntry} (hf : definition = some f)
    (hn : f.node? before.currentNodeId = some n) (hkind : n.kind = .delay)
    (hentry : IsEntry n.id [.waiting, .completed] e) : Accounts x o definition before e [] []
  | missing {f : Funnel} {e : HistoryEntry} (hf : definition = some f)
    (hnone : f.node? before.currentNodeId = none)
    (hentry : IsEntry before.currentNodeId [.danglingEdge] e) :
    Accounts x o definition before e [] []
  | orphan {e : HistoryEntry} (hnone : definition = none)
    (hentry : IsEntry before.currentNodeId [.funnelNotFound] e) :
    Accounts x o definition before e [] []

structure Account where
  before : Run
  entry : HistoryEntry
  calls : List PeerCall
  asked : Log

variable {x : Execution} {o : Run.Origin} {definition : Option Funnel} {before r r' : Run}
  {e : HistoryEntry} {calls : List PeerCall} {asked log : Log} {f : Funnel} {owner : String}
  {now : Instant} {runs : List Run} {s s' : Stored MemoryStore}

theorem Accounts.outbound_eq (h : x.Accounts o definition before e calls asked) :
    asked.outbound = calls.flatMap x.requests := by
  cases h with
  | message _ _ _ _ hlog _ =>
    rw [(deliver_logged hlog).2.1]
    simp
  | condition _ _ _ hlog _ =>
    rw [(attributes_logged hlog).1]
    simp
  | delay => rfl
  | missing => rfl
  | orphan => rfl

theorem exists_entry_of_failAttempt {policy : RetryPolicy} {kind : FailureKind} {reason : String}
    (h : r.failAttempt policy now kind reason = .ok r') :
    ∃ e, r'.history = r.history ++ [e] ∧
      IsEntry r.currentNodeId [.retry, .dispatchFailed] e := by
  rcases Run.failAttempt_eq_ok h with ⟨_, rfl⟩ | ⟨_, _, _, _, rfl⟩
  · exact ⟨_, rfl, rfl, by simp⟩
  · exact ⟨_, rfl, rfl, by simp⟩

theorem exists_entry_of_settle {policy : RetryPolicy} {next : Option String} {delivery : Delivery}
    (h : r.settle policy now next delivery = .ok r') :
    ∃ e, r'.history = r.history ++ [e] ∧ IsEntry r.currentNodeId
      (if delivery = .accepted then [.sent] else [.retry, .dispatchFailed]) e := by
  cases delivery with
  | accepted =>
    obtain rfl := Except.ok.inj h
    exact ⟨_, Run.advance_history _, rfl, by simp⟩
  | failed kind reason => exact exists_entry_of_failAttempt h

theorem exists_entry_of_delay {hours : Int} {next : Option String}
    (h : r.delay now hours next = .ok r') : ∃ e, r'.history = r.history ++ [e] ∧
      IsEntry r.currentNodeId [.waiting, .completed] e := by
  rcases Run.delay_eq_ok h with ⟨_, rfl⟩ | ⟨_, _, _, _, rfl⟩
  · exact ⟨_, Run.advance_history _, rfl, by simp⟩
  · exact ⟨_, rfl, rfl, by simp⟩

theorem Takes.accounts (h : x.Takes f now r asked r') : ∃ e calls,
    r'.history = r.history ++ [e] ∧ x.Accounts r.origin (some f) r e calls asked := by
  cases h with
  | dangled hnone =>
    have hentry : IsEntry r.currentNodeId [.danglingEdge]
        ⟨some (r.resume now).currentNodeId, now, .danglingEdge,
          some s!"Node {(r.resume now).currentNodeId} not found in funnel {f.id}"⟩ :=
      ⟨by rw [Run.resume_currentNodeId], by simp⟩
    refine ⟨_, [], ?_, .missing rfl hnone hentry⟩
    simp [Run.dangle, Run.record]
  | @delayed n hours next r' hn haction hdelay =>
    obtain ⟨e, hhistory, hentry⟩ := exists_entry_of_delay hdelay
    rw [Run.resume_history] at hhistory
    rw [Run.resume_currentNodeId, ← Funnel.node?_id hn] at hentry
    exact ⟨e, [], hhistory, .delay rfl hn (by simp [Node.kind, haction, Action.kind]) hentry⟩
  | @messaged n next delivery log s r' hn hkind _ hlog hsettle =>
    obtain ⟨e, hhistory, hentry⟩ := exists_entry_of_settle hsettle
    rw [Run.resume_history] at hhistory
    rw [Run.resume_currentNodeId, ← Funnel.node?_id hn] at hentry
    exact ⟨e, _, hhistory, .message rfl hn (says_of_kind hkind) rfl hlog hentry⟩
  | @branched n test whenTrue whenFalse entries log s holds hn haction hlog _ =>
    have hkind : n.kind = .condition := by simp [Node.kind, haction, Action.kind]
    refine ⟨⟨some n.id, now, if holds then .branchTrue else .branchFalse, none⟩, _, ?_,
      .condition rfl hn hkind hlog ⟨rfl, ?_⟩⟩
    · simp [Run.branch, Run.record, Funnel.node?_id hn]
    · cases holds <;> simp [Except.isOk, Except.toBool]
  | @unread n fault log s r' hn hkind hlog hfail =>
    obtain ⟨e, hhistory, hentry⟩ := exists_entry_of_failAttempt hfail
    rw [Run.resume_history] at hhistory
    rw [Run.resume_currentNodeId, ← Funnel.node?_id hn] at hentry
    exact ⟨e, _, hhistory, .condition rfl hn hkind hlog hentry⟩

/-- The accounts of a run that became another one, over the runs that were saved on the way. -/
structure Balances (x : Execution) (definition : Option Funnel) (r r' : Run) (saved : List Run)
    (log : Log) (accounts : List Account) : Prop where
  history : r'.history = r.history ++ accounts.map (·.entry)
  /-- The first step finds the run itself, each later one what the step before it saved. -/
  before : accounts.map (·.before) = (r :: saved).take accounts.length
  each : ∀ a ∈ accounts, x.Accounts r.origin definition a.before a.entry a.calls a.asked
  outbound : log.outbound = accounts.flatMap (·.asked.outbound)

theorem Stages.balances (h : x.Stages f owner now r log runs) :
    ∃ accounts, x.Balances (some f) r (runs.getLastD r) runs log accounts := by
  induction h with
  | nil r => exact ⟨[], by simp, rfl, by simp, rfl⟩
  | @cons r taken asked rest runs _ htakes _ _ ih =>
    obtain ⟨accounts, hbalances⟩ := ih
    obtain ⟨e, calls, hhistory, haccounts⟩ := htakes.accounts
    refine ⟨⟨r, e, calls, asked⟩ :: accounts, ?_, ?_, ?_, ?_⟩
    · rw [List.getLastD_cons, hbalances.history, hhistory]
      simp
    · simpa using hbalances.before
    · refine List.forall_mem_cons.mpr ⟨haccounts, fun a ha => ?_⟩
      rw [← htakes.origin_eq]
      exact hbalances.each a ha
    · have hrest : Log.outbound (⟨.store (.saveRun taken owner), .ok taken⟩ :: rest) =
          rest.outbound := rfl
      rw [Log.outbound_append, hrest, hbalances.outbound]
      rfl

theorem Course.balances {found : Except Fault (Option Funnel)}
    (h : x.Course owner now r found log runs (.ok r')) :
    ∃ accounts, x.Balances found.toOption.join r r' runs log accounts := by
  cases h with
  | orphaned =>
    unfold orphan
    split
    · exact ⟨[], by simp, rfl, by simp, rfl⟩
    · refine ⟨[⟨r, _, [], []⟩], rfl, rfl, ?_, rfl⟩
      exact List.forall_mem_singleton.mpr (.orphan rfl ⟨rfl, by simp⟩)
  | @stepped f done failed runs _ hstages hstops =>
    obtain ⟨rfl, rfl, _⟩ := hstops
    rw [List.append_nil]
    exact hstages.balances

/-- The calls of an execution that returns are those that the entries stand for which it appends, in
their order. -/
theorem execute_calls_match_history (hstores : s.data.Stores r)
    (hrun : (x.execute r.id (some now)).Logged s log (.ok r') s') :
    ∃ accounts : List Account,
      x.Balances log.definition? r r' log.saved log accounts ∧
      log.outbound = accounts.flatMap (fun a => a.calls.flatMap x.requests) ∧
      (r'.history = r.history → log.outbound = []) ∧
      (s.data.Defines r.funnelId (fun f => f.id = r.funnelId) →
        ∀ f, log.definition? = some f → f.id = r.funnelId) := by
  obtain ⟨found, work, runs, h⟩ := execute_ok_logged hstores hrun
  obtain ⟨owner, hcourse⟩ := h.course
  obtain ⟨accounts, hbalances⟩ := hcourse.balances
  have hbalances' : x.Balances log.definition? r r' log.saved log accounts := by
    refine ⟨hbalances.history, ?_, ?_, h.outbound.trans hbalances.outbound⟩
    · rw [h.saved]
      exact hbalances.before
    · rw [h.definition]
      exact hbalances.each
  refine ⟨accounts, hbalances', ?_, ?_, ?_⟩
  · rw [hbalances'.outbound]
    exact List.flatMap_congr fun a ha => (hbalances'.each a ha).outbound_eq
  · intro hsame
    have hnone : accounts = [] := by simpa [hsame] using hbalances.history
    rw [hbalances'.outbound, hnone]
    rfl
  · intro hids f hf
    obtain ⟨s₁, hfunnels, hreads⟩ := h.reads
    rw [h.found_eq hf] at hreads
    exact hids.found hfunnels hreads

end Execution

namespace Service

def tour : Funnel :=
  { reminder 24 with
    id := "tour", startNodeId := "ask"
    nodes := [
      { id := "ask", position := none, label := none
        action := .condition ⟨"plan", "not_equals", "pro"⟩ (some "mail") none },
      { id := "mail", position := none, label := none
        action := .email "Hello" "How are you?" (some "chat") },
      { id := "chat", position := none, label := none
        action := .whatsApp "t-1" "Greeting" "" (some "gone") }] }

def touringRun : Run :=
  Event.start ⟨.leadSubscribed, "ann", [("source", .text "form")], none⟩ tour "run" ⟨0, none⟩

def touring : Stored MemoryStore := ⟨.first, (keeping tour).putRun touringRun⟩

def tourEnd : Run := { touringRun with
  currentNodeId := "gone", status := .failed, updatedAt := some ⟨1, none⟩
  history := [⟨some "ask", ⟨1, none⟩, .branchTrue, none⟩, ⟨some "mail", ⟨1, none⟩, .sent, none⟩,
    ⟨some "chat", ⟨1, none⟩, .sent, none⟩,
    ⟨some "gone", ⟨1, none⟩, .danglingEdge, some "Node gone not found in funnel tour"⟩] }

def takingTour : Activity Run := worker.execute "run" (some ⟨1, none⟩)

def tourLog : Log := takingTour.logIn (obliging ⟨1, none⟩ "token") touring

/-- Four entries: the attributes are read, an e-mail and a template are posted, and for the missing
node nobody is called. -/
theorem tour_calls_match_history :
    touring.data.Stores touringRun ∧
    (takingTour.run (obliging ⟨1, none⟩ "token") touring).1 = .ok tourEnd ∧
    tourLog.outbound = [
      .read "contacts/ann/attributes",
      .post "email" (.object [("channel", .text "EMAIL"), ("contactId", .text "ann"),
        ("content", .object [("subject", .text "Hello"), ("content", .text "How are you?")]),
        ("funnelId", .text "tour"), ("runId", .text "run"), ("nodeId", .text "mail"),
        ("attempt", .int 1), ("payload", .object [("source", .text "form")])]),
      .post "whatsapp" (.object [("channel", .text "WHATSAPP"), ("contactId", .text "ann"),
        ("content", .object [("templateId", .text "t-1"), ("templateTitle", .text "Greeting"),
          ("sendTime", .text "")]),
        ("funnelId", .text "tour"), ("runId", .text "run"), ("nodeId", .text "chat"),
        ("attempt", .int 1), ("payload", .object [("source", .text "form")])])] ∧
    ∃ accounts : List Execution.Account, accounts.length = 4 ∧
      worker.Balances tourLog.definition? touringRun tourEnd tourLog.saved tourLog accounts ∧
      tourLog.outbound = accounts.flatMap (fun a => a.calls.flatMap worker.requests) := by
  have hstores : touring.data.Stores touringRun := MemoryStore.stores_putRun
  have hend : (takingTour.run (obliging ⟨1, none⟩ "token") touring).1 = .ok tourEnd := rfl
  have hlogged := logged_run (obliging_served ⟨1, none⟩ "token") takingTour touring
  rw [hend] at hlogged
  obtain ⟨accounts, hbalances, hcalls, _⟩ :=
    Execution.execute_calls_match_history hstores hlogged
  have hlength : accounts.length = 4 := by
    simpa [tourEnd, touringRun, Event.start] using (congrArg List.length hbalances.history).symm
  exact ⟨hstores, hend, rfl, accounts, hlength, hbalances, hcalls⟩

end Service

end FunnelFlow
