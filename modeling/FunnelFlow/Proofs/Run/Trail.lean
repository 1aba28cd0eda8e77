import Mathlib.Data.List.Chain
import FunnelFlow.Proofs.Run.Walk

namespace FunnelFlow

namespace Outcome

def edge? : Outcome → Option EdgeLabel
  | .sent | .waiting => some .next
  | .branchTrue => some .whenTrue
  | .branchFalse => some .whenFalse
  | _ => none

/-- The nodes at which a visit can end in this way. -/
def kinds : Outcome → List NodeKind
  | .sent => [.email, .whatsApp]
  | .branchTrue | .branchFalse => [.condition]
  | .waiting | .completed => [.delay]
  | .dispatchFailed => [.email, .whatsApp, .condition]
  | _ => []

end Outcome

structure Visit where
  node : String
  retries : List HistoryEntry
  closing : HistoryEntry

/-- Entries about attempts at a node that failed and may be made again. -/
def AreRetries (budget : Int) (node : String) (entries : List HistoryEntry) : Prop :=
  (∀ e ∈ entries, e.nodeId = some node ∧ e.outcome = .retry) ∧ entries.length < max 1 budget

namespace Visit

def entries (v : Visit) : List HistoryEntry := v.retries ++ [v.closing]

/-- Every entry is about the node, and the last one is of a kind with it. -/
structure Fits (f : Funnel) (budget : Int) (v : Visit) : Prop where
  retries : AreRetries budget v.node v.retries
  closing : v.closing.nodeId = some v.node
  outcome : (∃ n, f.node? v.node = some n ∧ n.kind ∈ v.closing.outcome.kinds) ∨
    v.closing.outcome = .danglingEdge ∧ f.hasNode v.node = false

def LeadsTo (f : Funnel) (v : Visit) (target : Option String) : Prop :=
  ∃ n label, f.node? v.node = some n ∧ v.closing.outcome.edge? = some label ∧
    ⟨label, target⟩ ∈ n.edges

def Ends (f : Funnel) (v : Visit) (status : RunStatus) : Prop :=
  match v.closing.outcome with
  | .dispatchFailed | .danglingEdge => status = .failed
  | .completed => status = .completed
  | _ => v.LeadsTo f none ∧ status = .completed

end Visit

inductive Route (f : Funnel) (budget : Int) : List Visit → String → Prop
  | start : Route f budget [] f.startNodeId
  | visit {visits : List Visit} {v : Visit} {target : String} (h : Route f budget visits v.node)
    (hfits : v.Fits f budget) (hleads : v.LeadsTo f (some target)) :
    Route f budget (visits ++ [v]) target

/-- The run stands at the node that its visits lead to, with some attempts behind it. -/
structure UnderWay (f : Funnel) (budget : Int) (r : Run) (visits : List Visit)
    (tried : List HistoryEntry) : Prop where
  route : Route f budget visits r.currentNodeId
  history : r.history = visits.flatMap Visit.entries ++ tried
  retries : AreRetries budget r.currentNodeId tried
  attempts : r.attempts = tried.length

structure Over (f : Funnel) (budget : Int) (r : Run) (visits : List Visit) (last : Visit) :
    Prop where
  route : Route f budget visits last.node
  history : r.history = (visits ++ [last]).flatMap Visit.entries
  fits : last.Fits f budget
  ends : last.Ends f r.status

/-- A run is under way until it ends, and waits exactly after the visit of a delay. -/
def Trail (f : Funnel) (budget : Int) (r : Run) : Prop :=
  (∃ visits tried, UnderWay f budget r visits tried ∧ r.isTerminal = false ∧
    (r.status = .waiting ↔ ∃ e ∈ r.history.getLast?, e.outcome = .waiting)) ∨
  ∃ visits last, Over f budget r visits last

variable {policy : RetryPolicy} {f : Funnel} {budget : Int} {r r' : Run} {visits : List Visit}
  {tried : List HistoryEntry} {now : Instant}

namespace Route

variable {id : String}

theorem fits (h : Route f budget visits id) : ∀ v ∈ visits, v.Fits f budget := by
  induction h with
  | start => exact nofun
  | visit _ hfits _ ih =>
    exact List.forall_mem_append.mpr ⟨ih, List.forall_mem_singleton.mpr hfits⟩

theorem leadsTo_of_getLast? (h : Route f budget visits id) :
    ∀ v ∈ visits.getLast?, v.LeadsTo f (some id) := by
  cases h with
  | start => exact nofun
  | visit _ _ hleads =>
    intro w hw
    obtain rfl : _ = w := by simpa using hw
    exact hleads

theorem eq_start_of_nil (h : Route f budget [] id) : id = f.startNodeId := by
  generalize hvisits : [] = visits at h
  cases h with
  | start => rfl
  | visit => simp at hvisits

theorem isChain (h : Route f budget visits id) :
    visits.IsChain fun v w => v.LeadsTo f (some w.node) := by
  induction h with
  | start => exact .nil
  | visit hroute _ _ ih =>
    refine List.isChain_append.mpr ⟨ih, .singleton _, fun v hv w hw => ?_⟩
    obtain rfl : _ = w := by simpa using hw
    exact hroute.leadsTo_of_getLast? v hv

theorem head (h : Route f budget visits id) : ∀ v ∈ visits.head?, v.node = f.startNodeId := by
  induction h with
  | start => exact nofun
  | @visit visits v _ hroute _ _ ih =>
    cases visits with
    | nil =>
      intro w hw
      obtain rfl : v = w := by simpa using hw
      exact hroute.eq_start_of_nil
    | cons => simpa using ih

end Route

theorem AreRetries.nil (budget : Int) (node : String) : AreRetries budget node [] :=
  ⟨nofun, by simp only [List.length_nil]; omega⟩

theorem Over.isTerminal {last : Visit} (h : Over f budget r visits last) : r.isTerminal = true := by
  have hends := h.ends
  unfold Visit.Ends at hends
  unfold Run.isTerminal
  split at hends <;> simp [hends]

theorem Visit.LeadsTo.ends {v : Visit} (h : v.LeadsTo f none) : v.Ends f .completed := by
  obtain ⟨n, label, hn, hlabel, hedge⟩ := h
  unfold Ends
  split
  · next houtcome => simp [houtcome, Outcome.edge?] at hlabel
  · next houtcome => simp [houtcome, Outcome.edge?] at hlabel
  · rfl
  · exact ⟨⟨n, label, hn, hlabel, hedge⟩, rfl⟩

theorem UnderWay.resume (h : UnderWay f budget r visits tried) (now : Instant) :
    UnderWay f budget (r.resume now) visits tried :=
  ⟨by simpa using h.route, by simpa using h.history, by simpa using h.retries,
    by simpa using h.attempts⟩

theorem trail_of_isFresh (h : r.IsFresh f) : Trail f budget r := by
  refine .inl ⟨[], [], ⟨?_, h.history, .nil budget _, h.attempts⟩, ?_, ?_⟩
  · rw [h.currentNodeId]
    exact .start
  · simp [Run.isTerminal, h.status]
  · simp [h.status, h.history]

def Run.visit (r : Run) (tried : List HistoryEntry) (e : HistoryEntry) : Visit :=
  ⟨r.currentNodeId, tried, e⟩

namespace UnderWay

variable (h : UnderWay f budget r visits tried) {e : HistoryEntry}
include h

theorem fits {n : Node} (hn : f.node? r.currentNodeId = some n)
    (hnode : e.nodeId = some r.currentNodeId) (hkind : n.kind ∈ e.outcome.kinds) :
    (r.visit tried e).Fits f budget :=
  ⟨h.retries, hnode, .inl ⟨n, hn, hkind⟩⟩

theorem history_append (e : HistoryEntry) :
    r.history ++ [e] = (visits ++ [r.visit tried e]).flatMap Visit.entries := by
  simp [h.history, Visit.entries, Run.visit]

theorem finish (hhistory : r'.history = r.history ++ [e]) (hfits : (r.visit tried e).Fits f budget)
    (hends : (r.visit tried e).Ends f r'.status) : Trail f budget r' :=
  .inr ⟨visits, r.visit tried e, h.route, hhistory.trans (h.history_append e), hfits, hends⟩

theorem goOn {target : String} (hhistory : r'.history = r.history ++ [e])
    (hcurrent : r'.currentNodeId = target) (hattempts : r'.attempts = 0)
    (hfits : (r.visit tried e).Fits f budget) (hleads : (r.visit tried e).LeadsTo f (some target))
    (hterminal : r'.isTerminal = false) (hwaiting : r'.status = .waiting ↔ e.outcome = .waiting) :
    Trail f budget r' := by
  subst hcurrent
  refine .inl ⟨_, [], ⟨h.route.visit hfits hleads, ?_, .nil budget _, hattempts⟩, hterminal, ?_⟩
  · rw [hhistory, h.history_append, List.append_nil]
  · simp [hhistory, hwaiting]

theorem advance {n : Node} {outcome : Outcome} {label : EdgeLabel} {target : Option String}
    (hn : f.node? r.currentNodeId = some n) (hkind : n.kind ∈ outcome.kinds)
    (hlabel : outcome.edge? = some label) (hedge : ⟨label, target⟩ ∈ n.edges)
    (hwaiting : outcome ≠ .waiting) :
    Trail f budget ((r.record now outcome none).advance target) := by
  let e : HistoryEntry := ⟨some r.currentNodeId, now, outcome, none⟩
  have hfits : (r.visit tried e).Fits f budget := h.fits hn rfl hkind
  have hleads : (r.visit tried e).LeadsTo f target := ⟨n, label, hn, hlabel, hedge⟩
  cases target with
  | none => exact h.finish rfl hfits hleads.ends
  | some target => exact h.goOn rfl rfl rfl hfits hleads rfl (by simp [Run.advance, hwaiting])

end UnderWay

section Progress

variable (h : UnderWay f policy.maxAttempts r visits tried)
include h

theorem UnderWay.delay {n : Node} {hours : Int} {next : Option String}
    (hn : f.node? r.currentNodeId = some n) (haction : n.action = .delay hours next)
    (hdelay : r.delay now hours next = .ok r') : Trail f policy.maxAttempts r' := by
  have hkind : n.kind = .delay := by rw [Node.kind, haction, Action.kind]
  rcases Run.delay_eq_ok hdelay with ⟨rfl, rfl⟩ | ⟨target, resumeAt, rfl, -, rfl⟩
  · exact h.finish rfl (h.fits hn rfl (by simp [hkind, Outcome.kinds])) rfl
  · refine h.goOn rfl rfl rfl (h.fits hn rfl (by simp [hkind, Outcome.kinds])) ?_ rfl (by simp)
    exact ⟨n, .next, hn, rfl, by simp [Node.edges, haction, Action.edges]⟩

theorem UnderWay.failAttempt {n : Node} {kind : FailureKind} {reason : String}
    (hn : f.node? r.currentNodeId = some n) (hkind : n.kind ≠ .delay) (hstatus : r.status = .running)
    (hfail : r.failAttempt policy now kind reason = .ok r') : Trail f policy.maxAttempts r' := by
  rcases Run.failAttempt_eq_ok hfail with ⟨_, rfl⟩ | ⟨_, hmore, again, _, rfl⟩
  · have hkinds : n.kind ∈ Outcome.dispatchFailed.kinds := by
      cases hn' : n.kind <;> simp_all [Outcome.kinds]
    exact h.finish rfl (h.fits hn rfl hkinds) rfl
  · let e : HistoryEntry := ⟨some r.currentNodeId, now, .retry, some reason⟩
    refine .inl ⟨visits, tried ++ [e], ⟨h.route, ?_, ⟨?_, ?_⟩, ?_⟩, ?_, ?_⟩
    · simp [Run.record, h.history, e]
    · exact List.forall_mem_append.mpr ⟨h.retries.1, List.forall_mem_singleton.mpr ⟨rfl, rfl⟩⟩
    · have hattempts := h.attempts
      simp only [List.length_append, List.length_singleton]
      omega
    · simp [h.attempts]
    · simp [Run.isTerminal, Run.record, hstatus]
    · simp [Run.record, hstatus]

theorem UnderWay.progress (hstatus : r.status = .running)
    (hprogress : Run.Progress policy f now r r') : Trail f policy.maxAttempts r' := by
  cases hprogress with
  | dangled hnone =>
    exact h.finish rfl ⟨h.retries, rfl, .inr ⟨rfl, by simp [Funnel.hasNode, Run.visit, hnone]⟩⟩ rfl
  | branched hn haction result =>
    cases result <;> refine h.advance hn ?_ rfl ?_ (by decide) <;>
      simp [Node.kind, Node.edges, haction, Action.kind, Action.edges, Outcome.kinds]
  | delayed hn haction hdelay => exact h.delay hn haction hdelay
  | sent hn hkind hedges =>
    exact h.advance hn (by simpa [Outcome.kinds] using hkind) rfl (by simp [hedges]) (by decide)
  | failed hn hkind hfail => exact h.failAttempt hn hkind hstatus hfail

end Progress

namespace Run

theorem trail_of_call {call : Call} (ht : Trail f policy.maxAttempts r)
    (hallowed : call.Allowed f r) (happly : call.apply policy f r = .ok r') :
    Trail f policy.maxAttempts r' := by
  rcases Call.apply_eq_ok hallowed happly with ⟨_, rfl⟩ | ⟨heligible, hprogress⟩
  · exact ht
  · have hterminal := isTerminal_eq_false_of_isEligible heligible
    rcases ht with ⟨visits, tried, h, _⟩ | ⟨visits, last, h⟩
    · exact (h.resume call.now).progress (resume_status hterminal) hprogress
    · -- a run that has ended is never eligible
      simp [h.isTerminal] at hterminal

theorem Walk.trail {k : Nat} (hfresh : r.IsFresh f) (hwalk : Walk policy f r k r') :
    Trail f policy.maxAttempts r' := by
  induction hwalk with
  | stay => exact trail_of_isFresh hfresh
  | call _ call hallowed _ happly ih => exact trail_of_call ih hallowed happly

end Run

/-- The history of a run as the visits that it made, one after another, and the attempts at the
node where it stands. -/
structure Splits (f : Funnel) (budget : Int) (r : Run) (visits : List Visit)
    (tried : List HistoryEntry) : Prop where
  history : r.history = visits.flatMap Visit.entries ++ tried
  fits : ∀ v ∈ visits, v.Fits f budget
  start : ∀ v ∈ visits.head?, v.node = f.startNodeId
  leads : visits.IsChain fun v w => v.LeadsTo f (some w.node)
  /-- Nothing follows a visit that leads to no node. -/
  ends : ∀ v ∈ visits, (∀ id, ¬ v.LeadsTo f (some id)) →
    visits.getLast? = some v ∧ tried = [] ∧ v.Ends f r.status
  terminal : r.isTerminal = true → ∃ v ∈ visits.getLast?, tried = [] ∧ v.Ends f r.status
  underWay : r.isTerminal = false →
    (visits = [] → r.currentNodeId = f.startNodeId) ∧
    (∀ v ∈ visits.getLast?, v.LeadsTo f (some r.currentNodeId)) ∧
    AreRetries budget r.currentNodeId tried ∧ r.attempts = tried.length ∧
    (r.status = .waiting ↔ ∃ e ∈ r.history.getLast?, e.outcome = .waiting)

theorem getLast?_of_leadsNowhere {v : Visit}
    (hchain : visits.IsChain fun v w => v.LeadsTo f (some w.node)) (hv : v ∈ visits)
    (hnowhere : ∀ id, ¬ v.LeadsTo f (some id)) : visits.getLast? = some v := by
  obtain ⟨before, after, rfl⟩ := List.append_of_mem hv
  cases after with
  | nil => simp
  | cons w after =>
    obtain ⟨_, hafter, _⟩ := List.isChain_append.mp hchain
    exact absurd (List.isChain_cons_cons.mp hafter).1 (hnowhere _)

theorem Trail.splits (h : Trail f budget r) : ∃ visits tried, Splits f budget r visits tried := by
  rcases h with ⟨visits, tried, h, hterminal, hwaiting⟩ | ⟨visits, last, h⟩
  · refine ⟨visits, tried, h.history, h.route.fits, h.route.head, h.route.isChain, ?_, ?_, ?_⟩
    · intro v hv hnowhere
      have hlast := getLast?_of_leadsNowhere h.route.isChain hv hnowhere
      exact absurd (h.route.leadsTo_of_getLast? v hlast) (hnowhere _)
    · simp [hterminal]
    · refine fun _ => ⟨?_, h.route.leadsTo_of_getLast?, h.retries, h.attempts, hwaiting⟩
      rintro rfl
      exact h.route.eq_start_of_nil
  · have hchain : (visits ++ [last]).IsChain fun v w => v.LeadsTo f (some w.node) := by
      refine List.isChain_append.mpr ⟨h.route.isChain, .singleton _, fun v hv w hw => ?_⟩
      obtain rfl : last = w := by simpa using hw
      exact h.route.leadsTo_of_getLast? v hv
    have hlast : (visits ++ [last]).getLast? = some last := by simp
    have hfits : ∀ v ∈ visits ++ [last], v.Fits f budget :=
      List.forall_mem_append.mpr ⟨h.route.fits, List.forall_mem_singleton.mpr h.fits⟩
    refine ⟨visits ++ [last], [], by simpa using h.history, hfits, ?_, hchain, ?_, ?_, ?_⟩
    · cases visits with
      | nil =>
        intro v hv
        obtain rfl : last = v := by simpa using hv
        exact h.route.eq_start_of_nil
      | cons => simpa using h.route.head
    · intro v hv hnowhere
      have hv := getLast?_of_leadsNowhere hchain hv hnowhere
      obtain rfl : last = v := Option.some.inj (hlast.symm.trans hv)
      exact ⟨hlast, rfl, h.ends⟩
    · exact fun _ => ⟨last, hlast, rfl, h.ends⟩
    · simp [h.isTerminal]

/-- However often a run is called, its history splits into visits along the edges of the funnel. -/
theorem Run.Walk.history_splits {k : Nat} (hfresh : r.IsFresh f) (hwalk : r.Walk policy f k r') :
    ∃ visits tried, Splits f policy.maxAttempts r' visits tried :=
  (hwalk.trail hfresh).splits

theorem Run.welcome_history_splits : ∃ k r', welcomeRun.IsFresh .welcome ∧
    welcomeRun.Walk ⟨3, 60⟩ .welcome k r' ∧
    r'.history.map (·.outcome) =
      [.retry, .sent, .retry, .branchFalse, .waiting, .dispatchFailed] ∧
    ∃ visits tried, Splits .welcome 3 r' visits tried := by
  obtain ⟨k, r', hwalk, _, houtcomes⟩ := welcomeRun_walk
  exact ⟨k, r', welcomeRun_isFresh, hwalk, houtcomes, Walk.history_splits welcomeRun_isFresh hwalk⟩

end FunnelFlow
