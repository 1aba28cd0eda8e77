import FunnelFlow.Rehearsal.World
import FunnelFlow.Proofs.Log
import FunnelFlow.Proofs.Service.DryRun
import FunnelFlow.Proofs.Service.Reachable
import FunnelFlow.Proofs.Service.Scope

/-!
The runs that an event starts: one on each active funnel of its trigger, in the order of the store,
at the only node that no node refers to. Nothing else is changed, and the new runs are asked for in
the same order.
-/

namespace FunnelFlow

open Activity Rehearsal

def LogEntry.runId? : LogEntry → Option String
  | ⟨.runId, id⟩ => some id
  | _ => none

def LogEntry.enqueued? : LogEntry → Option String
  | ⟨.enqueue id, _⟩ => some id
  | _ => none

namespace Log

def runIds (log : Log) : List String := log.filterMap LogEntry.runId?

def enqueued (log : Log) : List String := log.filterMap LogEntry.enqueued?

end Log

theorem Rehearsal.Scheduler.pending_foldl_enqueue_of_new {q : Scheduler} {ids : List String}
    (hdistinct : ids.Nodup) (hnew : ∀ id ∈ ids, id ∉ q.pending) :
    (ids.foldl Scheduler.enqueue q).pending = q.pending ++ ids := by
  induction ids generalizing q with
  | nil => simp
  | cons id ids ih =>
    obtain ⟨hid, hdistinct⟩ := List.nodup_cons.mp hdistinct
    have hpending : (q.enqueue id).pending = q.pending ++ [id] :=
      if_neg (by simpa using hnew id List.mem_cons_self)
    have hothers : ∀ other ∈ ids, other ∉ (q.enqueue id).pending := by
      intro other hother
      rw [hpending, List.mem_append, List.mem_singleton, not_or]
      exact ⟨hnew other (List.mem_cons_of_mem _ hother), ne_of_mem_of_not_mem hother hid⟩
    rw [List.foldl_cons, ih hdistinct hothers, hpending, List.append_assoc, List.singleton_append]

namespace MemoryStore

variable {m m' : MemoryStore} {call : StoreCall}

theorem Changes.distinct (h : m.Changes call m') (hm : m.funnels.keys.Nodup) :
    m'.funnels.keys.Nodup := by
  cases h with
  | saveFunnel f => exact Table.nodup_keys_set hm _ _
  | deleteFunnel id => exact Table.nodup_keys_erase hm id
  | _ => exact hm

theorem putRun_of_unused {r : Run} (h : r.id ∉ m.runs.keys) :
    m.putRun r = { m with runs := m.runs ++ [runEntry r] } := by
  rw [putRun, Table.set_of_get?_eq_none (Table.get?_eq_none_iff.mpr h)]
  rfl

theorem stores_of_added {rs : List Run} {r : Run} (hr : r ∈ rs) (hdistinct : (rs.map (·.id)).Nodup)
    (hunused : r.id ∉ m.runs.keys) (hruns : m'.runs = m.runs ++ rs.map runEntry) : m'.Stores r := by
  have hkeys : Table.keys (rs.map runEntry) = rs.map (·.id) := by
    rw [Table.keys, List.map_map]
    rfl
  have hfirst := Table.ne_of_get?_eq_none (Table.get?_eq_none_iff.mpr hunused)
  rw [Stores, hruns, Table.get?_append_of_ne hfirst]
  exact Table.get?_of_mem (hkeys ▸ hdistinct) (List.mem_map_of_mem hr)

end MemoryStore

namespace Activity

theorem Logged.of_instantOr_bind {β : Type} {now? : Option Instant} {next : Instant → Activity β}
    {s s' : Stored MemoryStore} {log : Log} {result : Except Fault β}
    (h : (instantOr now? >>= next).Logged s log result s') :
    ∃ now rest, (∀ t ∈ now?, t = now) ∧ rest.runIds = log.runIds ∧ rest.enqueued = log.enqueued ∧
      (next now).Logged s rest result s' := by
  cases now? with
  | some now => exact ⟨now, log, by simp, rfl, rfl, h⟩
  | none =>
    obtain ⟨now, rest, rfl, hrest⟩ := h.of_request_bind (by rintro _ ⟨⟩)
    exact ⟨now, rest, by simp, rfl, rfl, hrest⟩

theorem CarriedOut.preserves {α : Type} {act : Activity α} {s s' : Stored MemoryStore}
    {result : Except Fault α} {inv : MemoryStore → Prop}
    (hinv : ∀ {m m' : MemoryStore} {call : StoreCall}, m.Changes call m' → inv m → inv m')
    (hrun : act.CarriedOut s result s') (hs : inv s.data) : inv s'.data := by
  induction hrun with
  | done => exact hs
  | ask hserved _ ih =>
    apply ih
    rcases hserved.changes with hkept | ⟨call, -, hchanges⟩
    · rwa [hkept]
    · exact hinv hchanges hs

end Activity

namespace Service

/-- The stores that editors and workers leave behind who come one after the other. An edit reads the
clock at most once, which has no zone, and takes at most one new id, which is not empty; everything
else may be answered from outside as it likes, and runs of many levels may be copied or not. -/
inductive InOrder (policy : RetryPolicy) (runTtl funnelTtl : Span) : Stored MemoryStore → Prop
  | empty (ids : IdSupply) : InOrder policy runTtl funnelTtl ⟨ids, .empty runTtl funnelTtl⟩
  | edit {s : Stored MemoryStore} (h : InOrder policy runTtl funnelTtl s) (editor : String)
    (op : Editing.Operation) {now : Instant} (hnow : now.zone = none) {fresh : String}
    (hfresh : fresh ≠ "") :
    InOrder policy runTtl funnelTtl ((op.by editor).run (still now fresh) s).2
  | work {s s' : Stored MemoryStore} (h : InOrder policy runTtl funnelTtl s)
    (op : Operation policy) (hop : ∀ editor edit, op ≠ .edit editor edit)
    {levels : Nat} {log : Log} (result : Except Fault Unit)
    (hrun : op.activity.LoggedWithin levels s log result s') : InOrder policy runTtl funnelTtl s'

variable {policy : RetryPolicy} {runTtl funnelTtl : Span} {s s' : Stored MemoryStore}

theorem Operation.sparesFunnels (op : Operation policy)
    (hop : ∀ editor edit, op ≠ .edit editor edit) : op.activity.SparesFunnels := by
  have hdiscard {α : Type} {act : Activity α} (h : act.SparesFunnels) :
      (discard act).SparesFunnels := h.andThen fun _ _ => .ok trivial
  cases op with
  | edit editor op => exact absurd rfl (hop editor op)
  | dispatch e executed now? => exact hdiscard (e.dispatch_sparesFunnels executed now?)
  | execute x hpolicy id now? => exact hdiscard (x.execute_isOfRun id now?).sparesFunnels
  | cancel x hpolicy id now? => exact hdiscard (x.cancel_isOfRun id now?).sparesFunnels
  | pass x hpolicy batchSize now? => exact hdiscard (x.pass_sparesFunnels batchSize now?)

namespace InOrder

/-- Only edits touch the funnels and their locks. -/
theorem keeps {P : MemoryStore → Prop} (h : InOrder policy runTtl funnelTtl s)
    (hempty : P (.empty runTtl funnelTtl))
    (hedit : ∀ (s : Stored MemoryStore) (editor : String) (op : Editing.Operation) (now : Instant)
      (fresh : String), now.zone = none → fresh ≠ "" → P s.data →
        P ((op.by editor).run (still now fresh) s).2.data)
    (hcongr : ∀ {m m' : MemoryStore}, P m → m'.funnels = m.funnels →
      m'.funnelLocks = m.funnelLocks → P m') : P s.data := by
  induction h with
  | empty ids => exact hempty
  | edit _ editor op hnow hfresh ih => exact hedit _ editor op _ _ hnow hfresh ih
  | work _ op hop result hrun ih =>
    obtain ⟨hfunnels, hlocks⟩ := (op.sparesFunnels hop).frame hrun
    exact hcongr ih hfunnels hlocks

theorem keepsSound (h : InOrder policy runTtl funnelTtl s) : s.data.KeepsSound :=
  h.keeps nofun
    (fun s editor op now fresh _ _ hs => ((op.by_abides editor).preserves Editing.terms_preserve
      (carriedOut_run (still_served now fresh) _ s) hs).1)
    fun hs hfunnels _ => hs.congr hfunnels

theorem distinct (h : InOrder policy runTtl funnelTtl s) : s.data.funnels.keys.Nodup :=
  h.keeps .nil
    (fun s _ _ now fresh _ _ hs =>
      (carriedOut_run (still_served now fresh) _ s).preserves MemoryStore.Changes.distinct hs)
    fun hs hfunnels _ => hfunnels ▸ hs

theorem isGuarded (h : InOrder policy runTtl funnelTtl s) : s.data.IsGuarded :=
  h.keeps ⟨nofun, nofun, nofun⟩
    (fun _ editor op _ _ hnow hfresh hs => Editing.Operation.keeps hs hfresh hnow op editor)
    fun hs hfunnels hlocks => hs.congr hfunnels hlocks

theorem exists_funnels (h : InOrder policy runTtl funnelTtl s) :
    ∃ fs : List Funnel, s.data.funnels = fs.map funnelEntry ∧
      ∀ f ∈ fs, f.id ≠ "" ∧ (f.isActive = true → f.violations = []) := by
  apply Table.exists_eq_map
  rintro ⟨id, document⟩ he
  obtain ⟨f, hf, rfl⟩ := h.keepsSound _ he
  obtain ⟨hne, g, rfl, hsame⟩ :=
    h.isGuarded.filed _ _ (Table.get?_of_mem h.distinct he)
  -- the two documents are the same, so their ids are
  have hid : f.id = g.id :=
    Value.text.inj (congrArg (Fields.get · "id") (Value.object.inj hsame))
  rw [← hid] at hne
  exact ⟨f, by rw [funnelEntry, hid], hne, hf.active⟩

end InOrder

end Service

namespace Event

variable {e : Event} {executed : Bool} {now : Instant} {s s' : Stored MemoryStore} {log : Log}
  {f : Funnel} {fs : List Funnel}

def concerns (e : Event) (f : Funnel) : Bool := f.isActive && f.trigger == e.trigger

structure Starts (e : Event) (executed : Bool) (now : Instant) (fs : List Funnel)
    (s s' : Stored MemoryStore) (log : Log) (runs : List Run) : Prop where
  started : List.Forall₂ (fun f r => r = e.start f r.id now) fs runs
  ids : runs.map (·.id) = log.runIds
  store : s' = { s with data.runs := s.data.runs ++ runs.map MemoryStore.runEntry }
  enqueued : log.enqueued = if executed then log.runIds else []

/-- The run on the first funnel is created, and put into the queue if it is to be executed; then it
is the turn of the others. -/
theorem startAll_cons_logged {result : Except Fault (List Run)}
    (h : (e.startAll executed now (f :: fs)).Logged s log result s') :
    ∃ (id : String) (tail : Log) (rest : Except Fault (List Run)),
      log.runIds = id :: tail.runIds ∧
      log.enqueued = (if executed then [id] else []) ++ tail.enqueued ∧
      (e.startAll executed now fs).Logged
        { s with data := s.data.putRun (e.start f id now) } tail rest s' ∧
      result = rest.map (e.start f id now :: ·) := by
  obtain ⟨id, rest, rfl, hcreation⟩ := h.of_request_bind (by rintro _ ⟨⟩)
  obtain ⟨rest, rfl, hqueue⟩ := hcreation.of_store_bind (MemoryStore.writeRun_run _ s)
  cases executed with
  | true =>
    obtain ⟨_, tail, rfl, hothers⟩ := hqueue.of_request_bind (by rintro _ ⟨⟩)
    obtain ⟨mid, hall, hresult⟩ := hothers.of_map
    exact ⟨id, tail, mid, rfl, rfl, hall, hresult⟩
  | false =>
    obtain ⟨mid, hall, hresult⟩ := Logged.of_map hqueue
    exact ⟨id, rest, mid, rfl, rfl, hall, hresult⟩

theorem Starts.cons {id : String} {tail : Log} {runs : List Run}
    (hunused : id ∉ s.data.runs.keys) (hids : log.runIds = id :: tail.runIds)
    (henqueued : log.enqueued = (if executed then [id] else []) ++ tail.enqueued)
    (h : e.Starts executed now fs { s with data := s.data.putRun (e.start f id now) } s' tail runs) :
    e.Starts executed now (f :: fs) s s' log (e.start f id now :: runs) where
  started := .cons rfl h.started
  ids := by
    rw [List.map_cons, h.ids, hids]
    rfl
  store := by
    rw [h.store, List.map_cons, List.append_cons,
      MemoryStore.putRun_of_unused (r := e.start f id now) hunused]
  enqueued := by
    rw [henqueued, hids, h.enqueued]
    cases executed <;> rfl

theorem startAll_starts {result : Except Fault (List Run)}
    (hrun : (e.startAll executed now fs).Logged s log result s') (hdistinct : log.runIds.Nodup)
    (hunused : ∀ id ∈ log.runIds, id ∉ s.data.runs.keys) :
    ∃ runs, result = .ok runs ∧ e.Starts executed now fs s s' log runs := by
  induction fs generalizing s log result with
  | nil =>
    obtain ⟨rfl, rfl, rfl⟩ := hrun.of_pure
    exact ⟨[], rfl, .nil, rfl, by simp, by simp [Log.enqueued, Log.runIds]⟩
  | cons f fs ih =>
    obtain ⟨id, tail, rest, hids, henqueued, hothers, rfl⟩ := startAll_cons_logged hrun
    rw [hids] at hdistinct hunused
    obtain ⟨hid, hdistinct⟩ := List.nodup_cons.mp hdistinct
    -- the ids that are drawn later are still unused, and differ from this one
    have hothersUnused : ∀ other ∈ tail.runIds,
        other ∉ (s.data.putRun (e.start f id now)).runs.keys := by
      intro other hother hkeys
      rcases Table.mem_keys_set hkeys with rfl | hkeys
      · exact hid hother
      · exact hunused other (List.mem_cons_of_mem _ hother) hkeys
    obtain ⟨runs, rfl, hstarts⟩ := ih hothers hdistinct hothersUnused
    exact ⟨_, rfl, hstarts.cons (hunused id List.mem_cons_self) hids henqueued⟩

structure Begins (e : Event) (now : Instant) (f : Funnel) (r : Run) : Prop where
  funnelId : r.funnelId = f.id
  contactId : r.contactId = e.contactId
  payload : r.payload = e.payload
  status : r.status = .running
  attempts : r.attempts = 0
  history : r.history = []
  resumeAt : r.resumeAt = none
  nextAttemptAt : r.nextAttemptAt = none
  createdAt : r.createdAt = some now
  updatedAt : r.updatedAt = some now
  currentNodeId : r.currentNodeId = f.startNodeId
  distinct : f.nodeIds.Nodup
  start_mem : f.startNodeId ∈ f.nodeIds
  root_iff : ∀ id ∈ f.nodeIds, (∀ a, ¬ f.Refers a id) ↔ id = f.startNodeId

theorem begins_of_valid {r : Run} (hvalid : f.violations = []) (hr : r = e.start f r.id now) :
    e.Begins now f r := by
  obtain ⟨_, hdistinct, hroot, _⟩ := Funnel.violations_eq_nil_iff_checks.mp hvalid
  obtain ⟨hroots, hstart⟩ := Funnel.rootViolations_eq_nil_iff.mp hroot
  have hmem := Funnel.hasNode_iff.mp hstart
  rw [hr]
  exact ⟨rfl, rfl, rfl, rfl, rfl, rfl, rfl, rfl, rfl, rfl, rfl, hdistinct, hmem,
    (Funnel.roots_eq_singleton_iff hdistinct hmem).mp hroots⟩

/-- What a store with some funnels, a log and the result of an activity come to when an event starts
its runs and nothing else happens. -/
structure Dispatched (e : Event) (executed : Bool) (now : Instant) (fs : List Funnel)
    (s s' : Stored MemoryStore) (log : Log) (runs : List Run) : Prop where
  begun : List.Forall₂ (e.Begins now) (fs.filter e.concerns) runs
  ids : runs.map (·.id) = log.runIds
  distinct : (runs.map (·.id)).Nodup
  unused : ∀ r ∈ runs, r.id ∉ s.data.runs.keys
  store : s' = { s with data.runs := s.data.runs ++ runs.map MemoryStore.runEntry }
  found : ∀ r ∈ runs, (MemoryStore.answer (.getRun r.id)).run s' = (.ok (some r), s')
  pending (q : Scheduler) (hq : ∀ r ∈ runs, r.id ∉ q.pending) :
    (log.enqueued.foldl Scheduler.enqueue q).pending =
      q.pending ++ if executed then runs.map (·.id) else []

theorem Starts.dispatched {runs : List Run}
    (h : e.Starts executed now ((fs.filter e.concerns).map Funnel.restored) s s' log runs)
    (hvalid : ∀ f ∈ fs, f.isActive = true → f.violations = []) (hdistinct : log.runIds.Nodup)
    (hunused : ∀ id ∈ log.runIds, id ∉ s.data.runs.keys) :
    e.Dispatched executed now fs s s' log runs := by
  have hids := h.ids
  have hdistinct' : (runs.map (·.id)).Nodup := hids ▸ hdistinct
  have hunused' : ∀ r ∈ runs, r.id ∉ s.data.runs.keys := fun r hr =>
    hunused r.id (hids ▸ List.mem_map_of_mem hr)
  refine ⟨?begun, hids, hdistinct', hunused', h.store, fun r hr => ?found, fun q hq => ?pending⟩
  case begun =>
    have hconcerned : ∀ f ∈ fs.filter e.concerns, f.violations = [] := by
      intro f hf
      obtain ⟨hstored, hconcerns⟩ := List.mem_filter.mp hf
      exact hvalid f hstored (Bool.and_elim_left hconcerns)
    -- what is read back of a funnel has its id and its start
    have hstarted := List.forall₂_map_left_iff.mp h.started
    exact ((List.forall₂_and_left _ _).mpr ⟨hconcerned, hstarted⟩).imp fun f r hr =>
      begins_of_valid hr.1 hr.2
  case found =>
    have hruns : s'.data.runs = s.data.runs ++ runs.map MemoryStore.runEntry := by rw [h.store]
    exact MemoryStore.answer_getRun
      (MemoryStore.stores_of_added hr hdistinct' (hunused' r hr) hruns)
  case pending =>
    rw [h.enqueued, hids]
    cases executed with
    | false => simp
    | true =>
      refine Scheduler.pending_foldl_enqueue_of_new hdistinct fun id hid => ?_
      rw [← hids] at hid
      obtain ⟨r, hr, rfl⟩ := List.mem_map.mp hid
      exact hq r hr

/-- What a dispatch asks for, and of which runs. -/
def terms (e : Event) : Terms where
  asks
    | .store (.createRun r) => r.payload = e.payload
    | .store (.activeFunnels _) | .clock | .runId | .enqueue _ => True
    | _ => False
  replies _ _ := True

theorem dispatch_logged {levels : Nat} {now? : Option Instant} {result : Except Fault (List Run)}
    (hshallow : e.payload.IsShallow levels)
    (hrun : (e.dispatch executed now?).LoggedWithin levels s log result s') :
    (e.dispatch executed now?).Logged s log result s' := by
  have habides : (e.dispatch executed now?).Abides e.terms (OnSuccess fun _ => True) :=
    dispatch_abides trivial (fun _ _ _ => rfl) (fun _ => trivial) trivial trivial executed now?
  refine habides.logged_within (fun _ _ => trivial) (fun call m hcall => ?_) hrun
  cases call with
  | createRun r =>
    have hpayload : r.payload = e.payload := hcall
    exact MemoryStore.copiesBeyond_of_writes rfl (hpayload ▸ hshallow)
  | activeFunnels => rfl
  | _ => exact hcall.elim

/-- Every active funnel of the trigger of an event gets one run, as long as these can be copied and
the ids that are drawn for them are new. -/
theorem funnels_get_one_run_each {policy : RetryPolicy} {runTtl funnelTtl : Span} {levels : Nat}
    {now? : Option Instant} {result : Except Fault (List Run)}
    (h : Service.InOrder policy runTtl funnelTtl s)
    (hrun : (e.dispatch executed now?).LoggedWithin levels s log result s')
    (hshallow : e.payload.IsShallow levels) (hdistinct : log.runIds.Nodup)
    (hunused : ∀ id ∈ log.runIds, id ∉ s.data.runs.keys) :
    ∃ now fs runs, (∀ t ∈ now?, t = now) ∧ s.data.funnels = fs.map funnelEntry ∧
      result = .ok runs ∧ e.Dispatched executed now fs s s' log runs := by
  obtain ⟨fs, hfs, hvalid⟩ := h.exists_funnels
  obtain ⟨now, rest, hnow, hids, henqueued, hrest⟩ := (dispatch_logged hshallow hrun).of_instantOr_bind
  obtain ⟨mid, hall, rfl⟩ := hrest.of_during
  have hquery : (MemoryStore.answer (.activeFunnels e.trigger.name)).run s = (.ok _, s) :=
    MemoryStore.activeFunnels_run hfs (fun f hf => (hvalid f hf).1) e.trigger
  obtain ⟨rest, rfl, hstart⟩ := hall.of_store_bind hquery
  rw [← hids] at hdistinct hunused
  obtain ⟨runs, rfl, hstarts⟩ := startAll_starts hstart hdistinct hunused
  have hstarts' : e.Starts executed now ((fs.filter e.concerns).map Funnel.restored) s s' log runs :=
    { hstarts with
      ids := hstarts.ids.trans hids
      enqueued := by
        rw [← henqueued, ← hids]
        exact hstarts.enqueued }
  rw [hids] at hdistinct hunused
  exact ⟨now, fs, runs, hnow, hfs, rfl,
    hstarts'.dispatched (fun f hf => (hvalid f hf).2) hdistinct hunused⟩

/-- When the first run cannot be copied, it is stored, but not put into the queue, and none is
started on the other funnels. -/
theorem dispatch_uncopied {levels : Nat} {rest : List Funnel}
    (hfs : s.data.funnels = fs.map funnelEntry) (hids : ∀ f ∈ fs, f.id ≠ "")
    (hconcerned : fs.filter e.concerns = f :: rest)
    (hdeep : levels ≤ (Value.object e.payload).height) (executed : Bool) (now : Instant)
    (id : String) : ∃ log, log.runIds = [id] ∧ log.enqueued = [] ∧
      (∀ entry ∈ log, entry.request ≠ .clock) ∧
      (e.dispatch executed (some now)).LoggedWithin levels s log
        (.error (.failedWhile .dispatchingEvent .tooDeep))
        { s with data := s.data.putRun (e.start f id now) } := by
  have hquery : (MemoryStore.answer (.activeFunnels e.trigger.name)).run s =
      (.ok (f.restored :: rest.map Funnel.restored), s) := by
    rw [← List.map_cons, ← hconcerned]
    exact MemoryStore.activeFunnels_run hfs hids e.trigger
  have hread : Served (.store (.activeFunnels e.trigger.name)) s
      (.ok (f.restored :: rest.map Funnel.restored)) s := by
    have hserved := Served.store (.activeFunnels e.trigger.name) s
    rwa [hquery] at hserved
  have hdrawn : Served .runId s id s := Served.outside (r := .runId) (by rintro _ ⟨⟩) id s
  have hcreate : ServedWithin levels (.store (.createRun (e.start f id now))) s (.error .tooDeep)
      { s with data := s.data.putRun (e.start f id now) } :=
    servedWithin_tooDeep (MemoryStore.copiesBeyond_of_deep (List.mem_singleton_self _) hdeep)
      (MemoryStore.writeRun_run _ s)
  exact ⟨_, rfl, rfl, by simp,
    .ask (.served hread) (.ask (.served hdrawn) (.ask hcreate (.done _ _)))⟩

def newLead : Event := ⟨.leadSubscribed, "ann", [("source", .text "form")], none⟩

def saving (f : Funnel) (s : Stored MemoryStore) : Stored MemoryStore :=
  (((Editing.Operation.save (.object f.toDocument)).by "ada").run (still ⟨0, none⟩ "new") s).2

def welcomed : Stored MemoryStore := saving .welcome ⟨.first, .empty ⟨0⟩ ⟨0⟩⟩

theorem saving_inOrder {policy : RetryPolicy} {runTtl funnelTtl : Span}
    (h : Service.InOrder policy runTtl funnelTtl s) (f : Funnel) :
    Service.InOrder policy runTtl funnelTtl (saving f s) :=
  h.edit "ada" (.save (.object f.toDocument)) rfl (by decide)

theorem welcomed_inOrder (policy : RetryPolicy) : Service.InOrder policy ⟨0⟩ ⟨0⟩ welcomed :=
  saving_inOrder (.empty .first) .welcome

theorem saving_eq (hne : f.id ≠ "") (hvalid : f.violations = [])
    (hread : Editing.readAs (.object f.toDocument) "new" = .ok f)
    (hnew : s.data.funnels.get? f.id = none) (hfree : s.data.funnelLocks.get? f.id = none) :
    saving f s = { s with data.funnels := s.data.funnels ++
      [funnelEntry (f.writtenAt ⟨0, none⟩ ⟨0, none⟩)] } := by
  have hsave : (Editing.save (.object f.toDocument) "ada").run (still ⟨0, none⟩ "new") s = _ :=
    Editing.run_save_new hne hnew (fun _ => hvalid) hread hfree
  exact congrArg Prod.snd (run_bind_ok hsave)

theorem welcomed_eq : welcomed = ⟨.first, (MemoryStore.empty ⟨0⟩ ⟨0⟩).putFunnel
    { Funnel.welcome with createdAt := some ⟨0, none⟩, updatedAt := some ⟨0, none⟩ }⟩ :=
  saving_eq (by decide) Funnel.welcome_violations rfl rfl rfl

/-- Another funnel for the same event, and one for another event. -/
def tips : Funnel := { Funnel.welcome with id := "tips" }

def news : Funnel := { Funnel.welcome with id := "news", trigger := .newPostPublished }

def offering : Stored MemoryStore := saving tips (saving news welcomed)

theorem offering_inOrder (policy : RetryPolicy) : Service.InOrder policy ⟨0⟩ ⟨0⟩ offering :=
  saving_inOrder (saving_inOrder (welcomed_inOrder policy) news) tips

theorem tips_violations : tips.violations = [] :=
  (Funnel.violations_congr (f := tips) (g := .welcome) rfl).trans Funnel.welcome_violations

theorem news_violations : news.violations = [] :=
  (Funnel.violations_congr (f := news) (g := .welcome) rfl).trans Funnel.welcome_violations

def offered : List Funnel := [.welcome, news, tips].map fun f => f.writtenAt ⟨0, none⟩ ⟨0, none⟩

theorem offering_eq :
    offering = ⟨.first, { MemoryStore.empty ⟨0⟩ ⟨0⟩ with funnels := offered.map funnelEntry }⟩ := by
  rw [offering, welcomed_eq, saving_eq (by decide) news_violations rfl rfl rfl,
    saving_eq (by decide) tips_violations rfl rfl rfl]
  rfl

def counting (now : Instant) : (r : Request) → Stored MemoryStore → r.Answer × Stored MemoryStore
  | .runId, s => ("run-" ++ toString (s.data.runs.length + 1), s)
  | r, s => still now "" r s

theorem counting_served (now : Instant) (r : Request) (s : Stored MemoryStore) :
    Served r s (counting now r s).1 (counting now r s).2 := by
  cases r with
  | store call => exact .store call s
  | _ =>
    refine .outside ?_ _ s
    rintro _ ⟨⟩

theorem offering_starts_two_runs :
    let log := (newLead.dispatch true none).logIn (counting ⟨1, none⟩) offering
    let outcome := (newLead.dispatch true none).run (counting ⟨1, none⟩) offering
    Service.InOrder ⟨3, 60⟩ ⟨0⟩ ⟨0⟩ offering ∧ newLead.payload.IsShallow 500 ∧
    offering.data.funnels.keys = ["welcome", "news", "tips"] ∧ offering.data.runs.keys = [] ∧
    log.runIds = ["run-1", "run-2"] ∧ log.enqueued = ["run-1", "run-2"] ∧
    outcome.1.map (List.map (·.funnelId)) = .ok ["welcome", "tips"] ∧
    ∃ now fs runs, (∀ t ∈ (none : Option Instant), t = now) ∧
      offering.data.funnels = fs.map funnelEntry ∧ outcome.1 = .ok runs ∧
      newLead.Dispatched true now fs offering outcome.2 log runs := by
  intro log outcome
  have hids : log.runIds = ["run-1", "run-2"] := by
    simp only [log, offering_eq]
    rfl
  have henqueued : log.enqueued = ["run-1", "run-2"] := by
    simp only [log, offering_eq]
    rfl
  have hstarted : outcome.1.map (List.map (·.funnelId)) = .ok ["welcome", "tips"] := by
    simp only [outcome, offering_eq]
    rfl
  have hkeys : offering.data.funnels.keys = ["welcome", "news", "tips"] := by
    rw [offering_eq]
    rfl
  have hunused : offering.data.runs.keys = [] := by
    rw [offering_eq]
    rfl
  have hinOrder := offering_inOrder ⟨3, 60⟩
  have hshallow : newLead.payload.IsShallow 500 := by decide
  have hrun := (logged_run (counting_served ⟨1, none⟩) (newLead.dispatch true none) offering).within 500
  have hdistinct : log.runIds.Nodup := by
    rw [hids]
    decide
  exact ⟨hinOrder, hshallow, hkeys, hunused, hids, henqueued, hstarted,
    funnels_get_one_run_each hinOrder hrun hshallow hdistinct (by simp [hunused])⟩

def deepLead : Event := { newLead with payload := .nested 600 }

theorem deepLead_deep : mostLevels ≤ (Value.object deepLead.payload).height := by
  rw [deepLead, Fields.height_nested]
  decide

/-- The run on the first funnel is stored, which nobody is told of, and the other funnel gets
none. -/
theorem deepLead_misses_funnels : ∃ (log : Log) (s' : Stored MemoryStore),
    Service.InOrder ⟨3, 60⟩ ⟨0⟩ ⟨0⟩ offering ∧ offering.data.funnels = offered.map funnelEntry ∧
    (offered.filter deepLead.concerns).map (·.id) = ["welcome", "tips"] ∧
    (deepLead.dispatch true (some ⟨1, none⟩)).LoggedWithin mostLevels offering log
      (.error (.failedWhile .dispatchingEvent .tooDeep)) s' ∧
    log.runIds = ["run-1"] ∧ log.enqueued = [] ∧
    s'.data.runs.map (·.1) = offering.data.runs.map (·.1) ++ ["run-1"] := by
  have hfs : offering.data.funnels = offered.map funnelEntry := by rw [offering_eq]
  obtain ⟨log, hids, henqueued, _, hrun⟩ := dispatch_uncopied hfs (by decide) rfl deepLead_deep true
    ⟨1, none⟩ "run-1"
  refine ⟨log, _, offering_inOrder ⟨3, 60⟩, hfs, rfl, hrun, hids, henqueued, ?_⟩
  rw [offering_eq]
  rfl

end Event

end FunnelFlow
