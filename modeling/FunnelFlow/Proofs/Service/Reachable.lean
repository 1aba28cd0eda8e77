import FunnelFlow.Service.Event
import FunnelFlow.Proofs.Service.Editing
import FunnelFlow.Proofs.Service.Holding

namespace FunnelFlow

open Activity

structure RetryPolicy.Keeps (policy : RetryPolicy) (P : Run → Prop) : Prop where
  start (e : Event) (f : Funnel) (id : String) (now : Instant) : P (e.start f id now)
  step {r r' : Run} {f : Funnel} {now : Instant} (hr : P r)
    (heligible : r.isEligible now = .ok true)
    (hprogress : Run.Progress policy f now (r.resume now) r') : P r'
  orphan {r : Run} (hr : P r) (now : Instant) : P (Execution.orphan r now)
  cancelled {r : Run} (hr : P r) (now : Instant) : P (Execution.cancelled r now)

theorem Task.close_keeps {policy : RetryPolicy} {P : Run → Prop} {r : Run}
    (hkeeps : policy.Keeps P) (task : Task) (hr : P r) (now : Instant) : P (task.close r now) := by
  cases task with
  | execute => exact hkeeps.orphan hr now
  | cancel => exact hkeeps.cancelled hr now

theorem Task.activity_maintains {P : Run → Prop} {x : Execution} (hkeeps : x.policy.Keeps P)
    (task : Task) (id : String) (now? : Option Instant) :
    (task.activity x id now?).Maintains fun m => m.KeepsSound ∧ m.KeepsRuns P := by
  let e := task.errand x id fun _ => True
  have htracks : e.protocol.Tracks (fun _ _ => True)
      fun g m => e.Sees g m ∧ m.KeepsSound ∧ m.KeepsRuns P := by
    rintro g q a s s' ⟨hsees, hsound, hruns⟩ hasks hserved _
    have hadmits : e.Admits q a := task.errand_admits x id q a
    obtain ⟨g', hreply, hsees', _⟩ := hsees.answered hasks hserved hadmits
    refine ⟨g', hreply, hsees', ?_⟩
    rcases hserved.changes with hkept | ⟨call, rfl, hchanges⟩
    · rw [hkept]
      exact ⟨hsound, hruns⟩
    · obtain ⟨hfunnels, hsame | ⟨_, _, r, r', rfl, hwritten, hwrites⟩⟩ :=
        hsees.effect hasks hchanges
      · exact ⟨hsound.congr hfunnels, hruns.congr hsame⟩
      · obtain ⟨_, _, hstores, _⟩ := hsees
        -- what is written comes from the run that is held, which is the one that was stored
        have hr := hruns.of_stores hstores
        have hr' : P r' := by
          rcases hwrites with ⟨_, now, f, _, _, heligible, hprogress⟩ | ⟨rfl, _⟩ | ⟨_, now, _, rfl⟩
          · exact hkeeps.step hr heligible hprogress
          · exact hr
          · exact task.close_keeps hkeeps hr now
        exact ⟨hsound.congr hfunnels, (hruns.putRun hr').congr hwritten⟩
  rintro s result s' ⟨hsound, hruns⟩ hrun
  have hapart : e.Sees .apart s.data := by
    intro document hdocument
    obtain ⟨r, hid, hdocument, _⟩ := hruns id document hdocument
    exact ⟨r, hid, hdocument⟩
  obtain ⟨g', _, ⟨_, hinv⟩, _⟩ :=
    activity_follows.reaches htracks ⟨hapart, hsound, hruns⟩ hrun.reaches
  exact hinv

namespace Service

inductive Operation (policy : RetryPolicy) where
  | edit (editor : String) (op : Editing.Operation)
  | dispatch (e : Event) (executed : Bool) (now? : Option Instant)
  | execute (x : Execution) (hpolicy : x.policy = policy) (id : String) (now? : Option Instant)
  | cancel (x : Execution) (hpolicy : x.policy = policy) (id : String) (now? : Option Instant)
  | pass (x : Execution) (hpolicy : x.policy = policy) (batchSize : Int) (now? : Option Instant)

def Operation.activity {policy : RetryPolicy} : Operation policy → Activity Unit
  | .edit editor op => op.by editor
  | .dispatch e executed now? => discard (e.dispatch executed now?)
  | .execute x _ id now? => discard (x.execute id now?)
  | .cancel x _ id now? => discard (x.cancel id now?)
  | .pass x _ batchSize now? => discard (x.pass batchSize now?)

inductive Reachable (policy : RetryPolicy) (runTtl funnelTtl : Span) : Stored MemoryStore → Prop
  | empty (ids : IdSupply) : Reachable policy runTtl funnelTtl ⟨ids, .empty runTtl funnelTtl⟩
  | next {s s' : Stored MemoryStore} (h : Reachable policy runTtl funnelTtl s)
    (op : Operation policy) (result : Except Fault Unit)
    (hrun : op.activity.CarriedOut s result s') : Reachable policy runTtl funnelTtl s'

theorem Reachable.run {policy : RetryPolicy} {runTtl funnelTtl : Span} {s : Stored MemoryStore}
    {answer : (r : Request) → Stored MemoryStore → r.Answer × Stored MemoryStore}
    (hanswer : ∀ r s, Served r s (answer r s).1 (answer r s).2)
    (h : Reachable policy runTtl funnelTtl s) (op : Operation policy) :
    Reachable policy runTtl funnelTtl (op.activity.run answer s).2 :=
  h.next op _ (carriedOut_run hanswer op.activity s)

variable {P : Run → Prop} {policy : RetryPolicy}

theorem terms_preserve : Editing.terms.Preserve fun s =>
    s.data.KeepsSound ∧ s.data.KeepsRuns P := by
  rintro q s s' a ⟨hsound, hruns⟩ hasks hserved
  obtain ⟨hsound', hreply⟩ := Editing.terms_preserve q s s' a hsound hasks hserved
  refine ⟨⟨hsound', ?_⟩, hreply⟩
  rcases hserved.changes with hkept | ⟨call, rfl, hchanges⟩
  · rwa [hkept]
  · refine hruns.changes hchanges fun r hr => ?_
    cases call with
    | createRun => exact hasks.elim
    | saveRun => exact hasks.elim
    | releaseRun => exact hasks.elim
    | _ => cases hr

theorem edit_maintains (editor : String) (op : Editing.Operation) :
    (op.by editor).Maintains fun m => m.KeepsSound ∧ m.KeepsRuns P :=
  fun _ _ _ hs hrun => ((op.by_abides editor).preserves terms_preserve hrun hs).1

theorem store_maintains {call : StoreCall} (hcall : ¬ call.Edits)
    (hrun : ∀ r, call.run? = some r → P r) :
    (store call).Maintains fun m => m.KeepsSound ∧ m.KeepsRuns P := by
  refine .store fun s hs => ?_
  have hchanges := MemoryStore.answer_changes call s
  exact ⟨hs.1.congr (hchanges.funnels_eq hcall), hs.2.changes hchanges hrun⟩

theorem instantOr_maintains {inv : MemoryStore → Prop} (now? : Option Instant) :
    (instantOr now?).Maintains inv := by
  cases now? with
  | none => exact .request (by rintro _ ⟨⟩)
  | some now => exact .done _

theorem startAll_maintains (hkeeps : policy.Keeps P) (e : Event) (executed : Bool) (now : Instant)
    (funnels : List Funnel) :
    (e.startAll executed now funnels).Maintains fun m => m.KeepsSound ∧ m.KeepsRuns P := by
  induction funnels with
  | nil => exact .done _
  | cons f funnels ih =>
    have hcreate (id : String) : (store (.createRun (e.start f id now))).Maintains
        fun m => m.KeepsSound ∧ m.KeepsRuns P := by
      refine store_maintains (fun h => h) ?_
      rintro _ ⟨⟩
      exact hkeeps.start e f _ now
    refine .bind (.request (by rintro _ ⟨⟩)) fun id => .bind (hcreate id) fun created => ?_
    have hrest := Maintains.bind ih fun rest => .done (.ok (created :: rest))
    split
    · exact .bind (.request (by rintro _ ⟨⟩)) fun _ => hrest
    · exact hrest

theorem dispatch_maintains (hkeeps : policy.Keeps P) (e : Event) (executed : Bool)
    (now? : Option Instant) :
    (e.dispatch executed now?).Maintains fun m => m.KeepsSound ∧ m.KeepsRuns P := by
  have hread : (store (.activeFunnels e.trigger.name)).Maintains
      fun m => m.KeepsSound ∧ m.KeepsRuns P := store_maintains id (by rintro _ ⟨⟩)
  exact .bind (instantOr_maintains now?) fun now => .during _ <|
    .bind hread fun funnels => startAll_maintains hkeeps e executed now funnels

theorem executeAll_maintains {x : Execution} (hkeeps : x.policy.Keeps P) (now : Instant)
    (ids : List String) :
    (x.executeAll now ids).Maintains fun m => m.KeepsSound ∧ m.KeepsRuns P := by
  induction ids with
  | nil => exact .done _
  | cons id ids ih =>
    have hexecute := Task.activity_maintains hkeeps .execute id (some now)
    refine .bind hexecute.attempt fun result => .bind ih fun rest => ?_
    cases result <;> exact .done _

theorem pass_maintains {x : Execution} (hkeeps : x.policy.Keeps P) (batchSize : Int)
    (now? : Option Instant) :
    (x.pass batchSize now?).Maintains fun m => m.KeepsSound ∧ m.KeepsRuns P := by
  have hdue (now : Instant) : (store (.dueRuns now batchSize)).Maintains
      fun m => m.KeepsSound ∧ m.KeepsRuns P := store_maintains id (by rintro _ ⟨⟩)
  exact .bind (instantOr_maintains now?) fun now => .bind (.request (by rintro _ ⟨⟩)) fun asked =>
    .bind (hdue now) fun due => executeAll_maintains hkeeps now _

theorem Operation.maintains (hkeeps : policy.Keeps P) (op : Operation policy) :
    op.activity.Maintains fun m => m.KeepsSound ∧ m.KeepsRuns P := by
  have hdiscard {α : Type} {act : Activity α}
      (h : act.Maintains fun m => m.KeepsSound ∧ m.KeepsRuns P) :
      (discard act).Maintains fun m => m.KeepsSound ∧ m.KeepsRuns P :=
    h.bind fun _ => .done _
  cases op with
  | edit editor op => exact edit_maintains editor op
  | dispatch e executed now? => exact hdiscard (dispatch_maintains hkeeps e executed now?)
  | execute x hpolicy id now? =>
    exact hdiscard (Task.activity_maintains (hpolicy ▸ hkeeps) .execute id now?)
  | cancel x hpolicy id now? =>
    exact hdiscard (Task.activity_maintains (hpolicy ▸ hkeeps) .cancel id now?)
  | pass x hpolicy batchSize now? =>
    exact hdiscard (pass_maintains (hpolicy ▸ hkeeps) batchSize now?)

theorem Reachable.keeps {runTtl funnelTtl : Span} {s : Stored MemoryStore}
    (h : Reachable policy runTtl funnelTtl s) (hkeeps : policy.Keeps P) :
    s.data.KeepsSound ∧ s.data.KeepsRuns P := by
  induction h with
  | empty ids => exact ⟨nofun, nofun⟩
  | next _ op result hrun ih => exact op.maintains hkeeps _ result _ ih hrun

theorem Reachable.keepsSound {runTtl funnelTtl : Span} {s : Stored MemoryStore}
    (h : Reachable policy runTtl funnelTtl s) : s.data.KeepsSound :=
  have hkeeps : policy.Keeps fun _ => True :=
    ⟨fun _ _ _ _ => trivial, fun _ _ _ => trivial, fun _ _ => trivial, fun _ _ => trivial⟩
  (h.keeps hkeeps).1

end Service

end FunnelFlow
