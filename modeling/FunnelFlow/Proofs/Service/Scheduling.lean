import FunnelFlow.Proofs.Service.Discipline
import FunnelFlow.Proofs.Service.Dispatch
import FunnelFlow.Proofs.Service.Steady
import FunnelFlow.Proofs.Store.Due

/-!
No run is left behind: whatever the service has been asked for, and however far it got with it, the
runs that the store gives out as due are exactly those that are not locked and that a step would
change; those of them that can be copied can be acquired. Operations overlap as they like; some are
never gone on with, and leave their locks behind.
-/

namespace FunnelFlow

open Activity

namespace Run

variable {r : Run} {f : Funnel} {now : Instant}

theorem start_isPunctual (e : Event) (f : Funnel) (id : String) (now : Instant) :
    (e.start f id now).IsPunctual :=
  IsWellFormed.isPunctual ⟨nofun, nofun, Int.le_refl 0⟩ (by simp [Event.start])

theorem IsPunctual.orphan (h : r.IsPunctual) (now : Instant) :
    (Execution.orphan r now).IsPunctual := by
  unfold Execution.orphan
  split
  · exact h
  · exact IsWellFormed.isPunctual ⟨h.resumeAt, h.nextAttemptAt, h.attempts⟩ (by simp)

theorem IsPunctual.cancelled (h : r.IsPunctual) (now : Instant) :
    (Execution.cancelled r now).IsPunctual := by
  unfold Execution.cancelled
  split
  · exact h
  · exact IsWellFormed.isPunctual ⟨nofun, nofun, h.attempts⟩ (by simp)

theorem IsPunctual.step {policy : RetryPolicy} {attributes : Fields}
    {deliver : SendRequest → Delivery} {result : StepResult} (h : r.IsPunctual)
    (hnow : now.zone = none) (hstep : r.step policy f now attributes deliver = .ok result) :
    result.run.IsPunctual := by
  rcases step_eq_ok hstep with ⟨_, rfl⟩ | ⟨heligible, hprogress⟩
  · exact h
  · exact h.progress hnow heligible hprogress

end Run

namespace MemoryStore

variable {m m' : MemoryStore} {s : Stored MemoryStore} {P : Run → Prop} {r : Run} {id : String}

theorem KeepsRuns.of_getRun (h : s.data.KeepsRuns P)
    (hrun : ((answer (.getRun id)).run s).1 = .ok (some r)) : P r := by
  cases hdocument : s.data.runs.get? id with
  | none =>
    have hnone : ((getRun id).run s).1 = .ok none := by
      rw [getRun, StoreM.run_data_bind, hdocument]
      rfl
    cases hnone.symm.trans hrun
  | some document =>
    obtain ⟨r', rfl, rfl, hr'⟩ := h id document hdocument
    rw [answer_getRun hdocument] at hrun
    cases hrun
    exact hr'

theorem KeepsRuns.of_acquireRun {owner : String} {now : Instant} (h : s.data.KeepsRuns P)
    (hrun : ((answer (.acquireRun id owner now)).run s).1 = .ok r) : P r := by
  cases hdocument : s.data.runs.get? id with
  | none =>
    rw [answer_acquireRun_of_none hdocument] at hrun
    cases hrun
  | some document =>
    obtain ⟨r', rfl, rfl, hr'⟩ := h id document hdocument
    rw [answer_acquireRun hdocument] at hrun
    split at hrun
    · cases hrun
      exact hr'
    · cases hrun
    · cases hrun

/-- What every operation of the service leaves behind, at each of its requests. -/
structure IsTidy (m : MemoryStore) : Prop where
  funnels : m.KeepsSound
  runs : m.KeepsRuns Run.IsPunctual
  distinct : m.runs.keys.Nodup
  locks (id : String) (lock : Lock) (hlock : m.runLocks.get? id = some lock) :
    lock.acquiredAt.zone = none

theorem IsTidy.changes {call : StoreCall} (h : m.IsTidy) (hchanges : m.Changes call m')
    (hsaved : ∀ f, call = .saveFunnel f → f.IsSound)
    (hwritten : ∀ r, call.run? = some r → r.IsPunctual)
    (hnow : ∀ id owner now, call = .acquireRun id owner now → now.zone = none) : m'.IsTidy where
  funnels := h.funnels.changes hchanges hsaved
  runs := h.runs.changes hchanges hwritten
  distinct := by
    rcases hchanges.runs_eq with hsame | ⟨r, _, hput⟩
    · rw [hsame]
      exact h.distinct
    · rw [hput]
      exact Table.nodup_keys_set h.distinct _ _
  locks id lock hlock := by
    cases hchanges with
    | acquireRun id' owner now =>
      rcases Table.of_get?_set_eq_some hlock with ⟨-, rfl⟩ | ⟨-, hlock⟩
      · exact hnow id' owner now rfl
      · exact h.locks id lock hlock
    | @releaseRun r owner => exact h.locks id lock (Table.of_get?_erase_eq_some hlock).2
    | _ => exact h.locks id lock hlock

theorem IsTidy.keepsRuns (h : m.IsTidy) (hP : ∀ r, m.Stores r → r.IsPunctual → P r) :
    m.KeepsRuns P := by
  intro id document hdocument
  obtain ⟨r, rfl, rfl, hr⟩ := h.runs id document hdocument
  exact ⟨r, rfl, rfl, hP r hdocument hr⟩

theorem IsTidy.exists_runs (h : m.IsTidy) : ∃ rs : List Run, m.runs = rs.map runEntry ∧
    ∀ r ∈ rs, m.Stores r ∧ r.IsPunctual := by
  apply Table.exists_eq_map
  rintro ⟨id, document⟩ he
  have hdocument := Table.get?_of_mem h.distinct he
  obtain ⟨r, rfl, rfl, hr⟩ := h.runs id document hdocument
  exact ⟨r, rfl, hdocument, hr⟩

end MemoryStore

namespace Scheduling

/-- What the service asks of the store and of its clock, and what it counts on. -/
def terms : Terms where
  asks
    | .store (.createRun r) | .store (.saveRun r _) | .store (.releaseRun r _) => r.IsPunctual
    | .store (.acquireRun _ _ now) => now.zone = none
    | .store (.activeFunnels _) | .store (.getRun _) | .store (.dueRuns ..) => True
    | q => Editing.terms.asks q
  replies
    | .clock => fun (now : Instant) => now.zone = none
    | .store (.getRun _) => OnSuccess fun (found : Option Run) => ∀ r ∈ found, r.IsPunctual
    | .store (.acquireRun ..) | .store (.saveRun ..) => OnSuccess Run.IsPunctual
    | q => Editing.terms.replies q

def PlainClock : (q : Request) → q.Answer → Prop
  | .clock => fun (now : Instant) => now.zone = none
  | _ => fun _ => True

theorem terms_preserveUnder : terms.PreserveUnder PlainClock fun s => s.data.IsTidy := by
  intro q s s' a hs hasks hserved hclock
  cases hserved with
  | outside hq =>
    refine ⟨hs, ?_⟩
    cases q with
    | store call => exact absurd rfl (hq call)
    | clock => exact hclock
    | _ => trivial
  | store call =>
    refine ⟨hs.changes (MemoryStore.answer_changes call s) ?_ ?_ ?_, ?_⟩
    · rintro f rfl
      exact hasks
    · intro r hr
      cases call with
      | createRun => cases hr; exact hasks
      | saveRun => cases hr; exact hasks
      | releaseRun => cases hr; exact hasks
      | _ => cases hr
    · rintro id owner now rfl
      exact hasks
    · cases call with
      | getFunnel id =>
        have hserved := Served.store (.getFunnel id) s
        exact (Editing.terms_preserve (.store (.getFunnel id)) _ _ _ hs.funnels hasks hserved).2
      | getRun id =>
        rintro found hfound r rfl
        exact hs.runs.of_getRun hfound
      | acquireRun id owner now => exact fun r hr => hs.runs.of_acquireRun hr
      | saveRun r owner =>
        intro r' hr'
        rw [MemoryStore.answer_saveRun] at hr'
        split at hr' <;> cases hr'
        exact hasks
      | _ => trivial

theorem terms_allowUncopied : AllowsUncopied terms where
  asks call hcall := by cases call <;> exact hcall
  replies call e := by cases call <;> first | exact OnSuccess.error e | trivial

theorem edit_abides (editor : String) (op : Editing.Operation) :
    (op.by editor).Abides terms (OnSuccess fun _ => True) := by
  refine (op.by_abides editor).mono (fun q hq => ?_) (fun q a ha => ?_)
  · cases q with
    | store call => cases call <;> first | exact hq | exact hq.elim
    | _ => trivial
  · cases q with
    | store call => cases call <;> first | exact ha | trivial
    | _ => trivial

section Execution

variable {x : Execution} {r : Run} {f : Funnel} {now : Instant} {owner : String}

theorem instantOr_abides {now? : Option Instant} (hnow : ∀ now ∈ now?, now.zone = none) :
    (instantOr now?).Abides terms (OnSuccess fun now => now.zone = none) := by
  cases now? with
  | none => exact Abides.request trivial fun now hnow => .ok hnow
  | some now => exact OnSuccess.ok (hnow now rfl)

theorem saveRun_abides (hr : r.IsPunctual) (owner : String) :
    (store (.saveRun r owner)).Abides terms (OnSuccess Run.IsPunctual) :=
  Abides.store hr fun _ h => h

theorem step_abides (hr : r.IsPunctual) (hnow : now.zone = none) (f : Funnel)
    (attributes : Fields) : (x.step r f now attributes).Abides terms
      (OnSuccess fun stepped => stepped.run.IsPunctual) := by
  unfold Execution.step
  cases hmove : r.move f now attributes with
  | error fault => exact OnSuccess.error fault
  | ok move =>
    cases move with
    | settled run =>
      have hstep : r.step x.policy f now attributes (fun _ => .accepted) = .ok ⟨run, none⟩ := by
        simp [Run.step, hmove, bind, Except.bind]
      exact OnSuccess.ok (hr.step hnow hstep)
    | sending run message next =>
      refine (Execution.deliver_abides (fun _ _ => trivial) x message).andThen fun delivery _ => ?_
      cases hsettle : run.settle x.policy now next delivery with
      | error fault => exact OnSuccess.error fault
      | ok settled =>
        have hstep : r.step x.policy f now attributes (fun _ => delivery) =
            .ok ⟨settled, some message⟩ := by
          simp [Run.step, hmove, hsettle, bind, Except.bind]
        exact OnSuccess.ok (hr.step hnow hstep)

theorem withoutAttributes_abides (hr : r.IsPunctual) (hnow : now.zone = none)
    (hcondition : Execution.atCondition r f = true) (fault : Fault) (owner : String) :
    (finish (x.withoutAttributes r now fault) >>= fun failed =>
      store (.saveRun failed owner)).Abides terms (OnSuccess Run.IsPunctual) := by
  cases hfailed : x.withoutAttributes r now fault with
  | error fault' => exact OnSuccess.error fault'
  | ok failed =>
    obtain ⟨n, hn, hkind⟩ := Execution.exists_of_atCondition hcondition
    refine saveRun_abides ?_ owner
    rcases Run.attributesUnavailable_eq_ok hn hkind hfailed with ⟨_, rfl⟩ | ⟨heligible, hprogress⟩
    · exact hr
    · exact hr.progress hnow heligible hprogress

theorem stepAll_abides (hnow : now.zone = none) (x : Execution) (f : Funnel) (owner : String)
    (bound : Nat) (hr : r.IsPunctual) :
    (x.stepAll f owner now bound r).Abides terms (OnSuccess Run.IsPunctual) := by
  induction bound generalizing r with
  | zero => exact OnSuccess.ok hr
  | succ bound ih =>
    unfold Execution.stepAll
    cases r.isEligible now with
    | error fault => exact OnSuccess.error fault
    | ok eligible =>
      cases eligible with
      | false => exact OnSuccess.ok hr
      | true =>
        refine (Execution.attributesFor_abides (fun _ => trivial) x r f).andThen fun answer hanswer => ?_
        cases answer with
        | error fault => exact withoutAttributes_abides hr hnow (hanswer fault rfl) fault owner
        | ok attributes =>
          refine (step_abides hr hnow f attributes).andThen fun stepped hstepped => ?_
          refine (saveRun_abides hstepped owner).andThen fun saved hsaved => ?_
          split
          · exact ih hsaved
          · exact OnSuccess.ok hsaved

theorem drive_abides (hr : r.IsPunctual) (hnow : now.zone = none) (x : Execution)
    (owner : String) : (x.drive r owner now).Abides terms (OnSuccess Run.IsPunctual) := by
  have hread : (store (.getFunnel r.funnelId)).Abides terms (OnSuccess fun _ => True) :=
    .ofStore trivial
  refine hread.andThen fun found _ => ?_
  cases found with
  | none => exact OnSuccess.ok (hr.orphan now)
  | some f => exact stepAll_abides hnow x f owner _ hr

theorem releaseRun_abides (hr : r.IsPunctual) (owner : String) :
    (store (.releaseRun r owner)).Abides terms (OnSuccess fun _ => True) :=
  .ofStore hr

theorem releaseLatest_abides (hr : r.IsPunctual) (owner : String) :
    (Execution.releaseLatest r owner).Abides terms (OnSuccess fun _ => True) := by
  have hread : (store (.getRun r.id)).Abides terms
      (OnSuccess fun (found : Option Run) => ∀ r ∈ found, r.IsPunctual) :=
    Abides.store trivial fun _ h => h
  refine hread.andThen fun latest hlatest => ?_
  have hpunctual : (latest.getD r).IsPunctual := by
    cases latest with
    | none => exact hr
    | some r' => exact hlatest r' rfl
  exact (releaseRun_abides hpunctual owner).andThen fun _ _ => .ok trivial

/-- A run is acquired at an instant without a zone, under some name. -/
theorem acquiring_abides {α : Type} {now? : Option Instant} (hnow : ∀ now ∈ now?, now.zone = none)
    (name : String → String) (id : String) {rest : Instant → String → Run → Activity α}
    (hrest : ∀ now owner r, now.zone = none → r.IsPunctual →
      (rest now owner r).Abides terms (OnSuccess fun _ => True)) :
    (do
      let now ← instantOr now?
      let owner := name (← token)
      let r : Run ← store (.acquireRun id owner now)
      rest now owner r).Abides terms (OnSuccess fun _ => True) := by
  refine (instantOr_abides hnow).andThen fun now hzone => ?_
  refine (Abides.ofRequest (r := .token) trivial).andThen fun t _ => ?_
  have hacquire : (store (.acquireRun id (name t) now)).Abides terms (OnSuccess Run.IsPunctual) :=
    Abides.store hzone fun _ h => h
  exact hacquire.andThen fun r hr => hrest now (name t) r hzone hr

theorem execute_abides {now? : Option Instant} (hnow : ∀ now ∈ now?, now.zone = none)
    (x : Execution) (id : String) :
    (x.execute id now?).Abides terms (OnSuccess fun _ => True) := by
  have hheld (now : Instant) (owner : String) (r : Run) (hzone : now.zone = none)
      (hr : r.IsPunctual) :
      (x.executeHeld id now owner r).Abides terms (OnSuccess fun _ => True) := by
    refine (drive_abides hr hzone x owner).attemptThen fun result hresult => ?_
    cases result with
    | ok driven => exact releaseRun_abides (hresult driven rfl) owner
    | error fault => exact (releaseLatest_abides hr owner).andThen fun _ _ => .error _
  exact acquiring_abides hnow (fun t => x.worker ++ ":" ++ t) id hheld

theorem cancel_abides {now? : Option Instant} (hnow : ∀ now ∈ now?, now.zone = none)
    (x : Execution) (id : String) :
    (x.cancel id now?).Abides terms (OnSuccess fun _ => True) :=
  acquiring_abides hnow (fun t => x.worker ++ ":cancel:" ++ t) id fun now owner _ _ hr =>
    releaseRun_abides (hr.cancelled now) owner

theorem executeAll_abides (hnow : now.zone = none) (x : Execution) (ids : List String) :
    (x.executeAll now ids).Abides terms (OnSuccess fun _ => True) := by
  induction ids with
  | nil => exact OnSuccess.ok trivial
  | cons id ids ih =>
    have hnow' : ∀ t ∈ some now, t.zone = none := by
      rintro _ ⟨⟩
      exact hnow
    refine (execute_abides hnow' x id).attemptThen fun result _ => ih.andThen fun rest _ => ?_
    cases result <;> exact OnSuccess.ok trivial

theorem pass_abides {now? : Option Instant} (hnow : ∀ now ∈ now?, now.zone = none)
    (x : Execution) (batchSize : Int) :
    (x.pass batchSize now?).Abides terms (OnSuccess fun _ => True) := by
  refine (instantOr_abides hnow).andThen fun now hzone => ?_
  refine (Abides.ofRequest (r := .drain) trivial).andThen fun asked _ => ?_
  have hdue : (store (.dueRuns now batchSize)).Abides terms (OnSuccess fun _ => True) :=
    .ofStore trivial
  exact hdue.andThen fun due _ => executeAll_abides hzone x _

end Execution

end Scheduling

namespace Service

open Scheduling Relation

variable {runTtl funnelTtl : Span} {s s' : Stored MemoryStore} {acts : List (Activity Unit)}

def Operation.IsPlain {policy : RetryPolicy} : Operation policy → Prop
  | .edit .. => True
  | .dispatch _ _ now? | .execute _ _ _ now? | .cancel _ _ _ now? | .pass _ _ _ now? =>
    ∀ now ∈ now?, now.zone = none

theorem Operation.activity_abides {policy : RetryPolicy} {op : Operation policy}
    (h : op.IsPlain) : op.activity.Abides terms (OnSuccess fun _ => True) := by
  have hdiscard {α : Type} {act : Activity α} (h : act.Abides terms (OnSuccess fun _ => True)) :
      (discard act).Abides terms (OnSuccess fun _ => True) :=
    h.andThen fun _ _ => .ok trivial
  cases op with
  | edit editor op => exact edit_abides editor op
  | dispatch e executed now? =>
    exact hdiscard (Event.dispatch_abides trivial (Run.start_isPunctual e) (fun _ => trivial) trivial
      trivial executed now?)
  | execute x _ id now? => exact hdiscard (execute_abides h x id)
  | cancel x _ id now? => exact hdiscard (cancel_abides h x id)
  | pass x _ batchSize now? => exact hdiscard (pass_abides h x batchSize)

/-- A store and what is under way on it. Operations are begun at any time, and any of them may get
its next answer, or none any more. Deep runs may be copied or not. -/
inductive InProgress (runTtl funnelTtl : Span) : Stored MemoryStore → List (Activity Unit) → Prop
  | empty (ids : IdSupply) : InProgress runTtl funnelTtl ⟨ids, .empty runTtl funnelTtl⟩ []
  | start {s : Stored MemoryStore} {acts : List (Activity Unit)}
    (h : InProgress runTtl funnelTtl s acts) {policy : RetryPolicy} (op : Operation policy)
    (hplain : op.IsPlain) : InProgress runTtl funnelTtl s (op.activity :: acts)
  | proceed {s s' : Stored MemoryStore} {before after : List (Activity Unit)}
    {act act' : Activity Unit} (h : InProgress runTtl funnelTtl s (before ++ act :: after))
    {levels : Nat} (hadvances : AdvancesWithin levels PlainClock (act, s) (act', s')) :
    InProgress runTtl funnelTtl s' (before ++ act' :: after)

theorem InProgress.isTidy (h : InProgress runTtl funnelTtl s acts) :
    s.data.IsTidy ∧ ∀ act ∈ acts, act.Abides terms (OnSuccess fun _ => True) := by
  induction h with
  | empty ids => exact ⟨⟨nofun, nofun, .nil, nofun⟩, by simp⟩
  | start _ op hplain ih =>
    exact ⟨ih.1, List.forall_mem_cons.mpr ⟨Operation.activity_abides hplain, ih.2⟩⟩
  | @proceed s s' before after act act' _ levels hadvances ih =>
    obtain ⟨htidy, hacts⟩ := ih
    obtain ⟨htidy', hact'⟩ := (hacts act (by simp)).advance_within terms_preserveUnder
      terms_allowUncopied (fun _ _ => trivial) htidy hadvances
    refine ⟨htidy', fun other hother => ?_⟩
    rcases List.mem_append.mp hother with hin | hin
    · exact hacts other (List.mem_append_left _ hin)
    · rcases List.mem_cons.mp hin with rfl | hin
      · exact hact'
      · exact hacts other (List.mem_append_right _ (List.mem_cons_of_mem _ hin))

/-- These are the runs that can be acquired at an instant and that a step would change then, each
once and in the order in which they stand. -/
structure AreReady (s : Stored MemoryStore) (now : Instant) (ready : List String) : Prop where
  inOrder : ready.Sublist s.data.runs.keys
  nodup : ready.Nodup
  mem_iff : s.data.KeepsRuns fun r => ∀ owner, r.id ∈ ready ↔
    MemoryStore.Succeeds (.acquireRun r.id owner now) s ∧ r.isEligible now = .ok true

/-- A run that has not ended is not held up at an instant: its time has come, and its lock, if there
is one, has run out. -/
structure IsIdle (s : Stored MemoryStore) (now : Instant) (r : Run) : Prop where
  unfinished : r.isTerminal = false
  hasCome (t : Instant) (ht : r.resumeAt = some t ∨ r.nextAttemptAt = some t) : t.le now = true
  unlocked (lock : Lock) (hlock : s.data.runLocks.get? r.id = some lock) :
    RunsOut s.data.runTtl lock.acquiredAt now

/-- These are the runs that are not locked at an instant and that a step would change then, each
once and in the order in which they stand. Those of them that can be copied, and no others of these,
can be acquired. -/
structure AreDue (levels : Nat) (s : Stored MemoryStore) (now : Instant) (due : List String) :
    Prop where
  inOrder : due.Sublist s.data.runs.keys
  nodup : due.Nodup
  mem_iff : s.data.KeepsRuns fun r =>
    r.id ∈ due ↔ s.data.isLocked r.id now = .ok false ∧ r.isEligible now = .ok true
  acquired : s.data.KeepsRuns fun r => r.payload.IsShallow levels →
    ∀ (owner : String) (result : Except Fault Run) (s' : Stored MemoryStore),
      ServedWithin levels (.store (.acquireRun r.id owner now)) s result s' →
      (r.id ∈ due ↔ result.isOk = true ∧ r.isEligible now = .ok true)

/-- Whatever is under way, the runs that are given out as due are the first of those that are not
locked and that a step would change, and no run that is not held up is missing among these. -/
theorem InProgress.none_stranded {now : Instant} (h : InProgress runTtl funnelTtl s acts)
    (hends : ∀ id lock, s.data.runLocks.get? id = some lock →
      ∃ t, lock.acquiredAt.plus s.data.runTtl = .ok t)
    (hnow : now.zone = none) :
    ∃ due, (∀ levels, AreDue levels s now due) ∧
      (∀ limit : Int, 1 ≤ limit →
        (MemoryStore.answer (.dueRuns now limit)).run s = (.ok (due.take limit.toNat), s)) ∧
      (∀ limit : Int, 1 ≤ limit → s.data.runs.length ≤ limit →
        ((MemoryStore.answer (.dueRuns now limit)).run s).1 = .ok due) ∧
      s.data.KeepsRuns fun r => IsIdle s now r → r.id ∈ due := by
  obtain ⟨htidy, _⟩ := h.isTidy
  obtain ⟨rs, hruns, hrs⟩ := htidy.exists_runs
  have hlocks : s.data.HasPlainLocks := ⟨htidy.locks, hends⟩
  have hsublist := MemoryStore.ready_sublist hruns now
  have hmem {r : Run} (hr : s.data.Stores r) : r.id ∈ (rs.filter (s.data.isReady now)).map (·.id) ↔
      s.data.isReady now r = true := hr.mem_ready_iff hruns fun r hr => (hrs r hr).1
  have hdue (limit : Int) (hlimit : 1 ≤ limit) := MemoryStore.answer_dueRuns hlocks hnow hruns
    (fun r hr => (hrs r hr).2.isPlain) hlimit
  refine ⟨_, fun levels => ⟨hsublist, hsublist.nodup htidy.distinct,
    htidy.keepsRuns fun r hr hpunctual => ?_,
    htidy.keepsRuns fun r hr hpunctual hshallow owner result s' hanswered => ?_⟩, hdue,
    fun limit hlimit hall => ?_, htidy.keepsRuns fun r hr hpunctual hidle => ?_⟩
  · rw [hmem hr, MemoryStore.isReady_iff, hpunctual.isDue_eq]
  · rw [hmem hr, hr.acquired_iff hshallow hanswered, MemoryStore.isReady_iff, hpunctual.isDue_eq]
  · have hkeys : s.data.runs.keys.length = s.data.runs.length := List.length_map _
    have hlength := hsublist.length_le
    rw [hdue limit hlimit, List.take_of_length_le (by omega)]
  · refine (hmem hr).mpr (MemoryStore.isReady_iff.mpr ⟨?_, ?_⟩)
    · exact (MemoryStore.isLocked_eq_false_iff_runsOut (hends r.id)).mpr hidle.unlocked
    · rw [hpunctual.isDue_eq]
      exact hpunctual.isEligible_of_le hnow hidle.unfinished hidle.hasCome

theorem InProgress.advance {act act' : Activity Unit} {levels : Nat}
    (h : InProgress runTtl funnelTtl s (act :: acts))
    (hadvances : AdvancesWithin levels PlainClock (act, s) (act', s')) :
    InProgress runTtl funnelTtl s' (act' :: acts) := by
  have hfirst : InProgress runTtl funnelTtl s ([] ++ act :: acts) := h
  exact hfirst.proceed hadvances

theorem InProgress.reaches {act act' : Activity Unit} {levels : Nat}
    (h : InProgress runTtl funnelTtl s (act :: acts))
    (hreaches : ReflTransGen (AdvancesWithin levels PlainClock) (act, s) (act', s')) :
    InProgress runTtl funnelTtl s' (act' :: acts) := by
  generalize hend : (act', s') = y at hreaches
  induction hreaches generalizing act' s' with
  | refl =>
    cases hend
    exact h
  | @tail x y _ hadvances ih =>
    obtain ⟨act₁, s₁⟩ := x
    subst hend
    exact (ih rfl).advance hadvances

theorem still_plainClock (id : String) (q : Request) (s : Stored MemoryStore) :
    PlainClock q (still ⟨0, none⟩ id q s).1 := by
  cases q with
  | clock => rfl
  | _ => trivial

theorem InProgress.run (h : InProgress runTtl funnelTtl s acts) {policy : RetryPolicy}
    (op : Operation policy) (hplain : op.IsPlain) (id : String) :
    InProgress runTtl funnelTtl (op.activity.run (still ⟨0, none⟩ id) s).2
      (.done (op.activity.run (still ⟨0, none⟩ id) s).1 :: acts) :=
  (h.start op hplain).reaches <| reaches_within 0
    (run_reaches (still_served ⟨0, none⟩ id) (still_plainClock id) op.activity s)

theorem inProgress_reminder {hours : Int} (hvalid : (reminder hours).violations = []) : ∃ acts,
    InProgress ⟨300000000⟩ ⟨300000000⟩ ⟨.first, keeping (reminder hours)⟩ acts := by
  let save : Operation ⟨3, 60⟩ := .edit "ada" (.save (.object (reminder hours).toDocument))
  have hempty : InProgress ⟨300000000⟩ ⟨300000000⟩ ⟨.first, .empty ⟨300000000⟩ ⟨300000000⟩⟩ [] :=
    .empty .first
  exact ⟨_, run_save hvalid ▸ hempty.run save trivial "run"⟩

theorem isPlain_some {now : Instant} (hnow : now.zone = none) : ∀ t ∈ some now, t.zone = none := by
  rintro _ ⟨⟩
  exact hnow

theorem inProgress_parked : ∃ acts, InProgress ⟨300000000⟩ ⟨300000000⟩ parked acts := by
  obtain ⟨acts, hsaved⟩ := inProgress_reminder reminder_violations
  let dispatch : Operation ⟨3, 60⟩ := .dispatch subscribed false (some ⟨0, none⟩)
  have hstarted := hsaved.run dispatch (isPlain_some rfl) "run"
  exact ⟨_, hstarted.run (.execute worker rfl "run" (some ⟨0, none⟩)) (isPlain_some rfl) "run"⟩

/-- The run that waits is about to be cancelled, but whoever does that never comes back. -/
def abandoned : Stored MemoryStore :=
  { parked with data := parked.data.lockRun "run" "worker:cancel:run" ⟨0, none⟩ }

theorem inProgress_abandoned : ∃ acts, InProgress ⟨300000000⟩ ⟨300000000⟩ abandoned acts := by
  obtain ⟨acts, hparked⟩ := inProgress_parked
  have hbegun := hparked.start (.cancel worker rfl "run" (some ⟨0, none⟩)) (isPlain_some rfl)
  have hnamed := hbegun.advance
    ((Advances.answered (still_served ⟨0, none⟩ "run" .token parked) trivial).within 0)
  exact ⟨_, hnamed.advance ((Advances.answered (.store _ parked) trivial).within 0)⟩

theorem abandoned_none_stranded : (∃ acts, InProgress ⟨300000000⟩ ⟨300000000⟩ abandoned acts) ∧
    ∃ due, (∀ levels, AreDue levels abandoned ⟨86400000000, none⟩ due) ∧ "run" ∈ due ∧
      ((MemoryStore.answer (.dueRuns ⟨86400000000, none⟩ 1)).run abandoned).1 = .ok due := by
  refine ⟨inProgress_abandoned, ?_⟩
  have hends : ∀ id lock, abandoned.data.runLocks.get? id = some lock →
      ∃ t, lock.acquiredAt.plus abandoned.data.runTtl = .ok t := by
    intro id lock hlock
    obtain ⟨⟩ := List.mem_singleton.mp (Table.mem_of_get? hlock)
    exact ⟨_, rfl⟩
  have hnow : (⟨86400000000, none⟩ : Instant).zone = none := rfl
  obtain ⟨acts, h⟩ := inProgress_abandoned
  obtain ⟨due, hdue, _, hall, hidle⟩ := h.none_stranded hends hnow
  refine ⟨due, hdue, ?_, hall 1 (by decide) (by decide)⟩
  have hstores : abandoned.data.Stores waitingRun := MemoryStore.stores_putRun
  refine hidle.of_stores hstores ⟨rfl, ?_, ?_⟩
  · rintro t (⟨⟨⟩⟩ | ⟨⟨⟩⟩)
    rfl
  · rintro lock ⟨⟨⟩⟩
    exact ⟨_, rfl, rfl, rfl⟩

def buried : Stored MemoryStore :=
  ⟨.first, (keeping (reminder 24)).putRun (Event.deepLead.start (reminder 24) "run" ⟨0, none⟩)⟩

theorem inProgress_buried : ∃ acts, InProgress ⟨300000000⟩ ⟨300000000⟩ buried acts := by
  obtain ⟨acts, hsaved⟩ := inProgress_reminder reminder_violations
  let dispatch : Operation ⟨3, 60⟩ := .dispatch Event.deepLead false (some ⟨0, none⟩)
  have hbegun := hsaved.start dispatch (isPlain_some rfl)
  have hfs : (keeping (reminder 24)).funnels = [stamped (reminder 24)].map funnelEntry := rfl
  obtain ⟨log, _, _, hclock, hrun⟩ := Event.dispatch_uncopied (s := ⟨.first, keeping (reminder 24)⟩)
    hfs (by decide) rfl Event.deepLead_deep false ⟨0, none⟩ "run"
  have hplain (entry : LogEntry) (hentry : entry ∈ log) :
      PlainClock entry.request entry.answer := by
    have hother := hclock entry hentry
    obtain ⟨r, a⟩ := entry
    cases r with
    | clock => exact absurd rfl hother
    | _ => trivial
  exact ⟨_, hbegun.reaches (hrun.bind_error.reaches hplain)⟩

/-- Such a run is given out as due, although it cannot be acquired. -/
theorem buried_never_acquired : (∃ acts, InProgress ⟨300000000⟩ ⟨300000000⟩ buried acts) ∧
    ((MemoryStore.answer (.dueRuns ⟨0, none⟩ 1)).run buried).1 = .ok ["run"] ∧
    ∃ s', ServedWithin Rehearsal.mostLevels (.store (.acquireRun "run" "ada" ⟨0, none⟩)) buried
      (.error .tooDeep) s' := by
  have hstores : buried.data.Stores (Event.deepLead.start (reminder 24) "run" ⟨0, none⟩) :=
    MemoryStore.stores_putRun
  have hdeep : buried.data.copiesBeyond Rehearsal.mostLevels (.acquireRun "run" "ada" ⟨0, none⟩) =
      true := MemoryStore.copiesBeyond_of_deep (hstores.mem_copied _ _) Event.deepLead_deep
  exact ⟨inProgress_buried, rfl, _, servedWithin_tooDeep hdeep rfl⟩

end Service

end FunnelFlow
