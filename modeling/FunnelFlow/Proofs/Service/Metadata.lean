import FunnelFlow.Proofs.Service.Discipline
import FunnelFlow.Proofs.Service.EditLocks
import FunnelFlow.Proofs.Service.Twins

/-!
Whatever editors do to a funnel short of its outline, its runs do not notice. An execution goes on
alike after two definitions with the same outline, and stores that differ in nothing else answer it
alike; so it asks for the same, in the same order, and leaves the same runs behind.
-/

namespace FunnelFlow

namespace Activity

variable {α β : Type} {act : Activity α}

/-- The activity goes on alike after answers of which the same is kept in outline. -/
def Overlooks : Activity α → Prop
  | .done _ => True
  | .ask r resume => ∀ a, resume a = resume (r.outline a) ∧ (resume a).Overlooks

theorem overlooks_finish (result : Except Fault α) : (finish result).Overlooks := trivial

theorem Overlooks.bind {next : α → Activity β} (h : act.Overlooks)
    (hnext : ∀ a, (next a).Overlooks) : (act >>= next).Overlooks := by
  induction act with
  | done result =>
    cases result with
    | ok a => exact hnext a
    | error e => trivial
  | ask r resume ih =>
    intro a
    obtain ⟨hsame, hrest⟩ := h a
    refine ⟨?_, ih a hrest⟩
    exact congrArg (· >>= next) hsame

theorem Overlooks.attempt (h : act.Overlooks) : act.attempt.Overlooks := by
  induction act with
  | done result => trivial
  | ask r resume ih =>
    intro a
    obtain ⟨hsame, hrest⟩ := h a
    exact ⟨congrArg Activity.attempt hsame, ih a hrest⟩

theorem Overlooks.tryCatch {handle : Fault → Activity α} (h : act.Overlooks)
    (hhandle : ∀ e, (handle e).Overlooks) : (act.tryCatch handle).Overlooks := by
  induction act with
  | done result =>
    cases result with
    | ok a => trivial
    | error e => exact hhandle e
  | ask r resume ih =>
    intro a
    obtain ⟨hsame, hrest⟩ := h a
    exact ⟨congrArg (Activity.tryCatch · handle) hsame, ih a hrest⟩

theorem overlooks_request {r : Request} (h : ∀ a, r.outline a = a) : (request r).Overlooks :=
  fun a => ⟨by rw [h], trivial⟩

theorem overlooks_store {call : StoreCall} (h : ∀ a, Request.outline (.store call) a = a) :
    (store call).Overlooks :=
  fun a => ⟨by rw [h], overlooks_finish a⟩

/-- What is done with a definition depends on its outline. -/
theorem overlooks_getFunnel_bind {id : String} {next : Option Funnel → Activity α}
    (hsame : ∀ found, next found = next (found.map Funnel.outline))
    (hnext : ∀ found, (next found).Overlooks) :
    (store (.getFunnel id) >>= next).Overlooks := by
  intro a
  cases a with
  | error e => exact ⟨rfl, trivial⟩
  | ok found => exact ⟨hsame found, hnext found⟩

end Activity

namespace Execution

open Activity

variable {x : Execution} {f : Funnel} {r : Run} {owner : String} {now : Instant}

section Outline

theorem atCondition_outline (r : Run) (f : Funnel) :
    atCondition r f.outline = atCondition r f := by
  rw [atCondition, atCondition, Funnel.outline_node?, Option.any_map]
  rfl

theorem attributesFor_outline (x : Execution) (r : Run) (f : Funnel) :
    x.attributesFor r f.outline = x.attributesFor r f := by
  rw [attributesFor, attributesFor, atCondition_outline]

theorem step_outline (x : Execution) (r : Run) (f : Funnel) (now : Instant) (attributes : Fields) :
    x.step r f.outline now attributes = x.step r f now attributes := by
  rw [Execution.step, Execution.step, Run.move_outline]

theorem stepAll_outline (x : Execution) (f : Funnel) (owner : String) (now : Instant) (bound : Nat)
    (r : Run) : x.stepAll f.outline owner now bound r = x.stepAll f owner now bound r := by
  induction bound generalizing r with
  | zero => rfl
  | succ bound ih => simp only [stepAll, attributesFor_outline, step_outline, ih]

end Outline

theorem deliver_overlooks (m : SendRequest) : (x.deliver m).Overlooks := by
  have hsend : (Messenger.send x.channels m.channel m.contactId m.content (some m)).Overlooks := by
    unfold Messenger.send
    split
    · exact overlooks_finish _
    · dsimp only
      split
      · exact overlooks_finish _
      · exact (overlooks_request fun _ => rfl).bind fun _ => overlooks_finish _
  exact hsend.tryCatch fun _ => overlooks_finish _

theorem attributesFor_overlooks : (x.attributesFor r f).Overlooks := by
  have hread : (ContactBook.attributes x.contacts r.contactId).Overlooks :=
    (overlooks_finish _).bind fun _ =>
      (overlooks_request fun _ => rfl).bind fun _ => overlooks_finish _
  unfold attributesFor
  split
  · exact hread.attempt.bind fun _ => overlooks_finish _
  · exact overlooks_finish _

theorem step_overlooks (attributes : Fields) : (x.step r f now attributes).Overlooks := by
  unfold Execution.step
  refine (overlooks_finish _).bind fun move => ?_
  cases move with
  | settled run => exact overlooks_finish _
  | sending run message next =>
    exact (deliver_overlooks message).bind fun _ =>
      (overlooks_finish _).bind fun _ => overlooks_finish _

theorem stepAll_overlooks (bound : Nat) (r : Run) :
    (x.stepAll f owner now bound r).Overlooks := by
  have hsave (r : Run) : (store (.saveRun r owner)).Overlooks := overlooks_store fun _ => rfl
  induction bound generalizing r with
  | zero => exact overlooks_finish _
  | succ bound ih =>
    unfold stepAll
    refine (overlooks_finish _).bind fun eligible => ?_
    split
    · exact overlooks_finish _
    · refine attributesFor_overlooks.bind fun answer => ?_
      cases answer with
      | error e => exact (overlooks_finish _).bind fun failed => hsave failed
      | ok attributes =>
        refine (step_overlooks attributes).bind fun stepped => ?_
        refine (hsave stepped.run).bind fun saved => ?_
        split
        · exact ih saved
        · exact overlooks_finish _

theorem drive_overlooks (x : Execution) (r : Run) (owner : String) (now : Instant) :
    (x.drive r owner now).Overlooks := by
  apply overlooks_getFunnel_bind
  · intro found
    cases found with
    | none => rfl
    | some f =>
      simp only [Option.map_some, Funnel.outline_nodes_length, stepAll_outline]
  · intro found
    cases found with
    | none => exact overlooks_finish _
    | some f => exact stepAll_overlooks _ r

theorem releaseRun_overlooks (r : Run) (owner : String) :
    (store (.releaseRun r owner)).Overlooks :=
  overlooks_store fun _ => rfl

theorem releaseLatest_overlooks (r : Run) (owner : String) : (releaseLatest r owner).Overlooks :=
  (overlooks_store fun _ => rfl).bind fun _ =>
    (releaseRun_overlooks _ owner).bind fun _ => overlooks_finish _

theorem instantOr_overlooks (now? : Option Instant) : (instantOr now?).Overlooks := by
  cases now? with
  | some now => exact overlooks_finish _
  | none => exact overlooks_request fun _ => rfl

theorem execute_overlooks (x : Execution) (id : String) (now? : Option Instant) :
    (x.execute id now?).Overlooks := by
  refine (instantOr_overlooks now?).bind fun now => ?_
  refine (overlooks_request fun _ => rfl).bind fun t => ?_
  refine (overlooks_store fun _ => rfl).bind fun r => ?_
  refine (drive_overlooks x r _ now).attempt.bind fun result => ?_
  cases result with
  | ok driven => exact releaseRun_overlooks driven _
  | error e => exact (releaseLatest_overlooks r _).bind fun _ => overlooks_finish _

def executions (x : Execution) :
    List (String × Option Instant) → Activity (List (Except Fault Run))
  | [] => return []
  | (id, now?) :: turns => do
    let result ← (x.execute id now?).attempt
    let rest ← x.executions turns
    return result :: rest

theorem executions_overlooks (x : Execution) (turns : List (String × Option Instant)) :
    (x.executions turns).Overlooks := by
  induction turns with
  | nil => exact overlooks_finish _
  | cons turn turns ih =>
    exact (execute_overlooks x turn.1 turn.2).attempt.bind fun _ =>
      ih.bind fun _ => overlooks_finish _

theorem executions_isOfRun (x : Execution) (turns : List (String × Option Instant)) :
    (x.executions turns).IsOfRun := by
  induction turns with
  | nil => exact OnSuccess.ok trivial
  | cons turn turns ih =>
    exact (execute_isOfRun turn.1 turn.2).attemptThen fun _ _ =>
      ih.andThen fun _ _ => OnSuccess.ok trivial

end Execution

/-- How everything but the store answers a request, given what was asked for before it. -/
abbrev Surroundings := List Request → (r : Request) → r.Answer

/-- A request, and the runs that are stored when it has been answered. -/
structure Observation where
  request : Request
  runs : Table Value

namespace Activity

open MemoryStore

variable {α : Type} {w : Surroundings} {act : Activity α} {asked : List Request}
  {s s' t t' : Stored MemoryStore} {trace trace' : List Observation}
  {result result' : Except Fault α}

/-- The activity comes to a result in its surroundings, while definitions may be replaced between
any two of its requests by others with the same outlines. -/
inductive PlaysOut (w : Surroundings) : List Request → Activity α → Stored MemoryStore →
    List Observation → Except Fault α → Stored MemoryStore → Prop
  | done (asked : List Request) (result : Except Fault α) (s : Stored MemoryStore) :
    PlaysOut w asked (.done result) s [] result s
  | redefined {asked : List Request} {act : Activity α} {s s₁ s' : Stored MemoryStore}
    {trace : List Observation} {result : Except Fault α} (htwins : Twins s s₁)
    (hrest : PlaysOut w asked act s₁ trace result s') : PlaysOut w asked act s trace result s'
  | stored {asked : List Request} {call : StoreCall}
    {resume : Except Fault call.Answer → Activity α} {s s' : Stored MemoryStore}
    {trace : List Observation} {result : Except Fault α}
    (hrest : PlaysOut w (asked ++ [.store call]) (resume ((MemoryStore.answer call).run s).1)
      ((MemoryStore.answer call).run s).2 trace result s') :
    PlaysOut w asked (.ask (.store call) resume) s
      (⟨.store call, ((MemoryStore.answer call).run s).2.data.runs⟩ :: trace) result s'
  | replied {asked : List Request} {r : Request} (hr : ∀ call, r ≠ .store call)
    {resume : r.Answer → Activity α} {s s' : Stored MemoryStore} {trace : List Observation}
    {result : Except Fault α}
    (hrest : PlaysOut w (asked ++ [r]) (resume (w asked r)) s trace result s') :
    PlaysOut w asked (.ask r resume) s (⟨r, s.data.runs⟩ :: trace) result s'

namespace PlaysOut

theorem of_done (h : PlaysOut w asked (.done result) s trace result' s') :
    trace = [] ∧ result' = result ∧ Twins s s' := by
  generalize hact : Activity.done result = act at h
  induction h with
  | done => exact ⟨rfl, (Activity.done.inj hact).symm, .refl _⟩
  | redefined htwins _ ih =>
    obtain ⟨htrace, hresult, hrest⟩ := ih hact
    exact ⟨htrace, hresult, htwins.trans hrest⟩
  | stored | replied => cases hact

theorem of_store {call : StoreCall} {resume : Except Fault call.Answer → Activity α}
    (h : PlaysOut w asked (.ask (.store call) resume) s trace result s') :
    ∃ s₁ rest, Twins s s₁ ∧
      trace = ⟨.store call, ((MemoryStore.answer call).run s₁).2.data.runs⟩ :: rest ∧
      PlaysOut w (asked ++ [.store call]) (resume ((MemoryStore.answer call).run s₁).1)
        ((MemoryStore.answer call).run s₁).2 rest result s' := by
  generalize hact : Activity.ask (.store call) resume = act at h
  induction h with
  | done => cases hact
  | redefined htwins _ ih =>
    obtain ⟨s₁, rest, hs, hrest⟩ := ih hact
    exact ⟨s₁, rest, htwins.trans hs, hrest⟩
  | stored hrest =>
    cases hact
    exact ⟨_, _, .refl _, rfl, hrest⟩
  | replied hr =>
    cases hact
    exact absurd rfl (hr call)

theorem of_reply {r : Request} (hr : ∀ call, r ≠ .store call) {resume : r.Answer → Activity α}
    (h : PlaysOut w asked (.ask r resume) s trace result s') :
    ∃ s₁ rest, Twins s s₁ ∧ trace = ⟨r, s₁.data.runs⟩ :: rest ∧
      PlaysOut w (asked ++ [r]) (resume (w asked r)) s₁ rest result s' := by
  generalize hact : Activity.ask r resume = act at h
  induction h with
  | done => cases hact
  | redefined htwins _ ih =>
    obtain ⟨s₁, rest, hs, hrest⟩ := ih hact
    exact ⟨s₁, rest, htwins.trans hs, hrest⟩
  | stored =>
    cases hact
    exact absurd rfl (hr _)
  | replied _ hrest =>
    cases hact
    exact ⟨_, _, .refl _, rfl, hrest⟩

/-- In twin stores an activity that overlooks metadata plays out alike. -/
theorem alike (hover : act.Overlooks) (hrun : act.IsOfRun) (hst : Twins s t)
    (h : PlaysOut w asked act s trace result s') (h' : PlaysOut w asked act t trace' result' t') :
    trace = trace' ∧ result = result' ∧ Twins s' t' := by
  induction act generalizing asked s t trace trace' with
  | done r =>
    obtain ⟨rfl, rfl, hs⟩ := h.of_done
    obtain ⟨rfl, rfl, ht⟩ := h'.of_done
    exact ⟨rfl, rfl, (hs.symm.trans hst).trans ht⟩
  | ask r resume ih =>
    obtain ⟨hasks, hrest⟩ := hrun
    by_cases hcall : ∃ call, r = .store call
    · obtain ⟨call, rfl⟩ := hcall
      obtain ⟨s₁, rest, hs, rfl, hplays⟩ := h.of_store
      obtain ⟨t₁, rest', ht, rfl, hplays'⟩ := h'.of_store
      obtain ⟨hanswer, htwins⟩ := ((hs.symm.trans hst).trans ht).answered hasks
      -- the answers may differ, but what the activity makes of them does not
      have hresume := calc resume ((MemoryStore.answer call).run t₁).1
        _ = resume (Request.outline (.store call) ((MemoryStore.answer call).run t₁).1) :=
          (hover _).1
        _ = resume (Request.outline (.store call) ((MemoryStore.answer call).run s₁).1) :=
          congrArg resume hanswer
        _ = resume ((MemoryStore.answer call).run s₁).1 := (hover _).1.symm
      rw [hresume] at hplays'
      obtain ⟨rfl, hends⟩ := ih _ (hover _).2 (hrest _ trivial) htwins hplays hplays'
      exact ⟨by rw [htwins.runs], hends⟩
    · have hr (call : StoreCall) : r ≠ .store call := fun h => hcall ⟨call, h⟩
      obtain ⟨s₁, rest, hs, rfl, hplays⟩ := h.of_reply hr
      obtain ⟨t₁, rest', ht, rfl, hplays'⟩ := h'.of_reply hr
      have htwins := (hs.symm.trans hst).trans ht
      obtain ⟨rfl, hends⟩ := ih _ (hover _).2 (hrest _ trivial) htwins hplays hplays'
      exact ⟨by rw [htwins.runs], hends⟩

end PlaysOut

def playOut (w : Surroundings) (asked : List Request) :
    Activity α → Stored MemoryStore → List Observation × Except Fault α × Stored MemoryStore
  | .done result, s => ([], result, s)
  | .ask (.store call) resume, s =>
    let (a, s) := (MemoryStore.answer call).run s
    let (trace, ends) := playOut w (asked ++ [.store call]) (resume a) s
    (⟨.store call, s.data.runs⟩ :: trace, ends)
  | .ask r resume, s =>
    let (trace, ends) := playOut w (asked ++ [r]) (resume (w asked r)) s
    (⟨r, s.data.runs⟩ :: trace, ends)

theorem playsOut_playOut (w : Surroundings) (asked : List Request) (act : Activity α)
    (s : Stored MemoryStore) : PlaysOut w asked act s (playOut w asked act s).1
      (playOut w asked act s).2.1 (playOut w asked act s).2.2 := by
  induction act generalizing asked s with
  | done result => exact .done asked result s
  | ask r resume ih =>
    cases r with
    | store call => exact .stored (ih _ _ _)
    | _ => exact .replied (by rintro _ ⟨⟩) (ih _ _ _)

/-- The activity plays out, and always so, whenever and however often definitions are replaced. -/
structure TakesCourse (w : Surroundings) (act : Activity α) (s : Stored MemoryStore)
    (trace : List Observation) (result : Except Fault α) (runs : Table Value) : Prop where
  possible : ∃ s', PlaysOut w [] act s trace result s' ∧ s'.data.runs = runs
  only {trace' : List Observation} {result' : Except Fault α} {s' : Stored MemoryStore}
    (h : PlaysOut w [] act s trace' result' s') :
    trace' = trace ∧ result' = result ∧ s'.data.runs = runs

theorem TakesCourse.of_twins (hover : act.Overlooks) (hrun : act.IsOfRun) (hst : Twins s t)
    (h : PlaysOut w [] act s trace result s') :
    TakesCourse w act t trace result s'.data.runs where
  possible := by
    have hplays := playsOut_playOut w [] act t
    obtain ⟨htrace, hresult, hends⟩ := h.alike hover hrun hst hplays
    rw [← htrace, ← hresult] at hplays
    exact ⟨_, hplays, hends.runs⟩
  only h' := by
    obtain ⟨htrace, hresult, hends⟩ := h.alike hover hrun hst h'
    exact ⟨htrace.symm, hresult.symm, hends.runs⟩

end Activity

theorem Funnel.outline_switched (f : Funnel) (hid : f.id ≠ "") (active : Bool) (written : Instant) :
    (Value.object f.toDocument).outline =
      (Value.object (f.switched active written).toDocument).outline := by
  refine outline_toDocument_of_reread (switched_id hid).symm fun fresh => ?_
  rw [← outline_reread_reread f hid fresh]
  exact outline_reread rfl fresh

theorem MemoryStore.Twins.settleLock {s t : Stored MemoryStore} (h : Twins s t)
    (id editor : String) (now : Instant) :
    Twins s { t with data := t.data.settleLock id editor now } := by
  rw [settleLock_eq]
  exact ⟨h.ids, h.runTtl, h.runs, h.runLocks, h.outlines⟩

namespace Editing

open Activity MemoryStore

variable {s : Stored MemoryStore} {id editor fresh : String} {now : Instant}

/-- No run notices that its funnel is activated or deactivated. -/
theorem setActive_twins (hs : s.data.IsFiled) (id : String) (active : Bool) (editor : String)
    (now : Instant) (fresh : String) :
    Twins s ((setActive id active editor).run (still now fresh) s).2 := by
  rw [setActive_eq, run_clock_bind]
  by_cases hlock : s.data.MayLock id editor now
  · have hs' : { s with data := s.data.takeLock id editor now : Stored MemoryStore }.data.IsFiled :=
      hs
    rcases run_switch now fresh hs' id active now with
      ⟨e, hrun⟩ | ⟨f, saved, rfl, hne, hstored, hrun⟩
    · rw [run_withLock_failed hlock hrun]
      exact (Twins.refl s).settleLock id editor now
    · have hid : f.id = (f.switched active now).id := (Funnel.switched_id hne).symm
      have htwins : Twins s { s with data := s.data.putFunnel (f.switched active now) } :=
        .rewritten hstored hid (f.outline_switched hne active now)
      rw [run_withLock_written hlock hrun]
      exact htwins.settleLock f.id editor now
  · obtain ⟨_, _, _, _, hrefused⟩ := run_withLock_of_not fresh hlock
    rw [hrefused]
    exact .refl s

end Editing

namespace Execution

open Activity MemoryStore

structure TellsNothing (f g : Funnel) : Prop where
  violations : f.startNodeId = g.startNodeId → f.violations = g.violations
  /-- Each may replace the other in a store at any time. -/
  replaces (s : Stored MemoryStore)
    (hstored : s.data.funnels.get? f.id = some (.object f.toDocument)) :
    Twins s { s with data := s.data.putFunnel g }
  restores (s : Stored MemoryStore)
    (hstored : s.data.funnels.get? g.id = some (.object g.toDocument)) :
    Twins s { s with data := s.data.putFunnel f }
  /-- So may an editor activate or deactivate whichever is stored. -/
  switches (s : Stored MemoryStore) (hs : s.data.IsFiled) (active : Bool) (editor : String)
    (now : Instant) (fresh : String) :
    Twins s ((Editing.setActive f.id active editor).run (still now fresh) s).2
  /-- With either of them the same is asked for, in the same order, and the same runs are stored
  after each request. -/
  plays (x : Execution) (turns : List (String × Option Instant)) (w : Surroundings)
    (ids : IdSupply) (m : MemoryStore) : ∃ trace results runs,
      TakesCourse w (x.executions turns) ⟨ids, m.putFunnel f⟩ trace results runs ∧
      TakesCourse w (x.executions turns) ⟨ids, m.putFunnel g⟩ trace results runs

/-- What the editors of a funnel may change without its runs noticing: all but its id, the ids of
its nodes and what they do. -/
theorem metadata_tells_nothing {f g : Funnel} (hid : f.id = g.id)
    (hnodes : f.nodes.map Node.skeleton = g.nodes.map Node.skeleton) : TellsNothing f g := by
  have houtline : f.outline = g.outline := Funnel.outline_eq_iff.mpr ⟨hid, hnodes⟩
  have hdocument := Funnel.outline_toDocument houtline
  refine ⟨Funnel.violations_eq_of_outline houtline, fun s hstored => ?_, fun s hstored => ?_,
    fun s hs => Editing.setActive_twins hs f.id, fun x turns w ids m => ?_⟩
  · exact .rewritten hstored hid hdocument
  · exact .rewritten hstored hid.symm hdocument.symm
  · have hplays := playsOut_playOut w [] (x.executions turns) ⟨ids, m.putFunnel f⟩
    have hover := executions_overlooks x turns
    have hrun := executions_isOfRun x turns
    have htwins := Twins.putFunnel m ids houtline
    exact ⟨_, _, _, .of_twins hover hrun (.refl _) hplays, .of_twins hover hrun htwins hplays⟩

section Reminder

open Service

def pausedReminder : Funnel :=
  { stamped (reminder 24) with isActive := false, updatedAt := some ⟨3600000000, none⟩ }

def begun : MemoryStore := (MemoryStore.empty ⟨300000000⟩ ⟨300000000⟩).putRun waitingRun

def accepting : Surroundings := fun _ r => (obliging ⟨0, none⟩ "token" r parked).1

/-- A reminder is sent after a day, although its funnel was deactivated in between. -/
theorem paused_reminder_is_sent :
    let nextDay := Service.worker.executions [("run", some ⟨86400000000, none⟩)]
    let paused := ((Editing.setActive "reminder" false "ada").run (still ⟨3600000000, none⟩ "")
      parked).2
    parked = ⟨.first, begun.putFunnel (stamped (reminder 24))⟩ ∧
    paused = ⟨.first, begun.putFunnel pausedReminder⟩ ∧
    ∃ trace results runs, (∃ o ∈ trace, ∃ body, o.request = .post "email" body) ∧
      TakesCourse accepting nextDay parked trace results runs ∧
      TakesCourse accepting nextDay paused trace results runs := by
  intro nextDay paused
  have hparked : parked = ⟨.first, begun.putFunnel (stamped (reminder 24))⟩ := rfl
  have hpaused : paused = ⟨.first, begun.putFunnel pausedReminder⟩ := rfl
  have halike : TellsNothing (stamped (reminder 24)) pausedReminder :=
    metadata_tells_nothing rfl rfl
  obtain ⟨trace, results, runs, hcourse, hcourse'⟩ :=
    halike.plays Service.worker [("run", some ⟨86400000000, none⟩)] accepting .first begun
  rw [← hparked] at hcourse
  rw [← hpaused] at hcourse'
  refine ⟨hparked, hpaused, trace, results, runs, ?_, hcourse, hcourse'⟩
  obtain ⟨rfl, -⟩ := hcourse.only (playsOut_playOut accepting [] nextDay parked)
  have hsent : (playOut accepting [] nextDay parked).1[3]? = some _ := rfl
  exact ⟨_, List.mem_of_getElem? hsent, _, rfl⟩

end Reminder

end Execution

end FunnelFlow
