import FunnelFlow.Service.Event
import FunnelFlow.Proofs.Copying
import FunnelFlow.Proofs.Service.Holding

namespace FunnelFlow

open Activity

namespace Request

def isUnderLock : Request → Bool
  | .post .. | .read _ => true
  | .store (.getFunnel _) | .store (.getRun _) => true
  | .store (.saveRun ..) | .store (.releaseRun ..) => true
  | _ => false

/-- The request concerns a single run: its lock, its writing, its definition or its peers. -/
def isOfRun : Request → Bool
  | .clock | .token | .post .. | .read _ => true
  | .store (.getFunnel _) | .store (.getRun _) => true
  | .store (.acquireRun ..) | .store (.saveRun ..) | .store (.releaseRun ..) => true
  | _ => false

def sparesFunnels : Request → Bool
  | .store (.saveFunnel _) | .store (.deleteFunnel _) => false
  | .store (.lockFunnel ..) | .store (.unlockFunnel ..) => false
  | _ => true

theorem isOfRun_of_isUnderLock {r : Request} (h : r.isUnderLock = true) : r.isOfRun = true := by
  cases r with
  | store call => cases call <;> trivial
  | _ => trivial

theorem sparesFunnels_of_isOfRun {r : Request} (h : r.isOfRun = true) :
    r.sparesFunnels = true := by
  cases r with
  | store call => cases call <;> trivial
  | _ => trivial

end Request

theorem MemoryStore.Changes.sparesFunnels {m m' : MemoryStore} {call : StoreCall}
    (h : m.Changes call m') (hcall : (Request.store call).sparesFunnels = true) :
    m'.funnels = m.funnels ∧ m'.funnelLocks = m.funnelLocks := by
  cases h with
  | saveFunnel | deleteFunnel | lockFunnel | unlockFunnel => cases hcall
  | _ => exact ⟨rfl, rfl⟩

namespace Activity

variable {α : Type} {act : Activity α} {s s' : Stored MemoryStore} {result : Except Fault α}

def IsUnderLock (act : Activity α) : Prop :=
  act.Abides ⟨fun r => r.isUnderLock = true, fun _ _ => True⟩ (OnSuccess fun _ => True)

def IsOfRun (act : Activity α) : Prop :=
  act.Abides ⟨fun r => r.isOfRun = true, fun _ _ => True⟩ (OnSuccess fun _ => True)

def SparesFunnels (act : Activity α) : Prop :=
  act.Abides ⟨fun r => r.sparesFunnels = true, fun _ _ => True⟩ (OnSuccess fun _ => True)

theorem IsUnderLock.isOfRun (h : act.IsUnderLock) : act.IsOfRun :=
  h.mono (fun _ => Request.isOfRun_of_isUnderLock) fun _ _ _ => trivial

theorem IsOfRun.sparesFunnels (h : act.IsOfRun) : act.SparesFunnels :=
  h.mono (fun _ => Request.sparesFunnels_of_isOfRun) fun _ _ _ => trivial

theorem sparesFunnels_preserve (m : MemoryStore) :
    Terms.Preserve ⟨fun r => r.sparesFunnels = true, fun _ _ => True⟩
      fun s => s.data.funnels = m.funnels ∧ s.data.funnelLocks = m.funnelLocks := by
  rintro r t t' a ⟨hfunnels, hlocks⟩ hasks hserved
  refine ⟨?_, trivial⟩
  cases hserved with
  | store call =>
    obtain ⟨hfunnels', hlocks'⟩ := (MemoryStore.answer_changes call t).sparesFunnels hasks
    exact ⟨hfunnels'.trans hfunnels, hlocks'.trans hlocks⟩
  | outside => exact ⟨hfunnels, hlocks⟩

theorem SparesFunnels.frame {levels : Nat} {log : Log} (h : act.SparesFunnels)
    (hrun : act.LoggedWithin levels s log result s') :
    s'.data.funnels = s.data.funnels ∧ s'.data.funnelLocks = s.data.funnelLocks := by
  have hallows : AllowsUncopied ⟨fun r => r.sparesFunnels = true, fun _ _ => True⟩ :=
    ⟨fun call hcall => by cases call <;> exact hcall, fun _ _ => trivial⟩
  exact h.preserves_within (sparesFunnels_preserve s.data) hallows hrun ⟨rfl, rfl⟩

end Activity

namespace Execution

variable {x : Execution} {f : Funnel} {owner : String} {now : Instant} {r : Run}

section Peers

variable {t : Terms}

theorem deliver_abides (hpost : ∀ address body, t.asks (.post address body)) (x : Execution)
    (m : SendRequest) : (x.deliver m).Abides t (OnSuccess fun _ => True) := by
  have hsend : (Messenger.send x.channels m.channel m.contactId m.content (some m)).Abides t
      (OnSuccess fun _ => True) := by
    unfold Messenger.send
    split
    · exact OnSuccess.ok trivial
    · dsimp only
      split
      · exact OnSuccess.error _
      · exact (Abides.ofRequest (hpost _ _)).andThen fun _ _ _ _ => trivial
  exact hsend.tryCatch (fun _ h => h) fun _ _ => OnSuccess.ok trivial

theorem attributesFor_abides (hread : ∀ address, t.asks (.read address)) (x : Execution) (r : Run)
    (f : Funnel) : (x.attributesFor r f).Abides t (OnSuccess fun answer =>
      ∀ fault, answer = .error fault → atCondition r f = true) := by
  have hattributes : (ContactBook.attributes x.contacts r.contactId).Abides t
      (OnSuccess fun _ => True) := by
    have haddress : (finish (ContactBook.address x.contacts r.contactId)).Abides t
        (OnSuccess fun _ => True) := fun _ _ => trivial
    exact haddress.andThen fun _ _ =>
      (Abides.ofRequest (hread _)).andThen fun _ _ _ _ => trivial
  unfold attributesFor
  split
  · next hcondition => exact hattributes.attemptThen fun _ _ => .ok fun _ _ => hcondition
  · exact OnSuccess.ok nofun

end Peers

theorem step_isUnderLock (attributes : Fields) : (x.step r f now attributes).IsUnderLock := by
  unfold Execution.step
  cases r.move f now attributes with
  | error e => exact OnSuccess.error e
  | ok move =>
    cases move with
    | settled run => exact OnSuccess.ok trivial
    | sending run message next =>
      refine (deliver_abides (fun _ _ => rfl) x message).andThen fun delivery _ => ?_
      cases run.settle x.policy now next delivery with
      | error e => exact OnSuccess.error e
      | ok settled => exact OnSuccess.ok trivial

theorem stepAll_isUnderLock (bound : Nat) : (x.stepAll f owner now bound r).IsUnderLock := by
  induction bound generalizing r with
  | zero => exact OnSuccess.ok trivial
  | succ bound ih =>
    unfold stepAll
    cases r.isEligible now with
    | error e => exact OnSuccess.error e
    | ok eligible =>
      cases eligible with
      | false => exact OnSuccess.ok trivial
      | true =>
        refine (attributesFor_abides (fun _ => rfl) x r f).andThen fun answer _ => ?_
        cases answer with
        | error e =>
          have hfail : (finish (x.withoutAttributes r now e)).IsUnderLock := fun _ _ => trivial
          exact hfail.andThen fun _ _ => .ofStore rfl
        | ok attributes =>
          refine (step_isUnderLock attributes).andThen fun _ _ => ?_
          refine (Abides.ofStore rfl).andThen fun _ _ => ?_
          split
          · exact ih
          · exact OnSuccess.ok trivial

theorem drive_isUnderLock : (x.drive r owner now).IsUnderLock := by
  refine (Abides.ofStore rfl).andThen fun found _ => ?_
  cases found with
  | none => exact OnSuccess.ok trivial
  | some f => exact stepAll_isUnderLock _

theorem releaseLatest_isUnderLock : (releaseLatest r owner).IsUnderLock :=
  (Abides.ofStore rfl).andThen fun _ _ => (Abides.ofStore rfl).andThen fun _ _ => .ok trivial

theorem executeHeld_isUnderLock (id : String) : (x.executeHeld id now owner r).IsUnderLock := by
  refine drive_isUnderLock.attemptThen fun result _ => ?_
  cases result with
  | ok driven => exact .ofStore rfl
  | error e => exact releaseLatest_isUnderLock.andThen fun _ _ => OnSuccess.error _

theorem instantOr_isOfRun (now? : Option Instant) : (instantOr now?).IsOfRun := by
  cases now? with
  | none => exact .ofRequest rfl
  | some now => exact OnSuccess.ok trivial

theorem execute_isOfRun (id : String) (now? : Option Instant) : (x.execute id now?).IsOfRun := by
  refine (instantOr_isOfRun now?).andThen fun now _ => (Abides.ofRequest rfl).andThen fun t _ => ?_
  exact (Abides.ofStore rfl).andThen fun r _ => (executeHeld_isUnderLock id).isOfRun

theorem cancel_isOfRun (id : String) (now? : Option Instant) : (x.cancel id now?).IsOfRun :=
  (instantOr_isOfRun now?).andThen fun _ _ => (Abides.ofRequest rfl).andThen fun _ _ =>
    (Abides.ofStore rfl).andThen fun _ _ => .ofStore rfl

theorem executeAll_sparesFunnels (ids : List String) : (x.executeAll now ids).SparesFunnels := by
  induction ids with
  | nil => exact OnSuccess.ok trivial
  | cons id ids ih =>
    refine (execute_isOfRun id (some now)).sparesFunnels.attemptThen fun result _ => ?_
    refine ih.andThen fun rest _ => ?_
    cases result <;> exact OnSuccess.ok trivial

theorem pass_sparesFunnels (batchSize : Int) (now? : Option Instant) :
    (x.pass batchSize now?).SparesFunnels :=
  (instantOr_isOfRun now?).sparesFunnels.andThen fun _ _ => (Abides.ofRequest rfl).andThen fun _ _ =>
    (Abides.ofStore rfl).andThen fun _ _ => executeAll_sparesFunnels _

end Execution

namespace Event

section Terms

variable {e : Event} {t : Terms} (hid : t.asks .runId)
  (hcreate : ∀ f id now, t.asks (.store (.createRun (e.start f id now))))
  (henqueue : ∀ id, t.asks (.enqueue id))
include hid hcreate henqueue

theorem startAll_abides (executed : Bool) (now : Instant) (fs : List Funnel) :
    (e.startAll executed now fs).Abides t (OnSuccess fun _ => True) := by
  induction fs with
  | nil => exact OnSuccess.ok trivial
  | cons f fs ih =>
    refine (Abides.ofRequest hid).andThen fun id _ => ?_
    refine (Abides.ofStore (hcreate f id now)).andThen fun created _ => ?_
    have hrest : (do return created :: (← e.startAll executed now fs)).Abides t
        (OnSuccess fun _ => True) := ih.andThen fun rest _ => OnSuccess.ok trivial
    split
    · exact (Abides.ofRequest (henqueue _)).andThen fun _ _ => hrest
    · exact hrest

/-- A dispatch asks for the time and the funnels, and then only for what starts the runs. -/
theorem dispatch_abides (hclock : t.asks .clock)
    (hread : t.asks (.store (.activeFunnels e.trigger.name))) (executed : Bool)
    (now? : Option Instant) : (e.dispatch executed now?).Abides t (OnSuccess fun _ => True) := by
  have hnow : (instantOr now?).Abides t (OnSuccess fun _ => True) := by
    cases now? with
    | none => exact .ofRequest hclock
    | some now => exact OnSuccess.ok trivial
  exact hnow.andThen fun now _ => .during _ <| (Abides.ofStore hread).andThen fun fs _ =>
    startAll_abides hid hcreate henqueue executed now fs

end Terms

theorem dispatch_sparesFunnels (e : Event) (executed : Bool) (now? : Option Instant) :
    (e.dispatch executed now?).SparesFunnels :=
  dispatch_abides rfl (fun _ _ _ => rfl) (fun _ => rfl) rfl rfl executed now?

end Event

end FunnelFlow
