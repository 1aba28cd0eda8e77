import FunnelFlow.Service.Execution
import FunnelFlow.Proofs.Run.Walk
import FunnelFlow.Proofs.Service.Errand

namespace FunnelFlow

open Activity

def Grip.IsAt (owner : String) (written : Bool) (r : Run) (g : Grip) : Prop :=
  g = .holds owner written r ∨ g = .lost owner

/-- What is left to be done can still lead to any result, or has led to this one. -/
def Errand.Drives (e : Errand) (owner : String) : Grip → Except Fault Run → Prop
  | .holds owner' written r, result => owner' = owner ∧ r.id = e.run ∧
    ((∃ r', result = .ok r' ∧ e.Closes written r r') ∨ (∃ fault, result = .error fault) ∧ e.Fails r)
  | .lost owner', result => owner' = owner ∧ ∀ r, result = .ok r → r.id = e.run
  | _, _ => False

namespace Execution

variable {e : Errand} {x : Execution} {owner : String} {written : Bool} {r r₀ : Run} {f : Funnel}
  {now : Instant} {g : Grip}

theorem read_follows (hg : g.IsAt owner written r) (address : String) :
    (Activity.read address).Follows e.protocol
      (fun g result => g.IsAt owner written r ∧ ∃ a, result = .ok a ∧ e.Reads address a) g := by
  rcases hg with rfl | rfl
  · refine Follows.request trivial fun a g' ha => ?_
    rcases ha with ⟨hreads, rfl⟩ | ⟨hreads, rfl⟩
    · exact ⟨.inl rfl, a, rfl, hreads⟩
    · exact ⟨.inr rfl, a, rfl, hreads⟩
  · refine Follows.request trivial fun a g' ha => ?_
    obtain ⟨hreads, rfl⟩ := ha
    exact ⟨.inr rfl, a, rfl, hreads⟩

theorem post_follows (hg : g.IsAt owner written r) (address : String) (body : Value) :
    (Activity.post address body).Follows e.protocol
      (fun g _ => g.IsAt owner written r) g := by
  rcases hg with rfl | rfl
  · refine Follows.request trivial fun a g' ha => ?_
    exact ha.imp id And.right
  · refine Follows.request trivial fun a g' ha => ?_
    exact .inr ha.2

theorem attributes_follows (hg : g.IsAt owner written r) (base contactId : String) :
    (ContactBook.attributes base contactId).Follows e.protocol
      (fun g result => g.IsAt owner written r ∧
        ∀ entries, result = .ok entries → e.attributes entries.fields) g := by
  have hfinish : (finish (ContactBook.address base contactId)).Follows e.protocol
      (fun g' _ => g' = g) g := rfl
  refine hfinish.bind ?_ ?_
  · rintro _ address rfl
    refine (read_follows hg address).bind ?_ ?_
    · rintro g' a ⟨hg', _, ⟨⟩, hreads⟩
      exact ⟨hg', hreads⟩
    · rintro g' fault ⟨_, _, hfault, _⟩
      cases hfault
  · rintro _ fault rfl
    exact ⟨hg, nofun⟩

theorem attributesFor_follows (hg : g.IsAt owner written r) (hnone : e.attributes [])
    (x : Execution) (r₀ : Run) (f : Funnel) :
    (x.attributesFor r₀ f).Follows e.protocol
      (fun g result => g.IsAt owner written r ∧ ∃ answer, result = .ok answer ∧
        match answer with
        | .ok attributes => e.attributes attributes
        | .error _ => atCondition r₀ f = true) g := by
  unfold attributesFor
  split
  · next hcondition =>
    refine (attributes_follows hg _ _).attempt.bind ?_ ?_
    · rintro g' answer ⟨_, ⟨⟩, hg', hentries⟩
      refine ⟨hg', _, rfl, ?_⟩
      cases answer with
      | ok entries => exact hentries entries rfl
      | error fault => exact hcondition
    · rintro g' fault ⟨_, hfault, _⟩
      cases hfault
  · exact ⟨hg, _, rfl, hnone⟩

theorem send_follows (hg : g.IsAt owner written r) (channels : Channels)
    (channel contactId : String) (content : Fields) (request : Option SendRequest) :
    (Messenger.send channels channel contactId content request).Follows e.protocol
      (fun g _ => g.IsAt owner written r) g := by
  unfold Messenger.send
  split
  · exact hg
  · next address _ =>
    dsimp only
    split
    · exact hg
    · refine (post_follows hg address _).bind ?_ ?_
      · intro g' a hg'
        exact hg'
      · intro g' fault hg'
        exact hg'

theorem deliver_follows (hg : g.IsAt owner written r) (x : Execution) (message : SendRequest) :
    (x.deliver message).Follows e.protocol
      (fun g result => g.IsAt owner written r ∧ ∃ delivery, result = .ok delivery) g := by
  rw [deliver_eq]
  refine (send_follows hg _ _ _ _ _).attempt.bind ?_ ?_
  · rintro g' _ ⟨answer, ⟨⟩, hg'⟩
    exact ⟨hg', _, rfl⟩
  · rintro g' fault ⟨_, hfault, _⟩
    cases hfault

/-- Whatever becomes of the message, the step is one with some delivery. -/
theorem step_follows (hg : g.IsAt owner written r) (x : Execution) (r₀ : Run) (f : Funnel)
    (now : Instant) (attributes : Fields) :
    (x.step r₀ f now attributes).Follows e.protocol
      (fun g result => g.IsAt owner written r ∧
        ∃ deliver, result = r₀.step x.policy f now attributes deliver) g := by
  unfold Execution.step Run.step
  cases hmove : r₀.move f now attributes with
  | error fault => exact ⟨hg, fun _ => .accepted, rfl⟩
  | ok move =>
    cases move with
    | settled run => exact ⟨hg, fun _ => .accepted, rfl⟩
    | sending run message next =>
      refine (deliver_follows hg x message).bind ?_ ?_
      · rintro g' delivery ⟨hg', _⟩
        cases hsettle : run.settle x.policy now next delivery with
        | error fault => exact ⟨hg', fun _ => delivery, by simp [bind, Except.bind, hsettle]⟩
        | ok settled => exact ⟨hg', fun _ => delivery, by simp [bind, Except.bind, hsettle]⟩
      · rintro g' fault ⟨_, _, hfault⟩
        cases hfault

theorem saveRun_follows {r' : Run} (hg : g.IsAt owner written r)
    (hgoes : written = true → r.GoesOn) (hsteps : e.Steps r r') (hid : r.id = e.run) :
    (store (.saveRun r' owner)).Follows e.protocol
      (fun g result => result = .ok r' ∧ r'.id = e.run ∧ g.IsAt owner true r' ∨
        (∃ fault, result = .error fault) ∧ g = .lost owner) g := by
  have hid' : r'.id = e.run := hsteps.id_eq.trans hid
  rcases hg with rfl | rfl
  · refine Follows.store ⟨rfl, hgoes, hsteps⟩ fun a g' ha => ?_
    rcases ha with ⟨rfl, rfl⟩ | ⟨rfl, rfl⟩
    · exact .inl ⟨rfl, hid', .inl rfl⟩
    · exact .inr ⟨⟨_, rfl⟩, rfl⟩
  · refine Follows.store ⟨rfl, hid'⟩ fun a g' ha => ?_
    obtain ⟨rfl, rfl⟩ := ha
    exact .inr ⟨⟨_, rfl⟩, rfl⟩

theorem drives_ok (hg : g.IsAt owner written r) (hid : r.id = e.run)
    (h : written = true ∨ ∃ now, e.instant now ∧ r.isEligible now = .ok false) :
    e.Drives owner g (.ok r) := by
  rcases hg with rfl | rfl
  · exact ⟨rfl, hid, .inl ⟨r, rfl, .inl ⟨rfl, h.imp_right .inl⟩⟩⟩
  · refine ⟨rfl, ?_⟩
    rintro _ ⟨⟩
    exact hid

theorem drives_lost (fault : Fault) : e.Drives owner (.lost owner) (.error fault) := by
  refine ⟨rfl, ?_⟩
  rintro _ ⟨⟩

theorem drives_error (hg : g.IsAt owner written r) (hid : r.id = e.run) (h : e.Fails r)
    (fault : Fault) : e.Drives owner g (.error fault) := by
  rcases hg with rfl | rfl
  · exact ⟨rfl, hid, .inr ⟨⟨fault, rfl⟩, h⟩⟩
  · exact drives_lost fault

theorem exists_of_atCondition (h : atCondition r f = true) :
    ∃ n, f.node? r.currentNodeId = some n ∧ n.kind = .condition := by
  simpa [atCondition, Option.any_eq_true] using h

theorem attributesUnavailable_error {policy : RetryPolicy} {fault : Fault}
    (h : r.isEligible now = .error fault) (reason : String) :
    r.attributesUnavailable policy now reason = .error fault := by
  simp [Run.attributesUnavailable, h, bind, Except.bind]

section StepAll

variable (hpolicy : e.policy = x.policy) (hinstant : e.instant now)
  (hdefinition : e.definition (.ok (some f)))
include hpolicy hinstant hdefinition

theorem fails_of_stuck (h : r.Stuck x.policy f now e.attributes) : e.Fails r :=
  .inr ⟨now, f, hinstant, hdefinition, hpolicy ▸ h⟩

theorem steps_of_progress {r' : Run} (heligible : r.isEligible now = .ok true)
    (h : Run.Progress x.policy f now (r.resume now) r') : e.Steps r r' :=
  ⟨now, f, hinstant, hdefinition, heligible, hpolicy ▸ h⟩

variable (hg : g.IsAt owner written r) (hid : r.id = e.run) (hgoes : written = true → r.GoesOn)
  (heligible : r.isEligible now = .ok true)
include hg hid hgoes heligible

theorem withoutAttributes_follows (hcondition : atCondition r f = true) (fault : Fault) :
    (finish (x.withoutAttributes r now fault) >>= fun failed =>
      store (.saveRun failed owner)).Follows e.protocol (e.Drives owner) g := by
  cases hfailed : x.withoutAttributes r now fault with
  | error fault' =>
    have hstuck : r.Stuck x.policy f now e.attributes := .inr ⟨_, fault', hfailed⟩
    exact drives_error hg hid (fails_of_stuck hpolicy hinstant hdefinition hstuck) fault'
  | ok failed =>
    obtain ⟨n, hn, hkind⟩ := exists_of_atCondition hcondition
    obtain ⟨hidle, _⟩ | ⟨_, hprogress⟩ := Run.attributesUnavailable_eq_ok hn hkind hfailed
    · simp [heligible] at hidle
    · have hsteps := steps_of_progress hpolicy hinstant hdefinition heligible hprogress
      refine (saveRun_follows hg hgoes hsteps hid).mono ?_
      rintro g' _ (⟨rfl, hid', hg'⟩ | ⟨⟨fault', rfl⟩, rfl⟩)
      · exact drives_ok hg' hid' (.inl rfl)
      · exact drives_lost fault'

/-- One step is made and written; what is done next holds the run as it was written. -/
theorem saveStep_follows {attributes : Fields} (hattributes : e.attributes attributes)
    {next : Run → Activity Run}
    (hnext : ∀ (g : Grip) (r' : Run), g.IsAt owner true r' → r'.id = e.run →
      (next r').Follows e.protocol (e.Drives owner) g) :
    (x.step r f now attributes >>= fun stepped =>
      (store (.saveRun stepped.run owner) : Activity Run) >>= next).Follows e.protocol
        (e.Drives owner) g := by
  refine (step_follows hg x r f now attributes).bind ?_ ?_
  · rintro g' stepped ⟨hg', deliver, hstep⟩
    obtain ⟨hidle, _⟩ | ⟨_, hprogress⟩ := Run.step_eq_ok hstep.symm
    · simp [heligible] at hidle
    · have hsteps := steps_of_progress hpolicy hinstant hdefinition heligible hprogress
      refine (saveRun_follows hg' hgoes hsteps hid).bind ?_ ?_
      · rintro g'' saved (⟨⟨⟩, hid', hg''⟩ | ⟨⟨_, hfault⟩, _⟩)
        · exact hnext g'' _ hg'' hid'
        · cases hfault
      · rintro g'' fault (⟨hfault, _⟩ | ⟨_, rfl⟩)
        · cases hfault
        · exact drives_lost fault
  · rintro g' fault ⟨hg', deliver, hstep⟩
    have hstuck : r.Stuck x.policy f now e.attributes :=
      .inl ⟨attributes, deliver, fault, hattributes, hstep.symm⟩
    exact drives_error hg' hid (fails_of_stuck hpolicy hinstant hdefinition hstuck) fault

end StepAll

theorem stepAll_follows (hnone : e.attributes []) (hpolicy : e.policy = x.policy)
    (hinstant : e.instant now) (hdefinition : e.definition (.ok (some f))) (bound : Nat)
    (hg : g.IsAt owner written r) (hid : r.id = e.run) (hgoes : written = true → r.GoesOn)
    (hbound : written = true ∨ bound ≠ 0) :
    (x.stepAll f owner now bound r).Follows e.protocol (e.Drives owner) g := by
  induction bound generalizing written r g with
  | zero =>
    -- the first step is always made, so what is given back here was written before
    exact drives_ok hg hid (.inl (hbound.resolve_right (· rfl)))
  | succ bound ih =>
    unfold stepAll
    cases heligible : r.isEligible now with
    | error fault =>
      have hstuck : r.Stuck x.policy f now e.attributes :=
        .inr ⟨"", fault, attributesUnavailable_error heligible _⟩
      exact drives_error hg hid (fails_of_stuck hpolicy hinstant hdefinition hstuck) fault
    | ok eligible =>
      cases eligible with
      | false => exact drives_ok hg hid (.inr ⟨now, hinstant, heligible⟩)
      | true =>
        refine (attributesFor_follows hg hnone x r f).bind ?_ ?_
        · rintro g' answer ⟨hg', _, ⟨⟩, hanswer⟩
          cases answer with
          | error fault =>
            exact withoutAttributes_follows hpolicy hinstant hdefinition hg' hid hgoes heligible
              hanswer fault
          | ok attributes =>
            refine saveStep_follows hpolicy hinstant hdefinition hg' hid hgoes heligible hanswer ?_
            intro g'' saved hg'' hid'
            split
            · next hgoesOn => exact ih hg'' hid' (fun _ => hgoesOn) (.inl rfl)
            · exact drives_ok hg'' hid' (.inl rfl)
        · rintro g' fault ⟨_, _, hfault, _⟩
          cases hfault

theorem orphan_origin (r : Run) (now : Instant) : (orphan r now).origin = r.origin := by
  unfold orphan
  split <;> rfl

theorem cancelled_origin (r : Run) (now : Instant) : (cancelled r now).origin = r.origin := by
  unfold cancelled
  split <;> rfl

theorem orphan_id (r : Run) (now : Instant) : (orphan r now).id = r.id :=
  congrArg Run.Origin.id (orphan_origin r now)

theorem cancelled_id (r : Run) (now : Instant) : (cancelled r now).id = r.id :=
  congrArg Run.Origin.id (cancelled_origin r now)

theorem drive_follows (hnone : e.attributes []) (hpolicy : e.policy = x.policy)
    (hclose : e.close = orphan) (hinstant : e.instant now) (hg : g.IsAt owner false r)
    (hid : r.id = e.run) :
    (x.drive r owner now).Follows e.protocol (e.Drives owner) g := by
  have hread : (store (.getFunnel r.funnelId)).Follows e.protocol
      (fun g result => g.IsAt owner false r ∧ e.definition result) g := by
    rcases hg with rfl | rfl
    · refine Follows.store ⟨rfl, rfl⟩ fun a g' ha => ?_
      rcases ha with ⟨hdefinition, rfl⟩ | ⟨hdefinition, rfl⟩
      · exact ⟨.inl rfl, hdefinition⟩
      · exact ⟨.inr rfl, hdefinition⟩
    · refine Follows.store trivial fun a g' ha => ?_
      obtain ⟨hdefinition, rfl⟩ := ha
      exact ⟨.inr rfl, hdefinition⟩
  refine hread.bind ?_ ?_
  · rintro g' found ⟨hg', hdefinition⟩
    cases found with
    | none =>
      rcases hg' with rfl | rfl
      · exact ⟨rfl, hid, .inl ⟨_, rfl, .inr ⟨rfl, now, hinstant, by rw [hclose]⟩⟩⟩
      · refine ⟨rfl, ?_⟩
        rintro _ ⟨⟩
        rw [orphan_id, hid]
    | some f =>
      exact stepAll_follows hnone hpolicy hinstant hdefinition _ hg' hid nofun (.inr (by simp))
  · rintro g' fault ⟨hg', hdefinition⟩
    exact drives_error hg' hid (.inl ⟨fault, hdefinition⟩) fault

theorem releaseRun_follows (h : e.Drives owner g (.ok r)) :
    (store (.releaseRun r owner)).Follows e.protocol e.Ends g := by
  cases g with
  | holds owner' written r' =>
    obtain ⟨rfl, _, ⟨_, ⟨⟩, hcloses⟩ | ⟨⟨_, hfault⟩, _⟩⟩ := h
    · refine Follows.store ⟨rfl, hcloses⟩ fun a g' ha => ?_
      rcases ha with ⟨rfl, rfl⟩ | ⟨rfl, rfl⟩
      · exact .inl rfl
      · exact rfl
    · cases hfault
  | lost owner' =>
    obtain ⟨rfl, hid⟩ := h
    refine Follows.store ⟨rfl, hid r rfl⟩ fun a g' ha => ?_
    obtain ⟨rfl, rfl⟩ := ha
    exact rfl
  | _ => exact h.elim

theorem releaseLatest_follows {fault : Fault} (h : e.Drives owner g (.error fault))
    (hid : r₀.id = e.run) (fault' : Fault) :
    (releaseLatest r₀ owner >>= fun _ => throw fault').Follows e.protocol e.Ends g := by
  cases g with
  | holds owner' written r =>
    obtain ⟨rfl, hid', ⟨_, hresult, _⟩ | ⟨_, hfails⟩⟩ := h
    · cases hresult
    · -- the lock can get lost before the run is read again, and before it is given back
      refine ⟨hid, fun a g' ha => ?_⟩
      rcases ha with ⟨rfl, rfl⟩ | ⟨⟨latest, rfl, hlatest⟩, rfl⟩
      · refine ⟨⟨rfl, .inl ⟨rfl, .inr (.inr hfails)⟩⟩, fun a g' ha => ?_⟩
        rcases ha with ⟨rfl, rfl⟩ | ⟨rfl, rfl⟩
        · exact .inr ⟨⟨fault', rfl⟩, hfails⟩
        · exact rfl
      · refine ⟨⟨rfl, hlatest⟩, fun a g' ha => ?_⟩
        obtain ⟨rfl, rfl⟩ := ha
        exact rfl
  | lost owner' =>
    obtain ⟨rfl, _⟩ := h
    refine ⟨hid, fun a g' ha => ?_⟩
    obtain ⟨⟨latest, rfl, hlatest⟩, rfl⟩ := ha
    refine ⟨⟨rfl, hlatest⟩, fun a g' ha => ?_⟩
    obtain ⟨rfl, rfl⟩ := ha
    exact rfl
  | _ => exact h.elim

/-- An errand begins with an instant, a name of its own and the lock. -/
theorem locking_follows {now? : Option Instant} {rest : Instant → String → Run → Activity Run}
    (hinstant : now?.elim (∀ now, e.instant now) e.instant)
    (h : ∀ now owner r, e.instant now → r.id = e.run →
      (rest now owner r).Follows e.protocol e.Ends (.holds owner false r)) :
    (do
      let now ← instantOr now?
      let owner := e.name (← token)
      let r : Run ← store (.acquireRun e.run owner now)
      rest now owner r).Follows e.protocol e.Ends .apart := by
  have hlock (now : Instant) (hnow : e.instant now) :
      (token >>= fun t => (store (.acquireRun e.run (e.name t) now) : Activity Run) >>=
        rest now (e.name t)).Follows e.protocol e.Ends .apart := by
    refine ⟨trivial, fun t g ht => ?_⟩
    obtain ⟨howns, rfl⟩ := ht
    refine ⟨⟨rfl, howns, hnow⟩, fun a g ha => ?_⟩
    rcases ha with ⟨r, rfl, hid, rfl⟩ | ⟨⟨fault, rfl⟩, rfl⟩
    · exact h now _ r hnow hid
    · exact ⟨fault, rfl⟩
  cases now? with
  | none =>
    refine ⟨hinstant, fun now g hnow => ?_⟩
    obtain rfl : g = .apart := hnow
    exact hlock now (hinstant now)
  | some now => exact hlock now hinstant

def executeHeld (x : Execution) (id : String) (now : Instant) (owner : String) (r : Run) :
    Activity Run := do
  match ← (x.drive r owner now).attempt with
  | .ok driven => store (.releaseRun driven owner)
  | .error fault =>
    releaseLatest r owner
    throw (if fault.isRefusal then fault else .failedWhile (.executingRun id) fault)

theorem executeHeld_follows (hnone : e.attributes []) (hpolicy : e.policy = x.policy)
    (hclose : e.close = orphan) (hinstant : e.instant now) (hid : r.id = e.run) :
    (x.executeHeld e.run now owner r).Follows e.protocol e.Ends (.holds owner false r) := by
  refine (drive_follows hnone hpolicy hclose hinstant (.inl rfl) hid).attempt.bind ?_ ?_
  · rintro g result ⟨_, ⟨⟩, hdrives⟩
    cases result with
    | ok driven => exact releaseRun_follows hdrives
    | error fault => exact releaseLatest_follows hdrives hid _
  · rintro g fault ⟨_, hfault, _⟩
    cases hfault

theorem execute_follows {now? : Option Instant} (hnone : e.attributes [])
    (hpolicy : e.policy = x.policy) (hclose : e.close = orphan)
    (hname : e.name = fun token => x.worker ++ ":" ++ token)
    (hinstant : now?.elim (∀ now, e.instant now) e.instant) :
    (x.execute e.run now?).Follows e.protocol e.Ends .apart := by
  have h := locking_follows hinstant fun now _ _ hnow hid =>
    executeHeld_follows hnone hpolicy hclose hnow hid
  rwa [hname] at h

theorem cancel_follows {now? : Option Instant} (hclose : e.close = cancelled)
    (hname : e.name = fun token => x.worker ++ ":cancel:" ++ token)
    (hinstant : now?.elim (∀ now, e.instant now) e.instant) :
    (x.cancel e.run now?).Follows e.protocol e.Ends .apart := by
  have h := locking_follows hinstant fun now owner r hnow hid =>
    have hdrives : e.Drives owner (.holds owner false r) (.ok (cancelled r now)) :=
      ⟨rfl, hid, .inl ⟨_, rfl, .inr ⟨rfl, now, hnow, by rw [hclose]⟩⟩⟩
    releaseRun_follows hdrives
  rwa [hname] at h

end Execution

inductive Task where
  | execute
  | cancel

namespace Task

def owner (task : Task) (x : Execution) (token : String) : String :=
  match task with
  | .execute => x.worker ++ ":" ++ token
  | .cancel => x.worker ++ ":cancel:" ++ token

def activity (task : Task) (x : Execution) (id : String) (now? : Option Instant) : Activity Run :=
  match task with
  | .execute => x.execute id now?
  | .cancel => x.cancel id now?

def close : Task → Run → Instant → Run
  | .execute => Execution.orphan
  | .cancel => Execution.cancelled

theorem close_origin (task : Task) (r : Run) (now : Instant) :
    (task.close r now).origin = r.origin := by
  cases task with
  | execute => exact Execution.orphan_origin r now
  | cancel => exact Execution.cancelled_origin r now

def errand (task : Task) (x : Execution) (id : String) (owns : String → Prop) : Errand where
  run := id
  name := task.owner x
  owns := owns
  instant _ := True
  definition _ := True
  attributes _ := True
  policy := x.policy
  close := task.close
  close_origin := task.close_origin

theorem errand_admits (task : Task) (x : Execution) (id : String) (q : Request) (a : q.Answer) :
    (task.errand x id fun _ => True).Admits q a := by
  cases q with
  | read address => exact fun _ _ => trivial
  | store call => cases call <;> trivial
  | _ => trivial

theorem activity_follows {task : Task} {x : Execution} {id : String} {owns : String → Prop}
    {now? : Option Instant} : (task.activity x id now?).Follows
      (task.errand x id owns).protocol (task.errand x id owns).Ends .apart := by
  have hinstant : now?.elim (∀ now, (task.errand x id owns).instant now)
      (task.errand x id owns).instant := by
    cases now? with
    | none => exact fun _ => trivial
    | some now => trivial
  cases task with
  | execute => exact Execution.execute_follows trivial rfl rfl rfl hinstant
  | cancel => exact Execution.cancel_follows rfl rfl hinstant

end Task

end FunnelFlow
