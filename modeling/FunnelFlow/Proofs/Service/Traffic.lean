import Mathlib.Logic.Function.Basic
import FunnelFlow.Proofs.Service.Holding

/-!
Any number of executions and cancellations of one run, under way at the same time. Each moves from
one answer to the next at its own pace, while others use the store for other things; locks may run
out and be taken over in between.
-/

namespace FunnelFlow

open Activity Relation

/-- Nothing of what happened to a run is forgotten, one thing at most was added, and a run that has
ended is as it was. -/
structure Run.Extends (r r' : Run) : Prop where
  history : ∃ added, r'.history = r.history ++ added ∧ added.length ≤ 1
  ended : r.isTerminal = true → r' = r

namespace Run.Extends

variable {r : Run}

theorem refl (r : Run) : r.Extends r := ⟨⟨[], by simp, by simp⟩, fun _ => rfl⟩

theorem orphan (r : Run) (now : Instant) : r.Extends (Execution.orphan r now) := by
  unfold Execution.orphan
  split
  · exact .refl r
  · next hterminal => exact ⟨⟨_, rfl, Nat.le_refl 1⟩, fun h => absurd h hterminal⟩

theorem cancelled (r : Run) (now : Instant) : r.Extends (Execution.cancelled r now) := by
  unfold Execution.cancelled
  split
  · exact .refl r
  · next hterminal => exact ⟨⟨_, rfl, Nat.le_refl 1⟩, fun h => absurd h hterminal⟩

theorem progress {policy : RetryPolicy} {f : Funnel} {now : Instant} {r' : Run}
    (heligible : r.isEligible now = .ok true)
    (h : Run.Progress policy f now (r.resume now) r') : r.Extends r' := by
  obtain ⟨outcome, reason, hhistory⟩ := h.history_eq
  rw [resume_history] at hhistory
  have hterminal := isTerminal_eq_false_of_isEligible heligible
  exact ⟨⟨_, hhistory, Nat.le_refl 1⟩, fun h => by simp [hterminal] at h⟩

end Run.Extends

namespace Task

variable {task : Task} {x : Execution} {id : String} {owns : String → Prop}

theorem extends_of_writes {written : Bool} {r r' : Run}
    (h : (task.errand x id owns).Writes written r r') : r.Extends r' := by
  rcases h with ⟨_, now, f, _, _, heligible, hprogress⟩ | ⟨rfl, _⟩ | ⟨_, now, _, rfl⟩
  · exact .progress heligible hprogress
  · exact .refl r'
  · cases task with
    | execute => exact .orphan r now
    | cancel => exact .cancelled r now

end Task

structure Job where
  token : String
  rest : Activity Run

def Job.admits (token : String) : (q : Request) → q.Answer → Prop
  | .token, a => a = token
  | _, _ => True

/-- The store, and all that is or was under way, by the names under which the run is locked. -/
structure Traffic where
  store : Stored MemoryStore
  jobs : String → Option Job

namespace Traffic

variable {id owner : String} {t t' : Traffic} {who : Option String}

def holder (t : Traffic) (id : String) : Option String := t.store.data.runHolder id

def document (t : Traffic) (id : String) : Option Value := t.store.data.runs.get? id

/-- What can happen next: something new is begun with the run, one job gets an answer, or the store
is asked for something that has nothing to do with the run. -/
inductive Step (id : String) : Option String → Traffic → Traffic → Prop
  | start {t : Traffic} (task : Task) (x : Execution) (now? : Option Instant) (token : String)
    (hnew : t.jobs (task.owner x token) = none)
    (hholder : t.holder id ≠ some (task.owner x token)) :
    Step id none t { t with
      jobs := Function.update t.jobs (task.owner x token) (some ⟨token, task.activity x id now?⟩) }
  | proceed {t : Traffic} {owner : String} {job : Job} {rest : Activity Run}
    {s : Stored MemoryStore} (hjob : t.jobs owner = some job)
    (hadvances : Advances (Job.admits job.token) (job.rest, t.store) (rest, s)) :
    Step id (some owner) t
      { store := s, jobs := Function.update t.jobs owner (some { job with rest }) }
  | aside {t : Traffic} (call : StoreCall) (hspares : call.Spares id) :
    Step id none t { t with store := ((MemoryStore.answer call).run t.store).2 }

def Reaches (id : String) : Traffic → Traffic → Prop :=
  ReflTransGen fun t t' => ∃ who, Step id who t t'

/-- The job knows the store, and holds the lock if it is held under its name. -/
def IsSound (id owner : String) (job : Job) (m : MemoryStore) : Prop :=
  ∃ (task : Task) (x : Execution) (g : Grip), owner = task.owner x job.token ∧
    (task.errand x id (· = owner)).Sees g m ∧
    job.rest.Follows (task.errand x id (· = owner)).protocol (task.errand x id (· = owner)).Ends g ∧
    (m.runHolder id = some owner → g.Holds owner)

structure Sound (id : String) (t : Traffic) : Prop where
  stored : ∃ r : Run, r.id = id ∧ t.store.data.Stores r
  jobs : ∀ owner job, t.jobs owner = some job → IsSound id owner job t.store.data

theorem admits_of_job {task : Task} {x : Execution} {token : String} {q : Request}
    {a : q.Answer} (h : Job.admits token q a) :
    (task.errand x id (· = task.owner x token)).Admits q a := by
  cases q with
  | token =>
    obtain rfl : a = token := h
    rfl
  | read address => exact fun _ _ => trivial
  | store call => cases call <;> trivial
  | _ => trivial

theorem IsSound.bystander {job : Job} {m m' : MemoryStore} (h : IsSound id owner job m)
    (hstored : ∃ r : Run, r.id = id ∧ m'.Stores r)
    (hholder : m'.runHolder id = some owner → m.runHolder id = some owner)
    (hdocument : m.runHolder id = some owner → m'.runs.get? id = m.runs.get? id) :
    IsSound id owner job m' := by
  obtain ⟨task, x, g, hname, hsees, hfollows, hholds⟩ := h
  refine ⟨task, x, ?_⟩
  cases g with
  | apart =>
    obtain ⟨r, hid, hstores⟩ := hstored
    exact ⟨.apart, hname, Errand.sees_apart hid hstores, hfollows, fun h => hholds (hholder h)⟩
  | holds owner' written r =>
    obtain ⟨rfl, hid, hstores, hheld⟩ := hsees
    by_cases hstill : m'.runHolder id = some owner'
    · have hkept : m'.Stores r := hstores.congr (by rw [show r.id = id from hid, hdocument hheld])
      exact ⟨.holds owner' written r, hname, ⟨rfl, hid, hkept, hstill⟩, hfollows, fun _ => rfl⟩
    · exact ⟨.lost owner', hname, ⟨rfl, hstill, hstored⟩, Errand.lose hfollows hid,
        fun h => absurd h hstill⟩
  | lost owner' =>
    obtain ⟨rfl, hheld, _⟩ := hsees
    have hstill : m'.runHolder id ≠ some owner' := fun h => hheld (hholder h)
    exact ⟨.lost owner', hname, ⟨rfl, hstill, hstored⟩, hfollows, fun h => absurd h hstill⟩
  | refused => exact ⟨.refused, hname, trivial, hfollows, fun h => hholds (hholder h)⟩
  | gave r => exact ⟨.gave r, hname, trivial, hfollows, fun h => hholds (hholder h)⟩

/-- The effect of one answer on the run that is stored, on the job and on all others. -/
theorem IsSound.advance {job : Job} {rest : Activity Run} {s s' : Stored MemoryStore} {r : Run}
    (h : IsSound id owner job s.data) (hid : r.id = id) (hstores : s.data.Stores r)
    (hadvances : Advances (Job.admits job.token) (job.rest, s) (rest, s')) :
    IsSound id owner { job with rest } s'.data ∧
      (∃ r', r'.id = id ∧ s'.data.Stores r' ∧ r.Extends r') ∧
      (s.data.runHolder id ≠ some owner → s'.data.runs.get? id = s.data.runs.get? id) ∧
      (s'.data.runHolder id = s.data.runHolder id ∨ s'.data.runHolder id = some owner ∨
        s'.data.runHolder id = none) := by
  obtain ⟨token, act⟩ := job
  obtain ⟨task, x, g, rfl, hsees, hfollows, hholds⟩ := h
  cases hadvances with
  | @answered q resume a _ _ hserved hadmits =>
    have hasks := hfollows.1
    obtain ⟨g', hreply, hsees', hholds'⟩ := hsees.answered hasks hserved (admits_of_job hadmits)
    refine ⟨⟨task, x, g', rfl, hsees', hfollows.2 _ _ hreply, fun howner => ?_⟩, ?_⟩
    · exact (hholds' _ howner).resolve_right fun h => h.1 (hholds h.2)
    · rcases hserved.changes with hkept | ⟨call, rfl, hchanges⟩
      · rw [hkept]
        exact ⟨⟨r, hid, hstores, .refl r⟩, fun _ => rfl, .inl rfl⟩
      · have hby := Errand.isBy_of_asks (fun _ h => h) hsees hasks
        refine ⟨?_, hchanges.document_eq hby, hchanges.runHolder_eq hby⟩
        obtain ⟨_, hruns | ⟨_, _, held, r', rfl, hruns, hwrites⟩⟩ := hsees.effect hasks hchanges
        · exact ⟨r, hid, hstores.congr (by rw [hruns]), .refl r⟩
        · obtain ⟨_, hheld, hstored, _⟩ := hsees
          obtain rfl := hstores.eq hstored (hheld.trans hid.symm)
          exact ⟨r', hwrites.id_eq.trans hid, MemoryStore.stores_putRun.congr (by rw [hruns]),
            Task.extends_of_writes hwrites⟩

theorem Sound.step (h : t.Sound id) (hstep : Step id who t t') :
    t'.Sound id ∧ ∃ r r' : Run, r.id = id ∧ r'.id = id ∧ t.store.data.Stores r ∧
      t'.store.data.Stores r' ∧ r.Extends r' := by
  obtain ⟨⟨r, hid, hstores⟩, hjobs⟩ := h
  cases hstep with
  | start task x now? token hnew hholder =>
    refine ⟨⟨⟨r, hid, hstores⟩, fun owner job hjob => ?_⟩, r, r, hid, hid, hstores, hstores,
      .refl r⟩
    by_cases howner : owner = task.owner x token
    · subst howner
      obtain rfl : Job.mk token (task.activity x id now?) = job := by simpa using hjob
      exact ⟨task, x, .apart, rfl, Errand.sees_apart hid hstores, Task.activity_follows,
        fun h => absurd h hholder⟩
    · exact hjobs owner job (by simpa [howner] using hjob)
  | @proceed _ owner job rest s hjob hadvances =>
    obtain ⟨hsound, ⟨r', hid', hstores', hextends⟩, hdocument, hholder⟩ :=
      (hjobs owner job hjob).advance hid hstores hadvances
    refine ⟨⟨⟨r', hid', hstores'⟩, fun other job' hjob' => ?_⟩, r, r', hid, hid', hstores, hstores',
      hextends⟩
    by_cases hother : other = owner
    · subst hother
      obtain rfl : { job with rest } = job' := by simpa using hjob'
      exact hsound
    · -- the lock that moved is not the other job's, so it only stands by
      have hnot : ∀ o, o = some other → o ≠ some owner := by
        rintro _ rfl h
        exact hother (Option.some.inj h)
      refine (hjobs other job' (by simpa [hother] using hjob')).bystander ⟨r', hid', hstores'⟩ ?_
        fun hheld => hdocument (hnot _ hheld)
      intro hheld
      rcases hholder with hsame | hown | hnone
      · exact hsame.symm.trans hheld
      · exact absurd hown (hnot _ hheld)
      · simp [hnone] at hheld
  | aside call hspares =>
    obtain ⟨hdocument, hholder⟩ := (MemoryStore.answer_changes call t.store).spared hspares
    have hstores' := hstores.congr (hid ▸ hdocument)
    refine ⟨⟨⟨r, hid, hstores'⟩, fun owner job hjob => ?_⟩, r, r, hid, hid, hstores, hstores',
      .refl r⟩
    exact (hjobs owner job hjob).bystander ⟨r, hid, hstores'⟩ (fun h => hholder ▸ h)
      fun _ => hdocument

theorem Sound.reaches (h : t.Sound id) (hreaches : Reaches id t t') : t'.Sound id := by
  induction hreaches with
  | refl => exact h
  | tail _ hstep ih =>
    obtain ⟨who, hstep⟩ := hstep
    exact (ih.step hstep).1

theorem Sound.ended (h : t.Sound id) {r : Run} (hid : r.id = id) (hstores : t.store.data.Stores r)
    (hended : r.isTerminal = true) (hreaches : Reaches id t t') : t'.store.data.Stores r := by
  induction hreaches with
  | refl => exact hstores
  | @tail t₁ t₂ hpath hstep ih =>
    obtain ⟨who, hstep⟩ := hstep
    obtain ⟨_, r₁, r₂, hid₁, _, hstores₁, hstores₂, hextends⟩ := (h.reaches hpath).step hstep
    obtain rfl := ih.eq hstores₁ (hid₁.trans hid.symm)
    rwa [hextends.ended hended] at hstores₂

/-- The job's lock was taken over, so that it can only end with a refusal. -/
def IsDoomed (id owner : String) (t : Traffic) : Prop :=
  t.holder id ≠ some owner ∧ ∃ (job : Job) (task : Task) (x : Execution),
    t.jobs owner = some job ∧ owner = task.owner x job.token ∧
    job.rest.Follows (task.errand x id (· = owner)).protocol (task.errand x id (· = owner)).Ends
      (.lost owner)

theorem isDoomed_of_takeover {other : String} (h : t.Sound id) (hstep : Step id who t t')
    {job : Job} (hjob : t.jobs owner = some job) (hholder : t.holder id = some owner)
    (htaken : t'.holder id = some other) (hother : other ≠ owner) : t'.IsDoomed id owner := by
  have hlost : t'.holder id ≠ some owner := fun h => hother (Option.some.inj (htaken.symm.trans h))
  refine ⟨hlost, ?_⟩
  obtain ⟨r, hid, hstores⟩ := h.stored
  cases hstep with
  | start => exact absurd hholder hlost
  | aside call hspares =>
    have hkept := ((MemoryStore.answer_changes call t.store).spared hspares).2
    exact absurd (hkept.trans hholder) hlost
  | @proceed _ mover moving rest s hmoving hadvances =>
    by_cases hmover : owner = mover
    · -- whoever holds the lock cannot hand it to another
      subst hmover
      obtain ⟨_, _, _, hsame | hown | hnone⟩ :=
        (h.jobs owner moving hmoving).advance hid hstores hadvances
      · exact absurd (hsame.trans hholder) hlost
      · exact absurd hown hlost
      · cases hnone.symm.trans htaken
    · obtain ⟨task, x, g, hname, hsees, hfollows, hholds⟩ := h.jobs owner job hjob
      refine ⟨job, task, x, by simpa [hmover] using hjob, hname, ?_⟩
      have hheld := hholds hholder
      cases g with
      | holds owner' written held =>
        obtain rfl : owner' = owner := hheld
        exact Errand.lose hfollows hsees.2.1
      | _ => exact hheld.elim

/-- A doomed job gets nothing but refusals for what it does to the run, and stays doomed. -/
theorem IsDoomed.step (h : t.IsDoomed id owner) (hsound : t.Sound id) (hstep : Step id who t t') :
    t'.IsDoomed id owner ∧ (who = some owner → t'.document id = t.document id) := by
  obtain ⟨hholder, job, task, x, hjob, hname, hfollows⟩ := h
  obtain ⟨r, hid, hstores⟩ := hsound.stored
  cases hstep with
  | start task' x' now? token hnew _ =>
    have hne : owner ≠ task'.owner x' token := by
      rintro rfl
      simp [hjob] at hnew
    exact ⟨⟨hholder, job, task, x, by simpa [hne] using hjob, hname, hfollows⟩, nofun⟩
  | aside call hspares =>
    have hkept := ((MemoryStore.answer_changes call t.store).spared hspares).2
    exact ⟨⟨fun h => hholder (hkept.symm.trans h), job, task, x, hjob, hname, hfollows⟩, nofun⟩
  | @proceed _ mover moving rest s hmoving hadvances =>
    by_cases hmover : owner = mover
    · subst hmover
      obtain rfl : job = moving := by simpa [hjob] using hmoving
      obtain ⟨token, act⟩ := job
      subst hname
      cases hadvances with
      | @answered q resume a _ _ hserved hadmits =>
        have hsees : (task.errand x id (· = task.owner x token)).Sees (.lost _) t.store.data :=
          ⟨rfl, hholder, r, hid, hstores⟩
        obtain ⟨hdenies, hkept⟩ := hsees.denied hfollows.1 hserved (admits_of_job hadmits)
        refine ⟨⟨?_, ⟨token, resume a⟩, task, x, Function.update_self .., rfl,
          hfollows.2 _ _ ⟨hdenies, rfl⟩⟩, fun _ => ?_⟩
        · rwa [holder, hkept]
        · rw [document, hkept]
          rfl
    · obtain ⟨_, _, _, hmoved⟩ := (hsound.jobs mover moving hmoving).advance hid hstores hadvances
      refine ⟨⟨fun h => ?_, job, task, x, by simpa [hmover] using hjob, hname, hfollows⟩,
        fun h => absurd (Option.some.inj h).symm hmover⟩
      rcases hmoved with hsame | hother | hnone
      · exact hholder (hsame.symm.trans h)
      · exact hmover (Option.some.inj (h.symm.trans hother))
      · cases hnone.symm.trans h

theorem IsDoomed.reaches (h : t.IsDoomed id owner) (hsound : t.Sound id)
    (hreaches : Reaches id t t') : t'.IsDoomed id owner := by
  induction hreaches with
  | refl => exact h
  | tail hpath hstep ih =>
    obtain ⟨who, hstep⟩ := hstep
    exact (ih.step (hsound.reaches hpath) hstep).1

theorem IsDoomed.result_eq (h : t.IsDoomed id owner) {token : String} {result : Except Fault Run}
    (hjob : t.jobs owner = some ⟨token, .done result⟩) :
    result = .error (.runNotHeld id owner) := by
  obtain ⟨_, job, task, x, hjob', _, hfollows⟩ := h
  obtain rfl : Job.mk token (.done result) = job := by simpa [hjob] using hjob'
  exact hfollows

def next (t : Traffic) (owner : String) : Traffic :=
  match t.jobs owner with
  | some ⟨token, .ask q resume⟩ =>
    let (a, s) := still default token q t.store
    { store := s, jobs := Function.update t.jobs owner (some ⟨token, resume a⟩) }
  | _ => t

theorem step_next {token : String} {q : Request} {resume : q.Answer → Activity Run}
    (hjob : t.jobs owner = some ⟨token, .ask q resume⟩) :
    Step id (some owner) t (t.next owner) := by
  have hadmits : Job.admits token q (still default token q t.store).1 := by
    cases q with
    | token => rfl
    | _ => trivial
  have hserved := still_served default token q t.store
  have hstep : Step id _ t _ := .proceed hjob (.answered hserved hadmits)
  rw [next, hjob]
  exact hstep

theorem exists_end {token : String} {act : Activity Run}
    (hjob : t.jobs owner = some ⟨token, act⟩) : ∃ t' result,
      ReflTransGen (Step id (some owner)) t t' ∧ t'.jobs owner = some ⟨token, .done result⟩ := by
  induction act generalizing t with
  | done result => exact ⟨t, result, .refl, hjob⟩
  | ask q resume ih =>
    have hnext : (t.next owner).jobs owner =
        some ⟨token, resume (still default token q t.store).1⟩ := by
      rw [next, hjob]
      exact Function.update_self ..
    obtain ⟨t', result, hpath, hend⟩ := ih _ hnext
    exact ⟨t', result, .head (step_next hjob) hpath, hend⟩

theorem reaches_of_alone (h : ReflTransGen (Step id (some owner)) t t') : Reaches id t t' :=
  h.lift (fun t => t) fun _ _ hstep => ⟨some owner, hstep⟩

structure Opens (id : String) (t : Traffic) : Prop where
  stored : ∃ r : Run, r.id = id ∧ t.store.data.Stores r
  idle : ∀ owner, t.jobs owner = none

theorem Opens.sound (h : t.Opens id) : t.Sound id :=
  ⟨h.stored, fun owner job hjob => by simp [h.idle owner] at hjob⟩

/-- However executions and cancellations of a run overlap, the run that is stored only ever grows,
by one entry at a time, and stays as it is once it has ended; and whoever loses its lock to another
does not change the run any more and is told so in the end. -/
theorem Reaches.never_overwritten {t₀ : Traffic} (hopens : t₀.Opens id) (h : Reaches id t₀ t) :
    (∀ who t', Step id who t t' → ∃ r r' : Run, r.id = id ∧ r'.id = id ∧
      t.store.data.Stores r ∧ t'.store.data.Stores r' ∧ r.Extends r') ∧
    (∀ (r : Run) t', r.id = id → t.store.data.Stores r → r.isTerminal = true → Reaches id t t' →
      t'.document id = t.document id) ∧
    ∀ who t' owner other job, t.jobs owner = some job → t.holder id = some owner →
      Step id who t t' → t'.holder id = some other → other ≠ owner → ∀ t₁, Reaches id t' t₁ →
        (∀ t₂, Step id (some owner) t₁ t₂ → t₂.document id = t₁.document id) ∧
        (∀ token result, t₁.jobs owner = some ⟨token, .done result⟩ →
          result = .error (.runNotHeld id owner)) ∧
        ∃ t₂ token, ReflTransGen (Step id (some owner)) t₁ t₂ ∧
          t₂.jobs owner = some ⟨token, .done (.error (.runNotHeld id owner))⟩ := by
  have hsound := hopens.sound.reaches h
  refine ⟨fun who t' hstep => (hsound.step hstep).2, ?_, ?_⟩
  · rintro r t' rfl hstores hended hreaches
    exact (hsound.ended rfl hstores hended hreaches).trans hstores.symm
  · intro who t' owner other job hjob hholder hstep htaken hother t₁ hreaches
    have hsound' := (hsound.step hstep).1
    have hdoomed := (isDoomed_of_takeover hsound hstep hjob hholder htaken hother).reaches
      hsound' hreaches
    have hsound₁ := hsound'.reaches hreaches
    refine ⟨fun t₂ hown => (hdoomed.step hsound₁ hown).2 rfl, fun _ _ => hdoomed.result_eq, ?_⟩
    have ⟨_, ⟨token, act⟩, _, _, hjob₁, _⟩ := hdoomed
    obtain ⟨t₂, result, hpath, hend⟩ := exists_end hjob₁
    obtain rfl := (hdoomed.reaches hsound₁ (reaches_of_alone hpath)).result_eq hend
    exact ⟨t₂, token, hpath, hend⟩

def overlapping : Execution := ⟨⟨"whatsapp", "email"⟩, "contacts", ⟨3, 60⟩, "worker"⟩

def opening : Traffic :=
  { store := ⟨.first, (MemoryStore.empty ⟨300000000⟩ ⟨300000000⟩).putRun Run.welcomeRun⟩
    jobs := fun _ => none }

def begin (t : Traffic) (token : String) (now : Instant) : Traffic :=
  let job : Job := ⟨token, overlapping.execute "run" (some now)⟩
  { t with jobs := Function.update t.jobs ("worker:" ++ token) (some job) }

def underWay : Traffic := ((opening.begin "a" ⟨0, none⟩).next "worker:a").next "worker:a"

def contended : Traffic := (underWay.begin "b" ⟨300000000, none⟩).next "worker:b"

theorem opening_opens : opening.Opens "run" :=
  ⟨⟨Run.welcomeRun, rfl, rfl⟩, fun _ => rfl⟩

theorem reaches_begin {token : String} {now : Instant} (h : Reaches "run" opening t)
    (hnew : t.jobs ("worker:" ++ token) = none)
    (hholder : t.holder "run" ≠ some ("worker:" ++ token)) :
    Reaches "run" opening (t.begin token now) :=
  h.tail ⟨none, .start .execute overlapping (some now) token hnew hholder⟩

theorem reaches_contended : Reaches "run" opening contended := by
  have hbegin : Reaches "run" opening (opening.begin "a" ⟨0, none⟩) :=
    reaches_begin .refl rfl (by decide)
  have hunderWay : Reaches "run" opening underWay :=
    (hbegin.tail ⟨_, step_next rfl⟩).tail ⟨_, step_next rfl⟩
  have hcontended : Reaches "run" opening (underWay.begin "b" ⟨300000000, none⟩) :=
    reaches_begin hunderWay rfl (by decide)
  exact hcontended.tail ⟨_, step_next rfl⟩

theorem contended_never_overwritten :
    opening.Opens "run" ∧ Reaches "run" opening contended ∧
    contended.holder "run" = some "worker:a" ∧
    Step "run" (some "worker:b") contended (contended.next "worker:b") ∧
    (contended.next "worker:b").holder "run" = some "worker:b" ∧
    ∀ t₁, Reaches "run" (contended.next "worker:b") t₁ →
      (∀ t₂, Step "run" (some "worker:a") t₁ t₂ → t₂.document "run" = t₁.document "run") ∧
      (∀ token result, t₁.jobs "worker:a" = some ⟨token, .done result⟩ →
        result = .error (.runNotHeld "run" "worker:a")) ∧
      ∃ t₂ token, ReflTransGen (Step "run" (some "worker:a")) t₁ t₂ ∧
        t₂.jobs "worker:a" = some ⟨token, .done (.error (.runNotHeld "run" "worker:a"))⟩ := by
  have hstep : Step "run" (some "worker:b") contended (contended.next "worker:b") := step_next rfl
  have hholder : contended.holder "run" = some "worker:a" := by decide
  have htaken : (contended.next "worker:b").holder "run" = some "worker:b" := by decide
  refine ⟨opening_opens, reaches_contended, hholder, hstep, htaken, ?_⟩
  exact (reaches_contended.never_overwritten opening_opens).2.2 _ _ _ _ _ rfl hholder hstep htaken
    (by decide)

end Traffic

end FunnelFlow
