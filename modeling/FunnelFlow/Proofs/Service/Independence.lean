import FunnelFlow.Proofs.Service.Passes
import FunnelFlow.Proofs.Store.Definitions

/-!
Executions of different runs at one instant, with peers whose answers depend on nothing but the
request. An execution reads and writes nothing of other runs, so neither the order in which runs are
executed matters nor the names under which they are locked.
-/

namespace FunnelFlow

open Activity

namespace MemoryStore

variable {m m' : MemoryStore} {now : Instant} {id : String} {last : Run}

def IsFree (m : MemoryStore) (now : Instant) (id : String) : Prop :=
  ∃ r, r.id = id ∧ m.Stores r ∧ m.isLocked id now = .ok false

/-- Two stores are alike to whoever executes a run. -/
structure IsAlikeAt (id : String) (m m' : MemoryStore) : Prop where
  funnels : m'.funnels = m.funnels
  run : m'.runs.get? id = m.runs.get? id
  lock : m'.runLocks.get? id = m.runLocks.get? id
  ttl : m'.runTtl = m.runTtl

theorem IsAlikeAt.refl (id : String) (m : MemoryStore) : m.IsAlikeAt id m := ⟨rfl, rfl, rfl, rfl⟩

theorem IsFree.congr (h : m.IsFree now id) (halike : m.IsAlikeAt id m') : m'.IsFree now id := by
  obtain ⟨r, rfl, hstores, hfree⟩ := h
  refine ⟨r, rfl, hstores.congr halike.run, ?_⟩
  rwa [isLocked, halike.lock, halike.ttl]

theorem Releases.isAlikeAt (h : m.Releases last m') (hid : id ≠ last.id) : m.IsAlikeAt id m' :=
  ⟨h.funnels, h.runs id hid, h.runLocks id hid, h.ttls.1⟩

theorem IsFree.run_ne_none (h : m.IsFree now id) : m.runs.get? id ≠ none := by
  obtain ⟨r, rfl, hstores, _⟩ := h
  rw [hstores]
  exact Option.some_ne_none _

theorem putRun_unlockRun_comm {r r' : Run} (hne : r'.id ≠ r.id) (hr : m.runs.get? r.id ≠ none) :
    (((m.putRun r).unlockRun r.id).putRun r').unlockRun r'.id =
      (((m.putRun r').unlockRun r'.id).putRun r).unlockRun r.id := by
  simp only [putRun, unlockRun, Table.set_comm hne hr, Table.erase_comm]

end MemoryStore

structure Peers where
  post : String → Value → Reply
  read : String → Reply

namespace Peers

variable {p : Peers} {α β : Type} {act : Activity α} {result : Except Fault α}

/-- A world with these peers. The store answers its calls, and `token` is the next token. -/
def answer (p : Peers) (token : String) :
    (q : Request) → Stored MemoryStore → q.Answer × Stored MemoryStore
  | .post address body, s => (p.post address body, s)
  | .read address, s => (p.read address, s)
  | q, s => still ⟨0, none⟩ token q s

/-- The activity comes to this result wherever it is carried out, and leaves the store alone. -/
def Gives (p : Peers) (act : Activity α) (result : Except Fault α) : Prop :=
  ∀ token s, act.run (p.answer token) s = (result, s)

theorem Gives.bind {next : α → Activity β} {a : α} {result : Except Fault β}
    (h : p.Gives act (.ok a)) (hnext : p.Gives (next a) result) :
    p.Gives (act >>= next) result := by
  intro token s
  rw [run_bind, h]
  exact hnext token s

theorem Gives.bind_error {next : α → Activity β} {e : Fault} (h : p.Gives act (.error e)) :
    p.Gives (act >>= next) (.error e) := by
  intro token s
  rw [run_bind, h]

theorem Gives.attempt (h : p.Gives act result) : p.Gives act.attempt (.ok result) := by
  intro token s
  rw [run_attempt, h]

theorem gives_bind (h : ∃ result, p.Gives act result) {next : α → Activity β}
    (hnext : ∀ a, ∃ result, p.Gives (next a) result) : ∃ result, p.Gives (act >>= next) result := by
  obtain ⟨e | a, hact⟩ := h
  · exact ⟨_, hact.bind_error⟩
  · obtain ⟨result, hresult⟩ := hnext a
    exact ⟨result, hact.bind hresult⟩

theorem gives_send (p : Peers) (channels : Channels) (channel contactId : String)
    (content : Fields) (request : Option SendRequest) :
    ∃ result, p.Gives (Messenger.send channels channel contactId content request) result := by
  unfold Messenger.send
  split
  · exact ⟨_, fun _ _ => rfl⟩
  · dsimp only
    split
    · exact ⟨_, fun _ _ => rfl⟩
    · exact gives_bind ⟨_, fun _ _ => rfl⟩ fun _ => ⟨_, fun _ _ => rfl⟩

theorem gives_deliver (p : Peers) (x : Execution) (message : SendRequest) :
    ∃ delivery, p.Gives (x.deliver message) (.ok delivery) := by
  obtain ⟨result, hsend⟩ := p.gives_send x.channels message.channel message.contactId
    message.content (some message)
  rw [Execution.deliver_eq]
  exact ⟨_, hsend.attempt.bind fun _ _ => rfl⟩

theorem gives_attributesFor (p : Peers) (x : Execution) (r : Run) (f : Funnel) :
    ∃ answer, p.Gives (x.attributesFor r f) (.ok answer) := by
  have hread : ∃ result, p.Gives (ContactBook.attributes x.contacts r.contactId) result := by
    have hfinish : ∃ result, p.Gives (finish (ContactBook.address x.contacts r.contactId)) result :=
      ⟨_, fun _ _ => rfl⟩
    exact gives_bind hfinish fun _ => gives_bind ⟨_, fun _ _ => rfl⟩ fun _ => ⟨_, fun _ _ => rfl⟩
  unfold Execution.attributesFor
  split
  · obtain ⟨result, hread⟩ := hread
    exact ⟨_, hread.attempt.bind fun _ _ => rfl⟩
  · exact ⟨_, fun _ _ => rfl⟩

theorem gives_step (p : Peers) (x : Execution) (r : Run) (f : Funnel) (now : Instant)
    (attributes : Fields) : ∃ result, p.Gives (x.step r f now attributes) result ∧
      ∀ stepped, result = .ok stepped → stepped.run.id = r.id := by
  choose deliver hdeliver using p.gives_deliver x
  have hstep : p.Gives (x.step r f now attributes) (r.step x.policy f now attributes deliver) := by
    unfold Execution.step
    cases hmove : r.move f now attributes with
    | error e =>
      have hpure : r.step x.policy f now attributes deliver = .error e := by
        simp [Run.step, hmove, bind, Except.bind]
      rw [hpure]
      exact fun _ _ => rfl
    | ok move =>
      cases move with
      | settled run =>
        have hpure : r.step x.policy f now attributes deliver = .ok ⟨run, none⟩ := by
          simp [Run.step, hmove, bind, Except.bind]
        rw [hpure]
        exact fun _ _ => rfl
      | sending run message next =>
        have hpure : r.step x.policy f now attributes deliver =
            (run.settle x.policy now next (deliver message)).map fun run =>
              ⟨run, some message⟩ := by
          simp [Run.step, hmove, bind, Except.bind, Except.map]
        rw [hpure]
        refine (hdeliver message).bind ?_
        cases run.settle x.policy now next (deliver message) with
        | error e => exact fun _ _ => rfl
        | ok settled => exact fun _ _ => rfl
  refine ⟨_, hstep, fun stepped hstepped => ?_⟩
  rcases Run.step_eq_ok hstepped with ⟨_, rfl⟩ | ⟨_, hprogress⟩
  · rfl
  · rw [hprogress.id_eq, Run.resume_id]

/-- What becomes of a run under its lock: the result, and the run as it was written last. Neither
depends on the name under which the run is locked, nor on what else is in the store. -/
structure Drives (p : Peers) (r : Run) (act : String → Activity Run) (result : Except Fault Run)
    (last : Run) : Prop where
  id_eq : last.id = r.id
  result_id (driven : Run) (h : result = .ok driven) : driven.id = r.id
  run_eq (owner token : String) (s : Stored MemoryStore)
    (hheld : s.data.runHolder r.id = some owner) (hstores : s.data.Stores r) :
    (act owner).run (p.answer token) s = (result, { s with data := s.data.putRun last })

section Drives

variable {x : Execution} {r : Run} {f : Funnel} {now : Instant}

theorem drives_ok (p : Peers) (r : Run) : p.Drives r (fun _ => .done (.ok r)) (.ok r) r where
  id_eq := rfl
  result_id := by
    rintro _ ⟨⟩
    rfl
  run_eq owner token s _ hstores := by
    rw [MemoryStore.putRun_of_stores hstores]
    rfl

theorem drives_error (r : Run) {e : Fault} {act : Activity α} {next : String → α → Activity Run}
    (hact : p.Gives act (.error e)) :
    p.Drives r (fun owner => act >>= next owner) (.error e) r where
  id_eq := rfl
  result_id := by rintro _ ⟨⟩
  run_eq owner token s _ hstores := by
    rw [run_bind_error (hact token s), MemoryStore.putRun_of_stores hstores]

theorem Drives.after {a : α} {act : Activity α} {next : String → α → Activity Run}
    {result : Except Fault Run} {last : Run} (hact : p.Gives act (.ok a))
    (h : p.Drives r (fun owner => next owner a) result last) :
    p.Drives r (fun owner => act >>= next owner) result last where
  id_eq := h.id_eq
  result_id := h.result_id
  run_eq owner token s hheld hstores :=
    (run_bind_ok (hact token s)).trans (h.run_eq owner token s hheld hstores)

theorem drives_saveRun {written : Run} (p : Peers) (hid : written.id = r.id) :
    p.Drives r (fun owner => store (.saveRun written owner)) (.ok written) written where
  id_eq := hid
  result_id := by
    rintro _ ⟨⟩
    exact hid
  run_eq _ _ _ hheld _ := Execution.answer_saveRun_held hheld hid

theorem Drives.save {written last : Run} (next : String → Run → Activity Run)
    {result : Except Fault Run} (hid : written.id = r.id)
    (h : p.Drives written (fun owner => next owner written) result last) :
    p.Drives r (fun owner => (store (.saveRun written owner) : Activity Run) >>= next owner) result
      last where
  id_eq := h.id_eq.trans hid
  result_id driven hdriven := (h.result_id driven hdriven).trans hid
  run_eq owner token s hheld hstores := by
    have hsaved := (p.drives_saveRun hid).run_eq owner token s hheld hstores
    have hheld' : (s.data.putRun written).runHolder written.id = some owner := by
      rw [MemoryStore.runHolder_putRun, hid, hheld]
    refine (run_bind_ok hsaved).trans ?_
    refine (h.run_eq owner token { s with data := s.data.putRun written } hheld'
      MemoryStore.stores_putRun).trans ?_
    rw [MemoryStore.putRun_putRun h.id_eq]

theorem withoutAttributes_id {e : Fault} {failed : Run}
    (h : x.withoutAttributes r now e = .ok failed) : failed.id = r.id := by
  obtain ⟨eligible, _, hfail⟩ := except_bind_eq_ok_iff.mp h
  cases eligible with
  | false =>
    obtain rfl := Except.ok.inj hfail
    rfl
  | true =>
    rcases Run.failAttempt_eq_ok hfail with ⟨_, rfl⟩ | ⟨_, _, _, _, rfl⟩
    · exact Run.resume_id
    · exact Run.resume_id

theorem stepAll_eligible (x : Execution) (f : Funnel) (bound : Nat)
    (heligible : r.isEligible now = .ok true) :
    (fun owner => x.stepAll f owner now (bound + 1) r) = fun owner =>
      x.attributesFor r f >>= fun answer => match answer with
        | .error e => finish (x.withoutAttributes r now e) >>= fun failed =>
            store (.saveRun failed owner)
        | .ok attributes => x.step r f now attributes >>= fun stepped =>
            (store (.saveRun stepped.run owner) : Activity Run) >>= fun saved =>
              if saved.status = .running ∧ saved.nextAttemptAt = none then
                x.stepAll f owner now bound saved
              else return saved := by
  funext owner
  rw [Execution.stepAll, heligible]
  rfl

theorem drives_stepAll (p : Peers) (x : Execution) (f : Funnel) (now : Instant) (bound : Nat)
    (r : Run) : ∃ result last,
      p.Drives r (fun owner => x.stepAll f owner now bound r) result last := by
  induction bound generalizing r with
  | zero => exact ⟨_, _, p.drives_ok r⟩
  | succ bound ih =>
    cases heligible : r.isEligible now with
    | error e =>
      unfold Execution.stepAll
      rw [heligible]
      exact ⟨_, _, drives_error r fun _ _ => rfl⟩
    | ok eligible =>
      cases eligible with
      | false =>
        unfold Execution.stepAll
        rw [heligible]
        exact ⟨_, _, p.drives_ok r⟩
      | true =>
        rw [stepAll_eligible x f bound heligible]
        obtain ⟨answer, hanswer⟩ := p.gives_attributesFor x r f
        cases answer with
        | error e =>
          have hfinish : p.Gives (finish (x.withoutAttributes r now e))
            (x.withoutAttributes r now e) := fun _ _ => rfl
          cases hfailed : x.withoutAttributes r now e with
          | error e' =>
            have hgives : p.Gives (finish (x.withoutAttributes r now e)) (.error e') :=
              hfailed ▸ hfinish
            exact ⟨_, _, .after hanswer (drives_error r hgives)⟩
          | ok failed =>
            have hgives : p.Gives (finish (x.withoutAttributes r now e)) (.ok failed) :=
              hfailed ▸ hfinish
            have hsave := p.drives_saveRun (withoutAttributes_id hfailed)
            exact ⟨_, _, .after hanswer (.after hgives hsave)⟩
        | ok attributes =>
          obtain ⟨result, hstep, hid⟩ := p.gives_step x r f now attributes
          cases result with
          | error e => exact ⟨_, _, .after hanswer (drives_error r hstep)⟩
          | ok stepped =>
            let goOn (owner : String) (saved : Run) : Activity Run :=
              if saved.status = .running ∧ saved.nextAttemptAt = none then
                x.stepAll f owner now bound saved
              else return saved
            obtain ⟨result, last, hrest⟩ : ∃ result last,
                p.Drives stepped.run (fun owner => goOn owner stepped.run) result last := by
              dsimp only [goOn]
              split
              · exact ih stepped.run
              · exact ⟨_, _, p.drives_ok stepped.run⟩
            have hsaved := hrest.save goOn (hid stepped rfl)
            exact ⟨_, _, .after hanswer (.after hstep hsaved)⟩

theorem exists_run_getFunnel {s : Stored MemoryStore} {found : Except Fault (Option Funnel)}
    {id : String} (p : Peers) (token : String)
    (h : ((MemoryStore.answer (.getFunnel id)).run s).1 = found) : ∃ s₁, s₁.data = s.data ∧
      (store (.getFunnel id)).run (p.answer token) s = (found, s₁) :=
  ⟨_, MemoryStore.answer_getFunnel_data id s, Prod.ext h rfl⟩

/-- With these peers and this definition, a run is driven alike wherever it is driven. -/
theorem exists_driven (p : Peers) (x : Execution) (now : Instant) (r : Run)
    (found : Except Fault (Option Funnel)) : ∃ result last, last.id = r.id ∧
      (∀ driven, result = .ok driven → driven.id = r.id) ∧
      ∀ owner token (s : Stored MemoryStore), s.data.runHolder r.id = some owner →
        s.data.Stores r → ((MemoryStore.answer (.getFunnel r.funnelId)).run s).1 = found →
        ∃ s', (x.drive r owner now).run (p.answer token) s = (result, s') ∧
          s'.data = s.data.putRun last := by
  cases found with
  | error e =>
    refine ⟨.error e, r, rfl, by rintro _ ⟨⟩, fun owner token s hheld hstores hfound => ?_⟩
    obtain ⟨s₁, hdata, hrun⟩ := p.exists_run_getFunnel token hfound
    rw [MemoryStore.putRun_of_stores hstores]
    exact ⟨s₁, run_bind_error hrun, hdata⟩
  | ok found =>
    cases found with
    | none =>
      refine ⟨.ok (Execution.orphan r now), r, rfl, ?_,
        fun owner token s hheld hstores hfound => ?_⟩
      · rintro _ ⟨⟩
        exact congrArg Run.Origin.id (Execution.orphan_origin r now)
      · obtain ⟨s₁, hdata, hrun⟩ := p.exists_run_getFunnel token hfound
        rw [MemoryStore.putRun_of_stores hstores]
        exact ⟨s₁, run_bind_ok hrun, hdata⟩
    | some f =>
      obtain ⟨result, last, h⟩ := p.drives_stepAll x f now (f.nodes.length + 1) r
      refine ⟨result, last, h.id_eq, h.result_id, fun owner token s hheld hstores hfound => ?_⟩
      obtain ⟨s₁, hdata, hrun⟩ := p.exists_run_getFunnel token hfound
      rw [← hdata] at hheld hstores ⊢
      exact ⟨_, (run_bind_ok hrun).trans (h.run_eq owner token s₁ hheld hstores), rfl⟩

theorem exists_released (p : Peers) (x : Execution) {s s₂ : Stored MemoryStore} {r last : Run}
    {now : Instant} {owner token : String} {driven : Except Fault Run}
    (hdrive : (x.drive r owner now).run (p.answer token) s = (driven, s₂))
    (hheld : s₂.data.runHolder r.id = some owner) (hstores : s₂.data.Stores last)
    (hid : last.id = r.id) (hdriven : ∀ r', driven = .ok r' → r'.id = r.id) : ∃ s',
      (x.executeHeld r.id now owner r).run (p.answer token) s =
        (driven.mapError (Execution.refused r.id), s') ∧
      s'.data = (s₂.data.putRun (Execution.latest last [] driven)).unlockRun r.id := by
  cases driven with
  | ok r' =>
    have hrelease := Execution.answer_releaseRun_held hheld (hdriven r' rfl)
    exact ⟨_, (run_attempt_bind hdrive).trans hrelease, rfl⟩
  | error e =>
    have hget : (store (.getRun r.id)).run (p.answer token) s₂ = (.ok (some last), s₂) := by
      rw [← hid]
      exact MemoryStore.answer_getRun hstores
    have hrelease : (store (.releaseRun last owner)).run (p.answer token) s₂ =
      (.ok last, { s₂ with data := (s₂.data.putRun last).unlockRun r.id }) :=
        Execution.answer_releaseRun_held hheld hid
    have hlatest : (Execution.releaseLatest r owner).run (p.answer token) s₂ =
        (.ok (), { s₂ with data := (s₂.data.putRun last).unlockRun r.id }) :=
      (run_bind_ok hget).trans (run_bind_ok hrelease)
    exact ⟨_, (run_attempt_bind hdrive).trans (run_bind_ok hlatest), rfl⟩

theorem exists_executed (p : Peers) (x : Execution) (now : Instant) (r : Run)
    (found : Except Fault (Option Funnel)) : ∃ result last, last.id = r.id ∧
      ∀ token (s : Stored MemoryStore), s.data.Stores r → s.data.isLocked r.id now = .ok false →
        (∀ m : MemoryStore, m.funnels = s.data.funnels →
          ((MemoryStore.answer (.getFunnel r.funnelId)).run { s with data := m }).1 = found) →
        ∃ s', (x.execute r.id (some now)).run (p.answer token) s = (result, s') ∧
          s'.data = (s.data.putRun last).unlockRun r.id := by
  obtain ⟨driven, last, hid, hdriven, hdrives⟩ := p.exists_driven x now r found
  have hlatest : (Execution.latest last [] driven).id = r.id := by
    cases driven with
    | ok r' => exact hdriven r' rfl
    | error e => exact hid
  refine ⟨driven.mapError (Execution.refused r.id), Execution.latest last [] driven, hlatest,
    fun token s hstores hfree hfound => ?_⟩
  -- the name under which the run is locked depends on the token, and nothing else does
  let owner := x.worker ++ ":" ++ token
  have htoken : Activity.token.run (p.answer token) s = (.ok token, s) := rfl
  have hacquire : (store (.acquireRun r.id owner now)).run (p.answer token) s =
      (.ok r, { s with data := s.data.lockRun r.id owner now }) := by
    have hanswer := MemoryStore.answer_acquireRun hstores owner now
    rwa [hfree] at hanswer
  obtain ⟨s₂, hdrive, hdata⟩ := hdrives owner token
    { s with data := s.data.lockRun r.id owner now } MemoryStore.runHolder_lockRun hstores
    (hfound _ rfl)
  have hheld : s₂.data.runHolder r.id = some owner := by
    rw [hdata, MemoryStore.runHolder_putRun, MemoryStore.runHolder_lockRun]
  have hstores₂ : s₂.data.Stores last := by
    rw [hdata]
    exact MemoryStore.stores_putRun
  obtain ⟨s', hrun, hdata'⟩ := p.exists_released x hdrive hheld hstores₂ hid hdriven
  refine ⟨s', ?_, ?_⟩
  · rw [Execution.execute_eq]
    exact (run_bind_ok htoken).trans ((run_bind_ok hacquire).trans hrun)
  · rw [hdata', hdata, MemoryStore.putRun_putRun (hlatest.trans hid.symm)]
    exact MemoryStore.unlockRun_putRun_lockRun

end Drives

section Executions

variable {x : Execution} {now : Instant} {fresh fresh' : String → IdSupply} {m m' : MemoryStore}
  {id : String}

/-- What an execution comes to, under some name. The argument `fresh` tells which ids an execution
gets for definitions that have none. -/
def outcome (p : Peers) (x : Execution) (now : Instant) (fresh : String → IdSupply)
    (m : MemoryStore) (id : String) : Except Fault Run :=
  ((x.execute id (some now)).run (p.answer "") ⟨fresh id, m⟩).1

def after (p : Peers) (x : Execution) (now : Instant) (fresh : String → IdSupply)
    (m : MemoryStore) (id : String) : MemoryStore :=
  ((x.execute id (some now)).run (p.answer "") ⟨fresh id, m⟩).2.data

theorem exists_last (p : Peers) (x : Execution) (fresh : String → IdSupply)
    (h : m.IsFree now id) : ∃ last : Run, last.id = id ∧
      ∀ (token : String) (fresh' : String → IdSupply) (m' : MemoryStore), m.IsAlikeAt id m' →
        (fresh' id = fresh id ∨ m.KnowsIds) →
        ∃ s', (x.execute id (some now)).run (p.answer token) ⟨fresh' id, m'⟩ =
            (p.outcome x now fresh m id, s') ∧
          s'.data = (m'.putRun last).unlockRun id := by
  obtain ⟨r, rfl, hstores, hfree⟩ := h
  obtain ⟨result, last, hid, h⟩ := p.exists_executed x now r
    ((MemoryStore.answer (.getFunnel r.funnelId)).run ⟨fresh r.id, m⟩).1
  have hexecuted (token : String) (fresh' : String → IdSupply) (m' : MemoryStore)
      (halike : m.IsAlikeAt r.id m') (hfresh : fresh' r.id = fresh r.id ∨ m.KnowsIds) :
      ∃ s', (x.execute r.id (some now)).run (p.answer token) ⟨fresh' r.id, m'⟩ = (result, s') ∧
        s'.data = (m'.putRun last).unlockRun r.id := by
    have hfree' : m'.isLocked r.id now = .ok false := by
      rwa [MemoryStore.isLocked, halike.lock, halike.ttl]
    refine h token ⟨fresh' r.id, m'⟩ (hstores.congr halike.run) hfree' fun m'' hfunnels => ?_
    exact MemoryStore.fst_getFunnel_congr (s := ⟨fresh r.id, m⟩)
      (hfunnels.trans halike.funnels) hfresh r.funnelId
  obtain ⟨s₀, hrun, _⟩ := hexecuted "" fresh m (.refl _ m) (.inl rfl)
  have hresult : p.outcome x now fresh m r.id = result := congrArg Prod.fst hrun
  rw [hresult]
  exact ⟨last, hid, hexecuted⟩

theorem outcome_of_alike (h : m.IsFree now id) (halike : m.IsAlikeAt id m') :
    p.outcome x now fresh m' id = p.outcome x now fresh m id := by
  obtain ⟨last, _, hexecuted⟩ := p.exists_last x fresh h
  obtain ⟨s', hrun, _⟩ := hexecuted "" fresh m' halike (.inl rfl)
  have hresult : p.outcome x now fresh m' id = _ := congrArg Prod.fst hrun
  exact hresult

theorem exists_after (p : Peers) (x : Execution) (fresh : String → IdSupply)
    (h : m.IsFree now id) : ∃ last : Run, last.id = id ∧ ∀ m', m.IsAlikeAt id m' →
      p.after x now fresh m' id = (m'.putRun last).unlockRun last.id := by
  obtain ⟨last, rfl, hexecuted⟩ := p.exists_last x fresh h
  refine ⟨last, rfl, fun m' halike => ?_⟩
  obtain ⟨s', hrun, hdata⟩ := hexecuted "" fresh m' halike (.inl rfl)
  rw [after, hrun, hdata]

theorem alikeAt_after (h : m.IsFree now id) {other : String} (hne : other ≠ id) :
    m.IsAlikeAt other (p.after x now fresh m id) := by
  obtain ⟨last, rfl, hafter⟩ := p.exists_after x fresh h
  rw [hafter m (.refl _ m)]
  exact (m.releases_unlockRun last).isAlikeAt hne

theorem knowsIds_after (h : m.IsFree now id) (hknown : m.KnowsIds) :
    (p.after x now fresh m id).KnowsIds := by
  obtain ⟨last, rfl, hafter⟩ := p.exists_after x fresh h
  rw [hafter m (.refl _ m)]
  exact hknown

theorem after_comm {other : String} (h : m.IsFree now id) (hother : m.IsFree now other)
    (hne : other ≠ id) : p.after x now fresh (p.after x now fresh m id) other =
      p.after x now fresh (p.after x now fresh m other) id := by
  obtain ⟨last, hid, hafter⟩ := p.exists_after x fresh h
  obtain ⟨last', hid', hafter'⟩ := p.exists_after x fresh hother
  rw [hafter' _ (alikeAt_after h hne), hafter _ (alikeAt_after hother hne.symm),
    hafter m (.refl _ m), hafter' m (.refl _ m)]
  refine MemoryStore.putRun_unlockRun_comm ?_ ?_
  · rwa [hid, hid']
  · rw [hid]
    exact h.run_ne_none

theorem foldl_after_perm {ids ids' : List String} (hperm : ids.Perm ids') (hids : ids.Nodup)
    (hfree : ∀ id ∈ ids, m.IsFree now id) :
    ids.foldl (p.after x now fresh) m = ids'.foldl (p.after x now fresh) m := by
  induction hperm generalizing m with
  | nil => rfl
  | @cons id ids ids' _ ih =>
    obtain ⟨hid, hids⟩ := List.nodup_cons.mp hids
    obtain ⟨hfirst, hrest⟩ := List.forall_mem_cons.mp hfree
    refine ih hids fun id' hid' => ?_
    exact (hrest id' hid').congr (alikeAt_after hfirst (ne_of_mem_of_not_mem hid' hid))
  | swap id id' ids =>
    have hne : id ≠ id' := fun h => (List.nodup_cons.mp hids).1 (h ▸ List.mem_cons_self)
    simp only [List.foldl_cons]
    rw [after_comm (hfree id' (by simp)) (hfree id (by simp)) hne]
  | trans hfirst _ ih ih' =>
    refine (ih hids hfree).trans (ih' (hfirst.nodup_iff.mp hids) fun id hid => ?_)
    exact hfree id (hfirst.mem_iff.mpr hid)

inductive Executes (p : Peers) (x : Execution) (now : Instant) (fresh : String → IdSupply) :
    List String → MemoryStore → List (Except Fault Run) → MemoryStore → Prop
  | nil (m : MemoryStore) : Executes p x now fresh [] m [] m
  | cons {id : String} {ids : List String} {m m' : MemoryStore} {s : Stored MemoryStore}
    {result : Except Fault Run} {results : List (Except Fault Run)} (token : String)
    (hrun : (x.execute id (some now)).run (p.answer token) ⟨fresh id, m⟩ = (result, s))
    (hrest : Executes p x now fresh ids s.data results m') :
    Executes p x now fresh (id :: ids) m (result :: results) m'

theorem exists_executes (p : Peers) (x : Execution) (now : Instant) (fresh : String → IdSupply)
    (ids : List String) (m : MemoryStore) :
    ∃ results m', p.Executes x now fresh ids m results m' := by
  induction ids generalizing m with
  | nil => exact ⟨[], m, .nil m⟩
  | cons id ids ih =>
    obtain ⟨results, m', hrest⟩ := ih (p.after x now fresh m id)
    exact ⟨_, m', .cons "" rfl hrest⟩

theorem Executes.eq {ids : List String} {results : List (Except Fault Run)}
    (h : p.Executes x now fresh' ids m results m') (hids : ids.Nodup)
    (hfree : ∀ id ∈ ids, m.IsFree now id)
    (hfresh : (∀ id ∈ ids, fresh' id = fresh id) ∨ m.KnowsIds) :
    results = ids.map (p.outcome x now fresh m) ∧ m' = ids.foldl (p.after x now fresh) m := by
  induction h with
  | nil m => exact ⟨rfl, rfl⟩
  | @cons id ids m m' s result results token hrun _ ih =>
    obtain ⟨hid, hids⟩ := List.nodup_cons.mp hids
    obtain ⟨hfirst, hrest⟩ := List.forall_mem_cons.mp hfree
    obtain ⟨last, _, hexecuted⟩ := p.exists_last x fresh hfirst
    obtain ⟨s₁, hrun₁, hdata₁⟩ := hexecuted token fresh' m (.refl id m)
      (hfresh.imp_left fun h => h id List.mem_cons_self)
    obtain ⟨s₂, hrun₂, hdata₂⟩ := hexecuted "" fresh m (.refl id m) (.inl rfl)
    obtain ⟨rfl, rfl⟩ := Prod.mk.inj (hrun.symm.trans hrun₁)
    have hafter : s.data = p.after x now fresh m id := by
      rw [after, hrun₂, hdata₁, hdata₂]
    have halike (id' : String) (hid' : id' ∈ ids) : m.IsAlikeAt id' s.data :=
      hafter ▸ alikeAt_after hfirst (ne_of_mem_of_not_mem hid' hid)
    obtain ⟨rfl, rfl⟩ := ih hids (fun id' hid' => (hrest id' hid').congr (halike id' hid'))
      (hfresh.imp (fun h id' hid' => h id' (List.mem_cons_of_mem _ hid'))
        (hafter ▸ knowsIds_after hfirst))
    rw [List.map_cons, List.foldl_cons, ← hafter]
    refine ⟨congrArg _ (List.map_congr_left fun id' hid' => ?_), rfl⟩
    exact outcome_of_alike (hrest id' hid') (halike id' hid')

/-- Each run comes to the same result, and the store to the same end, in whatever order runs are
executed that are not locked, and under whatever names. The ids that are given out on the way do not
matter either, unless a definition has none. -/
theorem order_does_not_matter (p : Peers) (x : Execution) (now : Instant)
    (fresh : String → IdSupply) {ids : List String} (hids : ids.Nodup)
    (hfree : ∀ id ∈ ids, m.IsFree now id) :
    ∃ (outcome : String → Except Fault Run) (final : MemoryStore),
      ∀ (order : List String) (fresh' : String → IdSupply), order.Perm ids →
        (∀ id ∈ ids, fresh' id = fresh id) ∨ m.KnowsIds →
        (∃ results m', p.Executes x now fresh' order m results m') ∧
        ∀ results m', p.Executes x now fresh' order m results m' →
          results = order.map outcome ∧ m' = final := by
  refine ⟨p.outcome x now fresh m, ids.foldl (p.after x now fresh) m,
    fun order fresh' hperm hfresh => ⟨p.exists_executes x now fresh' order m,
      fun results m' hexecutes => ?_⟩⟩
  have hfree' : ∀ id ∈ order, m.IsFree now id := fun id hid => hfree id (hperm.mem_iff.mp hid)
  obtain ⟨hresults, hfinal⟩ := hexecutes.eq (hperm.nodup_iff.mpr hids) hfree'
    (hfresh.imp_left fun h id hid => h id (hperm.mem_iff.mp hid))
  exact ⟨hresults, hfinal.trans (foldl_after_perm hperm (hperm.nodup_iff.mpr hids) hfree')⟩

end Executions

end Peers

namespace Service

def obligingPeers : Peers := ⟨fun _ _ => .answer 200 "", fun _ => .answer 404 ""⟩

theorem pair_free : ∀ id ∈ ["first", "second"], (pair 24).data.IsFree ⟨0, none⟩ id := by
  intro id hid
  rcases List.mem_pair.mp hid with rfl | rfl
  · exact ⟨newcomer 24 "first", rfl, rfl, rfl⟩
  · exact ⟨newcomer 24 "second", rfl, rfl, rfl⟩

theorem pair_knowsIds : (pair 24).data.KnowsIds := by
  apply MemoryStore.IsFiled.knowsIds
  intro id document hdocument
  obtain ⟨⟩ := List.mem_singleton.mp (Table.mem_of_get? hdocument)
  exact ⟨by decide, stamped (reminder 24), rfl, rfl⟩

/-- The two runs are executed in both orders, under different names. -/
theorem pair_order_does_not_matter :
    (∀ id ∈ ["first", "second"], (pair 24).data.IsFree ⟨0, none⟩ id) ∧ (pair 24).data.KnowsIds ∧
    ∃ (first second : Except Fault Run) (final : MemoryStore),
      obligingPeers.Executes worker ⟨0, none⟩ (fun _ => .first) ["first", "second"] (pair 24).data
        [first, second] final ∧
      obligingPeers.Executes worker ⟨0, none⟩ (fun _ => ⟨7, 7⟩) ["second", "first"] (pair 24).data
        [second, first] final := by
  obtain ⟨outcome, final, h⟩ := obligingPeers.order_does_not_matter worker ⟨0, none⟩
    (fun _ => .first) (by decide) pair_free
  refine ⟨pair_free, pair_knowsIds, outcome "first", outcome "second", final, ?_, ?_⟩
  · obtain ⟨⟨results, m', hexecutes⟩, hsame⟩ := h ["first", "second"] (fun _ => .first) (.refl _)
      (.inr pair_knowsIds)
    obtain ⟨rfl, rfl⟩ := hsame results m' hexecutes
    exact hexecutes
  · obtain ⟨⟨results, m', hexecutes⟩, hsame⟩ := h ["second", "first"] (fun _ => ⟨7, 7⟩)
      (.swap _ _ _) (.inr pair_knowsIds)
    obtain ⟨rfl, rfl⟩ := hsame results m' hexecutes
    exact hexecutes

end Service

end FunnelFlow
