import FunnelFlow.Proofs.Service.Taking

namespace FunnelFlow

open Activity

namespace Execution

variable {x : Execution} {f : Funnel} {owner : String} {now : Instant} {r r' : Run}
  {s s' : Stored MemoryStore} {log : Log} {result : Except Fault Run}

section StepAll

variable {bound : Nat}

theorem answer_saveRun_held {written : Run} (hheld : s.data.runHolder r.id = some owner)
    (hid : written.id = r.id) : (MemoryStore.answer (.saveRun written owner)).run s =
      (.ok written, { s with data := s.data.putRun written }) := by
  rw [MemoryStore.answer_saveRun, if_pos (hid ▸ hheld)]

/-- What is left of the loop once a step was taken: the run is saved, and goes on if it can. -/
def Continues (x : Execution) (f : Funnel) (owner : String) (now : Instant) (bound : Nat)
    (s : Stored MemoryStore) (taken : Run) (log : Log) (result : Except Fault Run)
    (s' : Stored MemoryStore) : Prop :=
  ∃ rest, log = ⟨.store (.saveRun taken owner), .ok taken⟩ :: rest ∧
    (taken.GoesOn ∧ (x.stepAll f owner now bound taken).Logged
        { s with data := s.data.putRun taken } rest result s' ∨
      ¬ taken.GoesOn ∧ rest = [] ∧ result = .ok taken ∧
        s' = { s with data := s.data.putRun taken })

def Fails (now : Instant) (r : Run) (s : Stored MemoryStore) (log : Log)
    (result : Except Fault Run) (s' : Stored MemoryStore) : Prop :=
  (∃ e, result = .error e) ∧ s' = s ∧ log.saved = [] ∧
    (log.outbound ≠ [] → r.isEligible now = .ok true)

section

variable (hheld : s.data.runHolder r.id = some owner) (heligible : r.isEligible now = .ok true)
  {read : Log} (hread : read.saved = [])
include hheld heligible hread

theorem unread_logged (bound : Nat) {e : Fault}
    (htakes : ∀ failed, (r.resume now).failAttempt x.policy now .transient
        ("Contact attributes unavailable: " ++ e.message) = .ok failed → x.Takes f now r read failed)
    (h : (finish (x.withoutAttributes r now e) >>= fun failed =>
      store (.saveRun failed owner)).Logged s log result s') :
    Fails now r s (read ++ log) result s' ∨
      ∃ taken, x.Takes f now r read taken ∧ x.Continues f owner now bound s taken log result s' := by
  rcases h.of_finish_bind with ⟨failed, hfailed, h⟩ | ⟨e', _, rfl, rfl, rfl⟩
  · obtain ⟨eligible, hagain, hfail⟩ := except_bind_eq_ok_iff.mp hfailed
    obtain rfl : true = eligible := Except.ok.inj (heligible.symm.trans hagain)
    have htaken := htakes failed hfail
    obtain ⟨rfl, hsave⟩ := h.of_store
    rw [answer_saveRun_held hheld htaken.id_eq] at hsave
    obtain ⟨rfl, rfl⟩ := Prod.mk.inj hsave
    refine .inr ⟨failed, htaken, [], rfl, .inr ⟨?_, rfl, rfl, rfl⟩⟩
    exact Run.not_goesOn_of_failAttempt hfail
  · exact .inl ⟨⟨_, rfl⟩, rfl, by simpa using hread, fun _ => heligible⟩

theorem step_save_logged {attributes : Fields} {next : Run → Activity Run}
    (htakes : ∀ move asked s₀ taken, r.move f now attributes = .ok move →
      x.Settles now s₀ asked taken move → x.Takes f now r (read ++ asked) taken)
    (h : (x.step r f now attributes >>= fun stepped =>
      (store (.saveRun stepped.run owner) : Activity Run) >>= next).Logged s log result s') :
    Fails now r s (read ++ log) result s' ∨
      ∃ taken asked rest, x.Takes f now r (read ++ asked) taken ∧
        log = asked ++ ⟨.store (.saveRun taken owner), .ok taken⟩ :: rest ∧
        (next taken).Logged { s with data := s.data.putRun taken } rest result s' := by
  rcases h.of_bind with ⟨e, hstep, rfl⟩ | ⟨stepped, s₁, log₁, log₂, hstep, hsave, rfl⟩
  · obtain ⟨rfl, hsaved, _⟩ := step_logged hstep
    exact .inl ⟨⟨e, rfl⟩, rfl, by simp [hread, hsaved], fun _ => heligible⟩
  · obtain ⟨rfl, hsaved, hsettles⟩ := step_logged hstep
    obtain ⟨move, hmove, hsettles⟩ := hsettles stepped rfl
    have htaken := htakes move log₁ s₁ stepped.run hmove hsettles
    obtain ⟨rest, rfl, hnext⟩ := hsave.of_store_bind (answer_saveRun_held hheld htaken.id_eq)
    exact .inr ⟨stepped.run, log₁, rest, htaken, rfl, hnext⟩

end

theorem continues_of_logged {taken : Run} {rest : Log}
    (h : (if taken.status = .running ∧ taken.nextAttemptAt = none then
      stepAll x f owner now bound taken else return taken).Logged
        { s with data := s.data.putRun taken } rest result s') :
    x.Continues f owner now bound s taken (⟨.store (.saveRun taken owner), .ok taken⟩ :: rest)
      result s' := by
  refine ⟨rest, rfl, ?_⟩
  split at h
  · next hgoes => exact .inl ⟨hgoes, h⟩
  · next hgoes =>
    obtain ⟨rfl, rfl, rfl⟩ := h.of_pure
    exact .inr ⟨hgoes, rfl, rfl, rfl⟩

/-- The loop does nothing if the run is not eligible; else a step fails, or it is saved. -/
theorem stepAll_succ_logged (hheld : s.data.runHolder r.id = some owner)
    (h : (x.stepAll f owner now (bound + 1) r).Logged s log result s') :
    (r.isEligible now = .ok false ∧ log = [] ∧ result = .ok r ∧ s' = s) ∨
      Fails now r s log result s' ∨
      ∃ taken asked rest, r.isEligible now = .ok true ∧ x.Takes f now r asked taken ∧
        log = asked ++ rest ∧ x.Continues f owner now bound s taken rest result s' := by
  unfold stepAll at h
  rcases h.of_finish_bind with ⟨eligible, heligible, h⟩ | ⟨e, _, rfl, rfl, rfl⟩
  swap
  · exact .inr (.inl ⟨⟨e, rfl⟩, rfl, rfl, fun hcalls => absurd rfl hcalls⟩)
  cases eligible with
  | false =>
    obtain ⟨rfl, rfl, rfl⟩ := h.of_pure
    exact .inl ⟨heligible, rfl, rfl, rfl⟩
  | true =>
    right
    rcases h.of_bind with ⟨e, hfor, _⟩ | ⟨answer, s₁, read, log, hfor, hnext, rfl⟩
    · obtain ⟨_, _, ⟨_, _, _, _, _, hfault⟩ | ⟨_, _, hfault⟩⟩ := attributesFor_logged hfor
      · cases hfault
      · cases hfault
    · obtain ⟨rfl, hsaved, ⟨n, hn, hkind, entries?, hread, hanswer⟩ | ⟨hcondition, rfl, hanswer⟩⟩ :=
        attributesFor_logged hfor
      · obtain rfl := Except.ok.inj hanswer
        cases entries? with
        | error e =>
          rcases unread_logged hheld heligible hsaved bound
            (fun failed hfail => .unread hn hkind hread hfail) hnext with
            hfails | ⟨taken, htaken, hcontinues⟩
          · exact .inl hfails
          · exact .inr ⟨taken, read, log, heligible, htaken, rfl, hcontinues⟩
        | ok entries =>
          rcases step_save_logged hheld heligible hsaved
            (fun move asked s₀ taken hmove hsettles =>
              takes_of_branch heligible hn hkind hread hmove hsettles) hnext with
            hfails | ⟨taken, asked, rest, htaken, rfl, hafter⟩
          · exact .inl hfails
          · rw [← List.append_assoc]
            exact .inr ⟨taken, _, _, heligible, htaken, rfl, continues_of_logged hafter⟩
      · obtain rfl := Except.ok.inj hanswer
        rcases step_save_logged hheld heligible hsaved
          (fun move asked s₀ taken hmove hsettles =>
            takes_of_step heligible hcondition hmove hsettles) hnext with
          hfails | ⟨taken, asked, rest, htaken, rfl, hafter⟩
        · exact .inl hfails
        · exact .inr ⟨taken, _, _, heligible, htaken, rfl, continues_of_logged hafter⟩

end StepAll

/-- Steps one after the other, each of which is saved. The next one is taken if the run goes on. -/
inductive Stages (x : Execution) (f : Funnel) (owner : String) (now : Instant) :
    Run → Log → List Run → Prop
  | nil (r : Run) : Stages x f owner now r [] []
  | cons {r taken : Run} {asked rest : Log} {runs : List Run}
    (heligible : r.isEligible now = .ok true) (htakes : x.Takes f now r asked taken)
    (hgoes : runs ≠ [] → taken.GoesOn) (hrest : Stages x f owner now taken rest runs) :
    Stages x f owner now r (asked ++ ⟨.store (.saveRun taken owner), .ok taken⟩ :: rest)
      (taken :: runs)

namespace Stages

variable {runs : List Run}

theorem saved_eq (h : x.Stages f owner now r log runs) : log.saved = runs := by
  induction h with
  | nil r => rfl
  | @cons r taken asked rest runs _ htakes _ _ ih =>
    have hsave : Log.saved (⟨.store (.saveRun taken owner), .ok taken⟩ :: rest) =
        taken :: Log.saved rest := rfl
    rw [Log.saved_append, htakes.saved_eq, hsave, ih, List.nil_append]

theorem origin_eq (h : x.Stages f owner now r log runs) :
    (runs.getLastD r).origin = r.origin := by
  induction h with
  | nil r => rfl
  | cons _ htakes _ _ ih => rw [List.getLastD_cons, ih, htakes.origin_eq]

theorem id_eq (h : x.Stages f owner now r log runs) : (runs.getLastD r).id = r.id :=
  congrArg Run.Origin.id h.origin_eq

section Tail

variable {tail : Log} (htail : tail.outbound ≠ [] → (runs.getLastD r).isEligible now = .ok true)
include htail

theorem isEligible_of_outbound (h : x.Stages f owner now r log runs)
    (hcalls : Log.outbound (log ++ tail) ≠ []) : r.isEligible now = .ok true := by
  cases h with
  | nil => exact htail hcalls
  | cons heligible => exact heligible

theorem isEligible_of_saved (h : x.Stages f owner now r log runs) (hsaved : tail.saved = [])
    {before after : Log} {written : LogEntry} {taken : Run} (hwritten : written.saved? = some taken)
    (hlog : log ++ tail = before ++ written :: after) (hcalls : after.outbound ≠ []) :
    taken.isEligible now = .ok true := by
  induction h generalizing before with
  | nil r =>
    obtain rfl : tail = before ++ written :: after := hlog
    simp [Log.saved, hwritten] at hsaved
  | @cons r next asked rest runs _ htakes _ hrest ih =>
    rw [List.getLastD_cons] at htail
    rw [List.append_assoc] at hlog
    obtain ⟨before', _, hlog⟩ := Log.exists_of_append htakes.saved_eq hwritten hlog
    -- the step itself writes nothing, so this is its own write or one of the steps after it
    cases before' with
    | nil =>
      obtain ⟨rfl, rfl⟩ := List.cons.inj hlog
      obtain rfl : next = taken := Option.some.inj hwritten
      exact hrest.isEligible_of_outbound htail hcalls
    | cons =>
      obtain ⟨_, hlog⟩ := List.cons.inj hlog
      exact ih htail hlog

end Tail

end Stages

/-- Why the loop of steps is over: the last run is not to be stepped, or it does not go on, or
there is no step left; or else a step failed. -/
def Stops (now : Instant) (bound : Nat) (runs : List Run) (last : Run) (failed : Log) :
    Except Fault Run → Prop
  | .ok r' => r' = last ∧ failed = [] ∧
      (last.isEligible now = .ok false ∨ runs ≠ [] ∧ ¬ last.GoesOn ∨ runs.length = bound)
  | .error _ => failed.saved = [] ∧ (failed.outbound ≠ [] → last.isEligible now = .ok true)

theorem Stops.cons {bound : Nat} {runs : List Run} {last taken : Run} {failed : Log}
    (h : Stops now bound runs last failed result) :
    Stops now (bound + 1) (taken :: runs) last failed result := by
  cases result with
  | error e => exact h
  | ok r' =>
    obtain ⟨hlast, hfailed, hidle | hrests | hlength⟩ := h
    · exact ⟨hlast, hfailed, .inl hidle⟩
    · exact ⟨hlast, hfailed, .inr (.inl ⟨by simp, hrests.2⟩)⟩
    · exact ⟨hlast, hfailed, .inr (.inr (by simp [hlength]))⟩

theorem Stops.failed_spec {bound : Nat} {runs : List Run} {last : Run} {failed : Log}
    (h : Stops now bound runs last failed result) :
    failed.saved = [] ∧ (failed.outbound ≠ [] → last.isEligible now = .ok true) := by
  cases result with
  | error e => exact h
  | ok r' =>
    obtain ⟨_, rfl, _⟩ := h
    exact ⟨rfl, fun hcalls => absurd rfl hcalls⟩

theorem stepAll_logged {bound : Nat} (hheld : s.data.runHolder r.id = some owner)
    (hstores : s.data.Stores r) (h : (x.stepAll f owner now bound r).Logged s log result s') :
    ∃ done runs failed, x.Stages f owner now r done runs ∧ log = done ++ failed ∧
      s'.data = s.data.putRun (runs.getLastD r) ∧
      Stops now bound runs (runs.getLastD r) failed result := by
  induction bound generalizing r s log with
  | zero =>
    obtain ⟨rfl, rfl, rfl⟩ := h.of_pure
    refine ⟨[], [], [], .nil r, rfl, ?_, rfl, rfl, .inr (.inr rfl)⟩
    exact (MemoryStore.putRun_of_stores hstores).symm
  | succ bound ih =>
    rcases stepAll_succ_logged hheld h with ⟨hidle, rfl, rfl, rfl⟩ |
      ⟨⟨e, rfl⟩, rfl, hsaved, hcalls⟩ | ⟨taken, asked, rest, heligible, htakes, rfl, hcontinues⟩
    · refine ⟨[], [], [], .nil r, rfl, ?_, rfl, rfl, .inl hidle⟩
      exact (MemoryStore.putRun_of_stores hstores).symm
    · refine ⟨[], [], log, .nil r, rfl, ?_, hsaved, hcalls⟩
      exact (MemoryStore.putRun_of_stores hstores).symm
    · obtain ⟨rest, rfl, ⟨hgoes, h⟩ | ⟨hrests, rfl, rfl, rfl⟩⟩ := hcontinues
      · -- the rest of the loop begins in a store that holds the run as the step left it
        have hheld' : (s.data.putRun taken).runHolder taken.id = some owner := by
          rw [MemoryStore.runHolder_putRun, htakes.id_eq, hheld]
        obtain ⟨done, runs, failed, hstages, rfl, hdata, hstops⟩ :=
          ih (s := { s with data := s.data.putRun taken }) hheld' MemoryStore.stores_putRun h
        refine ⟨_, taken :: runs, failed, .cons heligible htakes (fun _ => hgoes) hstages,
          by simp, ?_⟩
        rw [List.getLastD_cons]
        refine ⟨?_, hstops.cons⟩
        rw [hdata, MemoryStore.putRun_putRun hstages.id_eq]
      · exact ⟨_, [taken], [], .cons heligible htakes (fun h => absurd rfl h) (.nil taken),
          by simp, rfl, rfl, rfl, .inr (.inl ⟨by simp, hrests⟩)⟩

/-- What becomes of a run under its lock, given the definition that was found. -/
inductive Course (x : Execution) (owner : String) (now : Instant) (r : Run) :
    Except Fault (Option Funnel) → Log → List Run → Except Fault Run → Prop
  | unread (e : Fault) : Course x owner now r (.error e) [] [] (.error e)
  | orphaned : Course x owner now r (.ok none) [] [] (.ok (orphan r now))
  | stepped {f : Funnel} {done failed : Log} {runs : List Run} {result : Except Fault Run}
    (hstages : x.Stages f owner now r done runs)
    (hstops : Stops now (f.nodes.length + 1) runs (runs.getLastD r) failed result) :
    Course x owner now r (.ok (some f)) (done ++ failed) runs result

/-- The run as it is given back: what the loop ended with, or what was saved last. -/
def latest (r : Run) (runs : List Run) : Except Fault Run → Run
  | .ok r' => r'
  | .error _ => runs.getLastD r

theorem Stops.latest_eq {bound : Nat} {runs : List Run} {failed : Log}
    (h : Stops now bound runs (runs.getLastD r) failed result) :
    latest r runs result = runs.getLastD r := by
  cases result with
  | ok r' => exact h.1
  | error e => rfl

namespace Course

variable {found : Except Fault (Option Funnel)} {runs : List Run}

theorem saved_eq (h : x.Course owner now r found log runs result) : log.saved = runs := by
  cases h with
  | unread e => rfl
  | orphaned => rfl
  | stepped hstages hstops =>
    rw [Log.saved_append, hstages.saved_eq, hstops.failed_spec.1, List.append_nil]

theorem isEligible_of_outbound (h : x.Course owner now r found log runs result)
    (hcalls : log.outbound ≠ []) : r.isEligible now = .ok true := by
  cases h with
  | unread e => exact absurd rfl hcalls
  | orphaned => exact absurd rfl hcalls
  | stepped hstages hstops => exact hstages.isEligible_of_outbound hstops.failed_spec.2 hcalls

theorem last_origin (h : x.Course owner now r found log runs result) :
    (runs.getLastD r).origin = r.origin := by
  cases h with
  | unread e => rfl
  | orphaned => rfl
  | stepped hstages _ => exact hstages.origin_eq

theorem latest_origin (h : x.Course owner now r found log runs result) :
    (latest r runs result).origin = r.origin := by
  cases h with
  | unread e => rfl
  | orphaned => exact orphan_origin r now
  | stepped hstages hstops =>
    rw [hstops.latest_eq]
    exact hstages.origin_eq

theorem last_id (h : x.Course owner now r found log runs result) :
    (runs.getLastD r).id = r.id :=
  congrArg Run.Origin.id h.last_origin

theorem latest_id (h : x.Course owner now r found log runs result) :
    (latest r runs result).id = r.id :=
  congrArg Run.Origin.id h.latest_origin

end Course

theorem drive_logged (hheld : s.data.runHolder r.id = some owner) (hstores : s.data.Stores r)
    (h : (x.drive r owner now).Logged s log result s') :
    ∃ found work runs, ((MemoryStore.answer (.getFunnel r.funnelId)).run s).1 = found ∧
      log = ⟨.store (.getFunnel r.funnelId), found⟩ :: work ∧
      x.Course owner now r found work runs result ∧
      s'.data = s.data.putRun (runs.getLastD r) := by
  unfold drive at h
  have hdata := MemoryStore.answer_getFunnel_data r.funnelId s
  rcases hanswer : (MemoryStore.answer (.getFunnel r.funnelId)).run s with ⟨found, s₁⟩
  rw [hanswer] at hdata
  cases found with
  | error e =>
    obtain ⟨rfl, rfl, rfl⟩ := h.of_store_bind_error hanswer
    exact ⟨_, [], [], rfl, rfl, .unread e, hdata.trans (MemoryStore.putRun_of_stores hstores).symm⟩
  | ok found =>
    obtain ⟨rest, rfl, hrest⟩ := h.of_store_bind hanswer
    cases found with
    | none =>
      obtain ⟨rfl, rfl, rfl⟩ := hrest.of_pure
      exact ⟨_, [], [], rfl, rfl, .orphaned,
        hdata.trans (MemoryStore.putRun_of_stores hstores).symm⟩
    | some f =>
      have hheld' : s₁.data.runHolder r.id = some owner := by rw [hdata, hheld]
      have hstores' : s₁.data.Stores r := by rwa [hdata]
      obtain ⟨done, runs, failed, hstages, rfl, hdata', hstops⟩ :=
        stepAll_logged hheld' hstores' hrest
      exact ⟨_, _, runs, rfl, rfl, .stepped hstages hstops, by rw [hdata', hdata]⟩

def refused (id : String) (e : Fault) : Fault :=
  if e.isRefusal then e else .failedWhile (.executingRun id) e

theorem refused_isRefusal (id : String) (e : Fault) : (refused id e).isRefusal = true := by
  unfold refused
  split
  · assumption
  · rfl

theorem answer_releaseRun_held {written : Run} (hheld : s.data.runHolder r.id = some owner)
    (hid : written.id = r.id) : (MemoryStore.answer (.releaseRun written owner)).run s =
      (.ok written, { s with data := (s.data.putRun written).unlockRun r.id }) := by
  rw [MemoryStore.answer_releaseRun, if_pos (hid ▸ hheld), hid]

/-- Nothing was asked of a peer, saved or looked up. -/
def Closes (log : Log) : Prop :=
  log.outbound = [] ∧ log.saved = [] ∧ log.definition? = none

theorem releaseLatest_logged {last : Run} {released : Except Fault Unit}
    (hheld : s.data.runHolder r.id = some owner) (hstores : s.data.Stores last)
    (hid : last.id = r.id) (h : (releaseLatest r owner).Logged s log released s') :
    released = .ok () ∧ Closes log ∧ s'.data = s.data.unlockRun r.id := by
  have hget : (MemoryStore.answer (.getRun r.id)).run s = (.ok (some last), s) := by
    rw [← hid]
    exact MemoryStore.answer_getRun hstores
  unfold releaseLatest at h
  obtain ⟨rest, rfl, hrelease⟩ := h.of_store_bind hget
  obtain ⟨rest', rfl, hdone⟩ := hrelease.of_store_bind (answer_releaseRun_held hheld hid)
  obtain ⟨rfl, rfl, rfl⟩ := hdone.of_pure
  refine ⟨rfl, ⟨rfl, rfl, rfl⟩, ?_⟩
  have hsame : s.data.putRun last = s.data := MemoryStore.putRun_of_stores hstores
  exact congrArg (MemoryStore.unlockRun · r.id) hsame

theorem executeHeld_logged (hheld : s.data.runHolder r.id = some owner)
    (hstores : s.data.Stores r) (h : (x.executeHeld r.id now owner r).Logged s log result s') :
    ∃ found work closing runs driven,
      ((MemoryStore.answer (.getFunnel r.funnelId)).run s).1 = found ∧
      x.Course owner now r found work runs driven ∧
      log = ⟨.store (.getFunnel r.funnelId), found⟩ :: (work ++ closing) ∧ Closes closing ∧
      result = driven.mapError (refused r.id) ∧
      s'.data = (s.data.putRun (latest r runs driven)).unlockRun r.id := by
  unfold executeHeld at h
  obtain ⟨driven, s₁, log₁, log₂, hdrive, hclose, rfl⟩ := h.of_attempt_bind
  obtain ⟨found, work, runs, hfound, rfl, hcourse, hdata⟩ := drive_logged hheld hstores hdrive
  have hheld' : s₁.data.runHolder r.id = some owner := by
    rw [hdata, MemoryStore.runHolder_putRun, hheld]
  refine ⟨found, work, log₂, runs, driven, hfound, hcourse, rfl, ?_⟩
  cases driven with
  | ok r' =>
    have hid : r'.id = r.id := hcourse.latest_id
    obtain ⟨rfl, hrelease⟩ := hclose.of_store
    have hanswer := (answer_releaseRun_held hheld' hid).symm.trans hrelease
    obtain ⟨rfl, rfl⟩ := Prod.mk.inj hanswer
    refine ⟨⟨rfl, rfl, rfl⟩, rfl, ?_⟩
    have hwritten : s₁.data.putRun r' = s.data.putRun r' := by
      rw [hdata, MemoryStore.putRun_putRun (hid.trans hcourse.last_id.symm)]
    exact congrArg (MemoryStore.unlockRun · r.id) hwritten
  | error e =>
    -- what is written back is the run that was saved last, not the one that the lock was taken for
    have hstores' : s₁.data.Stores (runs.getLastD r) := by
      rw [hdata]
      exact MemoryStore.stores_putRun
    rcases hclose.of_bind with ⟨e', hrelease, _⟩ | ⟨_, s₂, log₁, log₂, hrelease, hthrow, rfl⟩
    · obtain ⟨hfault, _⟩ := releaseLatest_logged hheld' hstores' hcourse.last_id hrelease
      cases hfault
    · obtain ⟨_, hcloses, hdata'⟩ := releaseLatest_logged hheld' hstores' hcourse.last_id hrelease
      obtain ⟨rfl, rfl, rfl⟩ := hthrow.of_finish
      rw [List.append_nil]
      exact ⟨hcloses, rfl, by rw [hdata', hdata]; rfl⟩

/-- An execution that found its run unlocked: the definition that it found, what it did between the
look-up and the release, the runs that it saved, and what the loop of steps came to. -/
structure Executed (x : Execution) (now : Instant) (r : Run) (s : Stored MemoryStore) (log : Log)
    (result : Except Fault Run) (s' : Stored MemoryStore) (found : Except Fault (Option Funnel))
    (work : Log) (runs : List Run) (driven : Except Fault Run) : Prop where
  course : ∃ owner, x.Course owner now r found work runs driven
  /-- What comes before the work and after it asks no peer and saves nothing. -/
  spans : ∃ front closing, log = front ++ (work ++ closing) ∧ front.outbound = [] ∧
    front.saved = [] ∧ Closes closing
  definition : log.definition? = found.toOption.join
  reads : ∃ s₁ : Stored MemoryStore, s₁.data.funnels = s.data.funnels ∧
    ((MemoryStore.answer (.getFunnel r.funnelId)).run s₁).1 = found
  result : result = driven.mapError (refused r.id)
  data : s'.data = (s.data.putRun (latest r runs driven)).unlockRun r.id

theorem Course.definition_eq {found : Except Fault (Option Funnel)} {work closing : Log}
    {runs : List Run} (h : x.Course owner now r found work runs result) (hcloses : Closes closing) :
    Log.definition? (⟨.store (.getFunnel r.funnelId), found⟩ :: (work ++ closing)) =
      found.toOption.join := by
  cases h with
  | unread e => exact hcloses.2.2
  | orphaned => exact hcloses.2.2
  | stepped => rfl

theorem execute_eq (x : Execution) (id : String) (now : Instant) : x.execute id (some now) =
    token >>= fun t : String => (store (.acquireRun id (x.worker ++ ":" ++ t) now) : Activity Run) >>=
      x.executeHeld id now (x.worker ++ ":" ++ t) := rfl

theorem execute_logged (hstores : s.data.Stores r) (hfree : s.data.isLocked r.id now = .ok false)
    (h : (x.execute r.id (some now)).Logged s log result s') :
    ∃ found work runs driven, x.Executed now r s log result s' found work runs driven := by
  rw [execute_eq] at h
  obtain ⟨t, rest, rfl, hlock⟩ := h.of_token_bind
  generalize x.worker ++ ":" ++ t = owner at hlock
  have hacquire := MemoryStore.answer_acquireRun hstores owner now
  rw [hfree] at hacquire
  obtain ⟨rest, rfl, hheld⟩ := hlock.of_store_bind hacquire
  obtain ⟨found, work, closing, runs, driven, hfound, hcourse, rfl, hcloses, rfl, hdata⟩ :=
    executeHeld_logged (s := { s with data := s.data.lockRun r.id owner now })
      MemoryStore.runHolder_lockRun hstores hheld
  exact ⟨found, work, runs, driven, ⟨owner, hcourse⟩, ⟨[_, _, _], closing, rfl, rfl, rfl, hcloses⟩,
    hcourse.definition_eq hcloses, ⟨{ s with data := s.data.lockRun r.id owner now }, rfl, hfound⟩,
    rfl, hdata.trans MemoryStore.unlockRun_putRun_lockRun⟩

theorem answer_acquireRun_refused (hstores : s.data.Stores r)
    (hlocked : s.data.isLocked r.id now ≠ .ok false) (owner : String) :
    ∃ e, (MemoryStore.answer (.acquireRun r.id owner now)).run s = (.error e, s) := by
  have hacquire := MemoryStore.answer_acquireRun hstores owner now
  rcases hanswer : s.data.isLocked r.id now with e | locked
  · rw [hanswer] at hacquire
    exact ⟨e, hacquire⟩
  · cases locked with
    | true =>
      rw [hanswer] at hacquire
      exact ⟨_, hacquire⟩
    | false => exact absurd hanswer hlocked

theorem execute_refused (hstores : s.data.Stores r) (hlocked : s.data.isLocked r.id now ≠ .ok false)
    (h : (x.execute r.id (some now)).Logged s log result s') :
    (∃ e, result = .error e) ∧ s' = s ∧ Closes log := by
  rw [execute_eq] at h
  obtain ⟨t, rest, rfl, hlock⟩ := h.of_token_bind
  obtain ⟨e, hacquire⟩ := answer_acquireRun_refused hstores hlocked (x.worker ++ ":" ++ t)
  obtain ⟨rfl, rfl, rfl⟩ := hlock.of_store_bind_error hacquire
  exact ⟨⟨e, rfl⟩, rfl, rfl, rfl, rfl⟩

theorem execute_ok_logged (hstores : s.data.Stores r)
    (h : (x.execute r.id (some now)).Logged s log (.ok r') s') :
    ∃ found work runs, x.Executed now r s log (.ok r') s' found work runs (.ok r') := by
  have hfree : s.data.isLocked r.id now = .ok false := by
    -- otherwise it would have ended with a fault
    by_contra hlocked
    obtain ⟨⟨_, hfault⟩, _⟩ := execute_refused hstores hlocked h
    cases hfault
  obtain ⟨found, work, runs, driven, h⟩ := execute_logged hstores hfree h
  obtain rfl : driven = .ok r' := by
    cases driven with
    | ok r'' => exact h.result.symm
    | error e => cases h.result
  exact ⟨found, work, runs, h⟩

namespace Executed

variable {found : Except Fault (Option Funnel)} {work : Log} {runs : List Run}
  {driven : Except Fault Run} (h : x.Executed now r s log result s' found work runs driven)
include h

theorem outbound : log.outbound = work.outbound := by
  obtain ⟨front, closing, rfl, hfront, _, hcloses⟩ := h.spans
  simp [hfront, hcloses.1]

theorem saved : log.saved = runs := by
  obtain ⟨front, closing, rfl, _, hfront, hcloses⟩ := h.spans
  obtain ⟨owner, hcourse⟩ := h.course
  simp [hfront, hcourse.saved_eq, hcloses.2.1]

theorem stores : s'.data.Stores (latest r runs driven) := by
  rw [h.data]
  exact MemoryStore.stores_putRun

theorem isEligible_of_saved {before after : Log} {written : LogEntry} {taken : Run}
    (hlog : log = before ++ written :: after) (hwritten : written.saved? = some taken) :
    taken ∈ runs ∧ (after.outbound ≠ [] → taken.isEligible now = .ok true) := by
  have hmem : taken ∈ runs := by
    rw [← h.saved, hlog]
    simp [Log.saved, hwritten]
  refine ⟨hmem, fun hcalls => ?_⟩
  obtain ⟨front, closing, hspans, _, hfront, hcloses⟩ := h.spans
  obtain ⟨owner, hcourse⟩ := h.course
  cases hcourse with
  | unread e => cases hmem
  | orphaned => cases hmem
  | @stepped f done failed runs result hstages hstops =>
    obtain ⟨hfailed, hlast⟩ := hstops.failed_spec
    obtain ⟨rest, _, hrest⟩ := Log.exists_of_append hfront hwritten (hspans.symm.trans hlog)
    rw [List.append_assoc] at hrest
    refine hstages.isEligible_of_saved ?_ ?_ hwritten hrest hcalls
    · simpa [hcloses.1] using hlast
    · simp [hfailed, hcloses.2.1]

theorem found_eq (hf : log.definition? = some f) : found = .ok (some f) := by
  rw [h.definition] at hf
  cases found with
  | error e => cases hf
  | ok found =>
    obtain rfl : found = some f := hf
    rfl

end Executed

theorem cancel_eq (x : Execution) (id : String) (now : Instant) : x.cancel id (some now) =
    token >>= fun t : String =>
      (store (.acquireRun id (x.worker ++ ":cancel:" ++ t) now) : Activity Run) >>= fun r =>
        store (.releaseRun (cancelled r now) (x.worker ++ ":cancel:" ++ t)) := rfl

theorem cancel_logged (hstores : s.data.Stores r) (hfree : s.data.isLocked r.id now = .ok false)
    (h : (x.cancel r.id (some now)).Logged s log result s') :
    result = .ok (cancelled r now) ∧ Closes log ∧
      s'.data = (s.data.putRun (cancelled r now)).unlockRun r.id := by
  rw [cancel_eq] at h
  obtain ⟨t, rest, rfl, hlock⟩ := h.of_token_bind
  generalize x.worker ++ ":cancel:" ++ t = owner at hlock
  have hacquire := MemoryStore.answer_acquireRun hstores owner now
  rw [hfree] at hacquire
  obtain ⟨rest, rfl, hrelease⟩ := hlock.of_store_bind hacquire
  obtain ⟨rfl, hreleased⟩ := hrelease.of_store
  have hanswer := (answer_releaseRun_held (s := { s with data := s.data.lockRun r.id owner now })
    MemoryStore.runHolder_lockRun (cancelled_id r now)).symm.trans hreleased
  obtain ⟨rfl, rfl⟩ := Prod.mk.inj hanswer
  exact ⟨rfl, ⟨rfl, rfl, rfl⟩, MemoryStore.unlockRun_putRun_lockRun⟩

theorem cancel_refused (hstores : s.data.Stores r) (hlocked : s.data.isLocked r.id now ≠ .ok false)
    (h : (x.cancel r.id (some now)).Logged s log result s') :
    (∃ e, result = .error e) ∧ s' = s ∧ Closes log := by
  rw [cancel_eq] at h
  obtain ⟨t, rest, rfl, hlock⟩ := h.of_token_bind
  obtain ⟨e, hacquire⟩ := answer_acquireRun_refused hstores hlocked (x.worker ++ ":cancel:" ++ t)
  obtain ⟨rfl, rfl, rfl⟩ := hlock.of_store_bind_error hacquire
  exact ⟨⟨e, rfl⟩, rfl, rfl, rfl, rfl⟩

end Execution

end FunnelFlow
