import Mathlib.Data.List.Perm.Subperm
import Mathlib.Tactic.Positivity
import FunnelFlow.Proofs.Run.Pause
import FunnelFlow.Proofs.Service.Course
import FunnelFlow.Proofs.Service.Visits

namespace FunnelFlow

open Activity Relation

def Run.IsAtRest (r : Run) : Prop :=
  r.isTerminal = true ∨ r.status = .waiting ∨ r.status = .running ∧ r.nextAttemptAt.isSome = true

def Funnel.HasDelays (f : Funnel) : Prop :=
  ∀ n ∈ f.nodes, ∀ hours next, n.action = .delay hours next → 0 < hours

namespace Run

variable {policy : RetryPolicy} {f : Funnel} {now : Instant} {r r' : Run}

theorem Progress.attempts_nonneg (h : Progress policy f now r r') (hr : 0 ≤ r.attempts) :
    0 ≤ r'.attempts := by
  cases h with
  | dangled => exact hr
  | branched _ _ result => exact (advance_attempts _).ge
  | delayed _ _ hdelay =>
    rcases delay_eq_ok hdelay with ⟨_, rfl⟩ | ⟨_, _, _, _, rfl⟩
    · exact (advance_attempts _).ge
    · exact Int.le_refl 0
  | sent => exact (advance_attempts _).ge
  | failed _ _ hfail =>
    rcases failAttempt_eq_ok hfail with ⟨_, rfl⟩ | ⟨_, _, _, _, rfl⟩
    · exact Int.add_nonneg hr (by decide)
    · exact Int.add_nonneg hr (by decide)

theorem isAtRest_of_not_goesOn (h : ¬ r.GoesOn) : r.IsAtRest := by
  cases hstatus : r.status with
  | running =>
    have hnext : r.nextAttemptAt ≠ none := fun hnone => h ⟨hstatus, hnone⟩
    exact .inr (.inr ⟨hstatus, Option.isSome_iff_ne_none.mpr hnext⟩)
  | waiting => exact .inr (.inl hstatus)
  | completed => exact .inl (by simp [isTerminal, hstatus])
  | failed => exact .inl (by simp [isTerminal, hstatus])

theorem isAtRest_of_not_isEligible (h : r.isEligible now = .ok false) : r.IsAtRest := by
  apply isAtRest_of_not_goesOn
  rintro ⟨hstatus, hnext⟩
  simp [isEligible, isTerminal, hstatus, hnext, hasCome] at h

theorem isEligible_of_isTerminal (h : r.isTerminal = true) : r.isEligible now = .ok false := by
  rw [isEligible, if_pos h]

theorem isTerminal_of_advance {target : Option String} (h : ¬ (r.advance target).GoesOn) :
    (r.advance target).isTerminal = true := by
  cases target with
  | none => rfl
  | some target => exact absurd ⟨rfl, rfl⟩ h

/-- After a step, a run that does not go on has no step to take at the same instant. -/
theorem Progress.rests (h : Progress policy f now r r') (hstatus : r.status = .running)
    (hattempts : 0 ≤ r.attempts) (hdelays : f.HasDelays) (hbackoff : 1 ≤ policy.backoffSeconds)
    (hgoes : ¬ r'.GoesOn) : r'.isEligible now = .ok false := by
  cases h with
  | dangled => rfl
  | branched _ _ result => exact isEligible_of_isTerminal (isTerminal_of_advance hgoes)
  | sent => exact isEligible_of_isTerminal (isTerminal_of_advance hgoes)
  | @delayed n hours next r' hn haction hdelay =>
    rcases delay_eq_ok hdelay with ⟨_, rfl⟩ | ⟨_, _, _, hdue, rfl⟩
    · rfl
    · have hhours := hdelays n (Funnel.mem_of_node? hn) hours next haction
      exact (delay_pendsUntil hdue).not_isEligible (by omega)
  | failed _ _ hfail =>
    rcases failAttempt_eq_ok hfail with ⟨_, rfl⟩ | ⟨_, _, _, hdue, rfl⟩
    · rfl
    · exact (retry_pendsUntil hstatus hattempts hdue).not_isEligible (by positivity)

end Run

namespace Execution

variable {x y : Execution} {f : Funnel} {owner : String} {now : Instant} {r r' : Run}
  {s s' : Stored MemoryStore} {log : Log} {runs : List Run} {result : Except Fault Run}

/-- The nodes at which steps are taken are different ones, as long as the run goes on. -/
theorem Stages.exists_sources (hacyclic : f.Acyclic) (h : x.Stages f owner now r log runs)
    (hgoes : ∀ last ∈ runs.getLast?, last.GoesOn) :
    ∃ sources : List String, sources.length = runs.length ∧ sources ⊆ f.nodeIds ∧ sources.Nodup ∧
      ∀ id ∈ sources, ReflTransGen f.Points r.currentNodeId id := by
  induction h with
  | nil r => exact ⟨[], rfl, List.nil_subset _, List.nodup_nil, by simp⟩
  | @cons r taken asked rest runs _ htakes hnext _ ih =>
    have htaken : taken.GoesOn := by
      cases runs with
      | nil => exact hgoes taken rfl
      | cons => exact hnext (List.cons_ne_nil _ _)
    have hpoints : f.Points r.currentNodeId taken.currentNodeId := by
      simpa using htakes.progress.points htaken
    have hlast : ∀ last ∈ runs.getLast?, last.GoesOn := by
      intro last hmem
      refine hgoes last ?_
      rw [List.getLast?_cons, Option.mem_def.mp hmem]
      rfl
    obtain ⟨sources, hlength, hsubset, hnodup, hreach⟩ := ih hlast
    refine ⟨r.currentNodeId :: sources, by simp [hlength], ?_, ?_, ?_⟩
    · exact List.cons_subset.mpr ⟨Funnel.hasNode_iff.mp hpoints.hasNode, hsubset⟩
    · -- a second visit would close a cycle
      refine List.nodup_cons.mpr ⟨fun hmem => ?_, hnodup⟩
      exact hacyclic.not_points _ (TransGen.head' hpoints (hreach _ hmem))
    · refine List.forall_mem_cons.mpr ⟨.refl, fun id hid => ?_⟩
      exact .head hpoints (hreach id hid)

theorem Stages.length_le (hacyclic : f.Acyclic) (h : x.Stages f owner now r log runs)
    (hgoes : ∀ last ∈ runs.getLast?, last.GoesOn) : runs.length ≤ f.nodes.length := by
  obtain ⟨sources, hlength, hsubset, hnodup, _⟩ := h.exists_sources hacyclic hgoes
  have hle : sources.length ≤ f.nodeIds.length := (hnodup.subperm hsubset).length_le
  rwa [hlength, Funnel.nodeIds, List.length_map] at hle

theorem Stages.exists_last_step {P : Run → Prop}
    (hstep : ∀ a b asked, P a → a.isEligible now = .ok true → x.Takes f now a asked b → P b)
    (hr : P r) (h : x.Stages f owner now r log runs) (hruns : runs ≠ []) :
    ∃ before asked, P before ∧ before.isEligible now = .ok true ∧
      x.Takes f now before asked (runs.getLastD r) := by
  induction h with
  | nil r => exact absurd rfl hruns
  | @cons r taken asked rest runs heligible htakes _ hrest ih =>
    cases runs with
    | nil => exact ⟨r, asked, hr, heligible, htakes⟩
    | cons next runs =>
      rw [List.getLastD_cons]
      exact ih (hstep r taken asked hr heligible htakes) (List.cons_ne_nil _ _)

/-- On a definition without cycles it is never the bound that ends the loop of steps. -/
theorem Stages.stops (hacyclic : f.Acyclic) (h : x.Stages f owner now r log runs) {failed : Log}
    (hstops : Stops now (f.nodes.length + 1) runs (runs.getLastD r) failed (.ok r')) :
    r' = runs.getLastD r ∧ (r'.isEligible now = .ok false ∨ runs ≠ [] ∧ ¬ r'.GoesOn) := by
  obtain ⟨rfl, _, hidle | hrests | hlength⟩ := hstops
  · exact ⟨rfl, .inl hidle⟩
  · exact ⟨rfl, .inr hrests⟩
  · refine ⟨rfl, .inr ⟨by rintro rfl; simp at hlength, fun hgoes => ?_⟩⟩
    have hle : runs.length ≤ f.nodes.length := by
      refine h.length_le hacyclic fun last hlast => ?_
      rw [List.getLastD_eq_getLast?, Option.mem_def.mp hlast] at hgoes
      exact hgoes
    omega

theorem orphan_isTerminal (r : Run) (now : Instant) : (orphan r now).isTerminal = true := by
  unfold orphan
  split
  · assumption
  · rfl

theorem Course.isAtRest {found : Except Fault (Option Funnel)}
    (hacyclic : ∀ f, found = .ok (some f) → f.Acyclic)
    (h : x.Course owner now r found log runs (.ok r')) : r'.IsAtRest := by
  cases h with
  | orphaned => exact .inl (orphan_isTerminal r now)
  | stepped hstages hstops =>
    obtain ⟨_, hidle | ⟨_, hrests⟩⟩ := hstages.stops (hacyclic _ rfl) hstops
    · exact Run.isAtRest_of_not_isEligible hidle
    · exact Run.isAtRest_of_not_goesOn hrests

theorem Course.not_isEligible {found : Except Fault (Option Funnel)}
    (hdefinition : ∀ f, found = .ok (some f) → f.Acyclic ∧ f.HasDelays)
    (hbackoff : 1 ≤ x.policy.backoffSeconds) (hattempts : 0 ≤ r.attempts)
    (h : x.Course owner now r found log runs (.ok r')) : r'.isEligible now = .ok false := by
  cases h with
  | orphaned => exact Run.isEligible_of_isTerminal (orphan_isTerminal r now)
  | @stepped f done failed runs _ hstages hstops =>
    obtain ⟨hacyclic, hdelays⟩ := hdefinition f rfl
    obtain ⟨rfl, hidle | ⟨hruns, hrests⟩⟩ := hstages.stops hacyclic hstops
    · exact hidle
    · have hkept : ∀ a b asked, 0 ≤ a.attempts → a.isEligible now = .ok true →
          x.Takes f now a asked b → 0 ≤ b.attempts := by
        intro a b asked ha _ htakes
        exact htakes.progress.attempts_nonneg (by rwa [Run.resume_attempts])
      obtain ⟨before, asked, hbefore, heligible, htakes⟩ :=
        hstages.exists_last_step hkept hattempts hruns
      have hstatus : (before.resume now).status = .running :=
        Run.resume_status (Run.isTerminal_eq_false_of_isEligible heligible)
      refine htakes.progress.rests hstatus ?_ hdelays hbackoff hrests
      rwa [Run.resume_attempts]

theorem Course.of_not_isEligible {found : Except Fault (Option Funnel)}
    (hidle : r.isEligible now = .ok false) (hfound : found = .ok none → r.isTerminal = true)
    (h : x.Course owner now r found log runs result) :
    log.outbound = [] ∧ latest r runs result = r := by
  refine ⟨?_, ?_⟩
  · by_contra hcalls
    simpa [hidle] using h.isEligible_of_outbound hcalls
  · cases h with
    | unread e => rfl
    | orphaned => exact if_pos (hfound rfl)
    | @stepped f done failed runs result hstages hstops =>
      cases hstages with
      | cons heligible => simp [hidle] at heligible
      | nil => exact hstops.latest_eq

theorem execute_idle (hstores : s.data.Stores r) (hfree : s.data.runLocks.get? r.id = none)
    (hidle : r.isEligible now = .ok false)
    (hfound : s.data.funnels.get? r.funnelId = none → r.isTerminal = true)
    (h : (x.execute r.id (some now)).Logged s log result s') :
    log.outbound = [] ∧ s'.data = s.data := by
  obtain ⟨found, work, runs, driven, h⟩ :=
    execute_logged hstores (MemoryStore.isLocked_of_none hfree) h
  obtain ⟨owner, hcourse⟩ := h.course
  obtain ⟨s₁, hfunnels, hreads⟩ := h.reads
  have hgone : found = .ok none → r.isTerminal = true := by
    rintro rfl
    rcases MemoryStore.of_answer_getFunnel hreads with ⟨hnone, _⟩ | ⟨_, _, _, _, hsome, _⟩
    · exact hfound (hfunnels ▸ hnone)
    · cases hsome
  obtain ⟨hcalls, hlatest⟩ := hcourse.of_not_isEligible hidle hgone
  rw [h.outbound, h.data, hlatest, MemoryStore.putRun_of_stores hstores,
    MemoryStore.unlockRun_of_none hfree]
  exact ⟨hcalls, rfl⟩

/-- On a definition without cycles a run that is given back is at rest; if pauses take their time, it
can be executed again at the same instant, and nothing happens. -/
theorem execute_comes_to_rest (hstores : s.data.Stores r)
    (hacyclic : s.data.Defines r.funnelId Funnel.Acyclic)
    (hrun : (x.execute r.id (some now)).Logged s log (.ok r') s') :
    (r'.isTerminal = true ∨ r'.status = .waiting ∨
      r'.status = .running ∧ r'.nextAttemptAt.isSome = true) ∧
    (0 ≤ r.attempts → s.data.Defines r.funnelId Funnel.HasDelays → 1 ≤ x.policy.backoffSeconds →
      r'.isEligible now = .ok false ∧ s'.data.Stores r' ∧
      ∀ (y : Execution) log' result s'', (y.execute r.id (some now)).Logged s' log' result s'' →
        log'.outbound = [] ∧ s''.data.Stores r' ∧ s''.data = s'.data) := by
  obtain ⟨found, work, runs, h⟩ := execute_ok_logged hstores hrun
  obtain ⟨owner, hcourse⟩ := h.course
  obtain ⟨s₁, hfunnels, hreads⟩ := h.reads
  refine ⟨hcourse.isAtRest fun f hf => hacyclic.found hfunnels (hf ▸ hreads), ?_⟩
  intro hattempts hdelays hbackoff
  have hidle : r'.isEligible now = .ok false :=
    hcourse.not_isEligible (fun f hf =>
      ⟨hacyclic.found hfunnels (hf ▸ hreads), hdelays.found hfunnels (hf ▸ hreads)⟩) hbackoff hattempts
  have hdata : s'.data = (s.data.putRun r').unlockRun r.id := h.data
  have hid : r'.id = r.id := hcourse.latest_id
  have hfunnelId : r'.funnelId = r.funnelId := congrArg Run.Origin.funnelId hcourse.latest_origin
  have hstores' : s'.data.Stores r' := h.stores
  have hfree' : s'.data.runLocks.get? r'.id = none := by
    rw [hdata, hid]
    exact Table.get?_erase_self _ _
  have hgone : s'.data.funnels.get? r'.funnelId = none → r'.isTerminal = true := by
    rw [hdata, hfunnelId]
    intro hnone
    have hnone' : s₁.data.funnels.get? r.funnelId = none := hfunnels ▸ hnone
    rw [MemoryStore.answer_getFunnel_of_none hnone'] at hreads
    subst hreads
    cases hcourse with
    | orphaned => exact orphan_isTerminal r now
  refine ⟨hidle, hstores', fun y log' result s'' hagain => ?_⟩
  obtain ⟨hcalls, hsame⟩ := execute_idle hstores' hfree' hidle hgone (hid ▸ hagain)
  exact ⟨hcalls, hsame ▸ hstores', hsame⟩

end Execution

namespace Service

/-- A definition that leads through all of its nodes and then to one that is missing. -/
def stranding : Stored MemoryStore := overwritten (some "gone")

theorem stranding_document : stranding.data.funnels.get? waitingRun.funnelId =
    some (.object (stamped (redrafted (some "gone"))).toDocument) := rfl

theorem parked_document : parked.data.funnels.get? waitingRun.funnelId =
    some (.object (stamped (reminder 24)).toDocument) := rfl

theorem stranding_acyclic : stranding.data.Defines waitingRun.funnelId Funnel.Acyclic := by
  refine MemoryStore.defines_of_toDocument stranding_document fun fresh => ?_
  have hforward : ((stamped (redrafted (some "gone"))).reread "").LeadsForward := by decide
  exact hforward.acyclic

theorem parked_acyclic : parked.data.Defines waitingRun.funnelId Funnel.Acyclic := by
  refine MemoryStore.defines_of_toDocument parked_document fun fresh => ?_
  have hforward : ((stamped (reminder 24)).reread "").LeadsForward := by decide
  exact hforward.acyclic

theorem parked_hasDelays : parked.data.Defines waitingRun.funnelId Funnel.HasDelays := by
  refine MemoryStore.defines_of_toDocument parked_document fun fresh => ?_
  intro n hn hours next haction
  have hnodes : n ∈ [(reminder 24).nodes[0].reread, (reminder 24).nodes[1].reread] := hn
  simp only [List.mem_cons, List.not_mem_nil, or_false] at hnodes
  rcases hnodes with rfl | rfl
  · cases haction
    decide
  · cases haction

def strandedRun : Run := { waitingRun with
  currentNodeId := "gone", status := .failed, resumeAt := none
  updatedAt := some ⟨86400000000, none⟩
  history := waitingRun.history ++ [⟨some "mail", ⟨86400000000, none⟩, .sent, none⟩,
    ⟨some "more", ⟨86400000000, none⟩, .sent, none⟩,
    ⟨some "gone", ⟨86400000000, none⟩, .danglingEdge,
      some "Node gone not found in funnel reminder"⟩] }

def retriedRun : Run := { waitingRun with
  status := .running, resumeAt := none, attempts := 1
  nextAttemptAt := some ⟨86460000000, none⟩, updatedAt := some ⟨86400000000, none⟩
  history := waitingRun.history ++ [⟨some "mail", ⟨86400000000, none⟩, .retry,
    some "Transport error: "⟩] }

theorem logged_nextDay {answer : (r : Request) → Stored MemoryStore → r.Answer × Stored MemoryStore}
    (hanswer : ∀ r s, Served r s (answer r s).1 (answer r s).2) {s : Stored MemoryStore} {r : Run}
    (h : (nextDay.run answer s).1 = .ok r) :
    nextDay.Logged s (nextDay.logIn answer s) (.ok r) (nextDay.run answer s).2 :=
  h ▸ logged_run hanswer nextDay s

def retried : Stored MemoryStore := (nextDay.run (still ⟨86400000000, none⟩ "token") parked).2

theorem nextDay_comes_to_rest :
    (stranding.data.Stores waitingRun ∧
      stranding.data.Defines waitingRun.funnelId Funnel.Acyclic ∧
      (strandedRun.isTerminal = true ∨ strandedRun.status = .waiting ∨
        strandedRun.status = .running ∧ strandedRun.nextAttemptAt.isSome = true)) ∧
    parked.data.Stores waitingRun ∧ parked.data.Defines waitingRun.funnelId Funnel.Acyclic ∧
      parked.data.Defines waitingRun.funnelId Funnel.HasDelays ∧ 0 ≤ waitingRun.attempts ∧
      1 ≤ worker.policy.backoffSeconds ∧ retriedRun.isEligible ⟨86400000000, none⟩ = .ok false ∧
      (nextDay.logIn (still ⟨86400000000, none⟩ "token") retried).outbound = [] ∧
      (nextDay.run (still ⟨86400000000, none⟩ "token") retried).2.data = retried.data := by
  have hstores : stranding.data.Stores waitingRun := MemoryStore.stores_putRun
  have hstores' : parked.data.Stores waitingRun := MemoryStore.stores_putRun
  have hattempts : 0 ≤ waitingRun.attempts := by decide
  have hbackoff : 1 ≤ worker.policy.backoffSeconds := by decide
  have hstranded := Execution.execute_comes_to_rest hstores stranding_acyclic
    (logged_nextDay (obliging_served ⟨86400000000, none⟩ "token") rfl)
  have hretried := Execution.execute_comes_to_rest hstores' parked_acyclic
    (logged_nextDay (r := retriedRun) (still_served ⟨86400000000, none⟩ "token") rfl)
  obtain ⟨hidle, _, hagain⟩ := hretried.2 hattempts parked_hasDelays hbackoff
  obtain ⟨hcalls, _, hsame⟩ :=
    hagain worker _ _ _ (logged_run (still_served ⟨86400000000, none⟩ "token") nextDay retried)
  exact ⟨⟨hstores, stranding_acyclic, hstranded.1⟩, hstores', parked_acyclic, parked_hasDelays,
    hattempts, hbackoff, hidle, hcalls, hsame⟩

end Service

end FunnelFlow
