import FunnelFlow.Proofs.Run.Bounds
import FunnelFlow.Proofs.Service.Alone
import FunnelFlow.Proofs.Service.Discipline

/-!
The nodes that one execution takes a run through. They are all different as long as the definition
has no cycle, which is made sure of for active funnels only: a draft that is saved over the
definition of a run may lead it in a circle.
-/

namespace FunnelFlow

open Activity Relation

namespace Run

variable {leads : String → String → Prop} {r₀ r r' : Run}

/-- What was added to the history since `r₀` is about different nodes. If the run goes on, there is
a way from each of them to the node where it does. -/
def WandersFrom (leads : String → String → Prop) (r₀ r : Run) : Prop :=
  ∃ added, r.history = r₀.history ++ added ∧ (added.map (·.nodeId)).Nodup ∧
    (r.GoesOn → ∀ e ∈ added, ∃ a, e.nodeId = some a ∧ TransGen leads a r.currentNodeId)

theorem WandersFrom.refl (r : Run) : WandersFrom leads r r :=
  ⟨[], by simp, by simp, fun _ => nofun⟩

theorem WandersFrom.record {e : HistoryEntry} (hcycle : ∀ a, ¬ TransGen leads a a)
    (h : WandersFrom leads r₀ r) (hbefore : r = r₀ ∨ r.GoesOn)
    (hhistory : r'.history = r.history ++ [e]) (hnode : e.nodeId = some r.currentNodeId)
    (hleads : r'.GoesOn → leads r.currentNodeId r'.currentNodeId) : WandersFrom leads r₀ r' := by
  obtain ⟨added, hadded, hnodup, hways⟩ := h
  have hways : ∀ e ∈ added, ∃ a, e.nodeId = some a ∧ TransGen leads a r.currentNodeId := by
    rcases hbefore with rfl | hgoes
    · obtain rfl : added = [] := by simpa using hadded
      exact nofun
    · exact hways hgoes
  refine ⟨added ++ [e], by rw [hhistory, hadded, List.append_assoc], ?_, fun hgoes => ?_⟩
  · rw [List.map_append]
    refine List.nodup_append.mpr ⟨hnodup, by simp, ?_⟩
    intro id hid id' hid' hsame
    obtain ⟨e', he', rfl⟩ := List.mem_map.mp hid
    obtain ⟨a, ha, hway⟩ := hways e' he'
    obtain rfl : e.nodeId = id' := (List.mem_singleton.mp hid').symm
    -- the way from the first visit to the second would be a cycle
    obtain rfl : a = r.currentNodeId := Option.some.inj (ha.symm.trans (hsame.trans hnode))
    exact hcycle _ hway
  · refine List.forall_mem_append.mpr ⟨fun e' he' => ?_, List.forall_mem_singleton.mpr ?_⟩
    · obtain ⟨a, ha, hway⟩ := hways e' he'
      exact ⟨a, ha, hway.tail (hleads hgoes)⟩
    · exact ⟨_, hnode, .single (hleads hgoes)⟩

theorem WandersFrom.orphan (r : Run) (now : Instant) :
    WandersFrom leads r (Execution.orphan r now) := by
  unfold Execution.orphan
  split
  · exact .refl r
  · refine ⟨_, rfl, by simp, fun hgoes => ?_⟩
    cases hgoes.1

end Run

def Execution.wandering (x : Execution) (id : String) (leads : String → String → Prop) : Errand :=
  { Task.execute.errand x id fun _ => True with
    definition := fun a => ∀ f, a = .ok (some f) → f.Points = leads }

theorem Execution.wandering_upholds {x : Execution} {leads : String → String → Prop} {r₀ : Run}
    (hcycle : ∀ a, ¬ TransGen leads a a) : (x.wandering r₀.id leads).Upholds r₀
      (fun written r => (written = false → r = r₀) ∧ Run.WandersFrom leads r₀ r)
      (Run.WandersFrom leads r₀) where
  start := ⟨fun _ => rfl, .refl r₀⟩
  step {written r r'} h hgoes hsteps := by
    obtain ⟨now, f, _, hdefinition, _, hprogress⟩ := hsteps
    obtain ⟨outcome, reason, hhistory⟩ := hprogress.history_eq
    rw [Run.resume_history, Run.resume_currentNodeId] at hhistory
    have hbefore : r = r₀ ∨ r.GoesOn := by
      cases written with
      | false => exact .inl (h.1 rfl)
      | true => exact .inr (hgoes rfl)
    refine ⟨nofun, h.2.record hcycle hbefore hhistory rfl fun hgoes' => ?_⟩
    have hpoints := hprogress.points hgoes'
    rwa [Run.resume_currentNodeId, hdefinition f rfl] at hpoints
  close {written r r'} h hcloses := by
    rcases hcloses with ⟨rfl, _⟩ | ⟨hwritten, now, _, rfl⟩
    · exact h.2
    · rw [h.1 hwritten]
      exact .orphan r₀ now

namespace MemoryStore

/-- As it is read back, the definition is active or has no cycle. -/
def IsFreeOfCycles (m : MemoryStore) (id : String) : Prop :=
  ∀ document fresh f, m.funnels.get? id = some document →
    (Funnel.ofDocument document .null).result fresh = .ok f → f.isActive = true ∨ f.Acyclic

theorem IsFreeOfCycles.exists_points {m : MemoryStore} {id : String} (h : m.IsFreeOfCycles id)
    (hsound : m.KeepsSound) : ∃ leads : String → String → Prop, (∀ a, ¬ TransGen leads a a) ∧
      ∀ s : Stored MemoryStore, s.data.funnels = m.funnels →
        ∀ f, ((getFunnel id).run s).1 = .ok (some f) → f.Points = leads := by
  cases hdocument : m.funnels.get? id with
  | none =>
    refine ⟨fun _ _ => False, fun a hcycle => ?_, fun s hfunnels f hf => ?_⟩
    · obtain ⟨_, hfalse, _⟩ := TransGen.head'_iff.mp hcycle
      exact hfalse
    · cases (getFunnel_reads_none (hfunnels ▸ hdocument)).of_run hf
  | some document =>
    obtain ⟨f, hf, rfl⟩ := hsound _ (Table.mem_of_get? hdocument)
    have hacyclic : (f.reread "").Acyclic := by
      rcases h _ "" _ hdocument (Funnel.ofDocument_toDocument f "") with hactive | hacyclic
      · exact (Funnel.isSafe_of_violations ((hf.reread "").active hactive)).acyclic
      · exact hacyclic
    refine ⟨(f.reread "").Points, hacyclic.not_points, fun s hfunnels g hg => ?_⟩
    obtain ⟨fresh, hg⟩ := (getFunnel_reads_some (hfunnels ▸ hdocument)).of_run hg
    rw [Option.some.inj hg]
    rfl

end MemoryStore

/-- An execution takes a run through different nodes only, unless the definition of the run is a
draft with a cycle. -/
theorem Service.Reachable.enters_no_node_twice {policy : RetryPolicy} {runTtl funnelTtl : Span}
    {s s' : Stored MemoryStore} (h : Reachable policy runTtl funnelTtl s) {r : Run}
    (hstores : s.data.Stores r) (hcycles : s.data.IsFreeOfCycles r.funnelId) (x : Execution)
    (now? : Option Instant) {rest : Activity Run}
    (hreaches : ReflTransGen (Advances fun _ _ => True) (x.execute r.id now?, s) (rest, s')) :
    ∃ r' added, r'.id = r.id ∧ s'.data.Stores r' ∧ r'.history = r.history ++ added ∧
      (added.map (·.nodeId)).Nodup := by
  obtain ⟨leads, hcycle, hpoints⟩ := hcycles.exists_points h.keepsSound
  let e := x.wandering r.id leads
  have htracks : e.protocol.Tracks (fun _ _ => True) (e.Alone s.data _ _) :=
    Errand.tracks_alone (Execution.wandering_upholds hcycle) rfl hstores ?admits ?definition
  case admits =>
    intro q a hq _
    cases q with
    | store call => exact absurd rfl (hq call)
    | read address => exact fun _ _ => trivial
    | _ => trivial
  case definition =>
    rintro s₁ r₁ hfunnels ⟨hr₁, _⟩
    rw [hr₁ rfl]
    exact hpoints s₁ hfunnels
  have hfollows : (x.execute r.id now?).Follows e.protocol e.Ends .apart :=
    Execution.execute_follows trivial rfl rfl rfl
      (by cases now? <;> simp [e, Execution.wandering, Task.errand])
  obtain ⟨g, _, halone, _⟩ := hfollows.reaches htracks (Errand.alone_apart rfl hstores) hreaches
  obtain ⟨r', hid, hstores', rfl | ⟨_, _, hwanders⟩ | hwanders⟩ := halone.exists_stored rfl hstores
  · exact ⟨r', [], hid, hstores', by simp, by simp⟩
  · obtain ⟨added, hhistory, hnodup, _⟩ := hwanders
    exact ⟨r', added, hid, hstores', hhistory, hnodup⟩
  · obtain ⟨added, hhistory, hnodup, _⟩ := hwanders
    exact ⟨r', added, hid, hstores', hhistory, hnodup⟩

namespace Service

/-- A draft for the run that is parked: two messages, the second of which may lead back. -/
def redrafted (back : Option String) : Funnel :=
  { reminder 24 with
    isActive := false, startNodeId := "mail"
    nodes := [
      { id := "mail", position := none, label := none, action := .email "Hello" "" (some "more") },
      { id := "more", position := none, label := none, action := .email "More" "" back }] }

def overwritten (back : Option String) : Stored MemoryStore :=
  ⟨.first, (keeping (redrafted back)).putRun waitingRun⟩

def nextDay : Activity Run := worker.execute waitingRun.id (some ⟨86400000000, none⟩)

def afterNextDay (s : Stored MemoryStore) : Except Fault Run × Stored MemoryStore :=
  nextDay.run (obliging ⟨86400000000, none⟩ "token") s

theorem reaches_afterNextDay (s : Stored MemoryStore) :
    ReflTransGen (Advances fun _ _ => True) (nextDay, s)
      (.done (afterNextDay s).1, (afterNextDay s).2) :=
  run_reaches (obliging_served _ _) (fun _ _ => trivial) nextDay s

theorem reachable_line : Reachable ⟨3, 60⟩ ⟨300000000⟩ ⟨300000000⟩ (overwritten none) :=
  reachable_parked.run (still_served ⟨0, none⟩ "run")
    (.edit "ada" (.save (.object (redrafted none).toDocument)))

theorem reachable_circle : Reachable ⟨3, 60⟩ ⟨300000000⟩ ⟨300000000⟩ (overwritten (some "mail")) :=
  reachable_parked.run (still_served ⟨0, none⟩ "run")
    (.edit "ada" (.save (.object (redrafted (some "mail")).toDocument)))

theorem line_isFreeOfCycles : (overwritten none).data.IsFreeOfCycles waitingRun.funnelId := by
  intro document fresh f hdocument hread
  obtain rfl : Value.object (stamped (redrafted none)).toDocument = document :=
    Option.some.inj hdocument
  rw [Funnel.ofDocument_toDocument] at hread
  obtain rfl := Except.ok.inj hread
  have hforward : ((stamped (redrafted none)).reread "").LeadsForward := by decide
  exact .inr hforward.acyclic

theorem line_enters_no_node_twice :
    Reachable ⟨3, 60⟩ ⟨300000000⟩ ⟨300000000⟩ (overwritten none) ∧
    (overwritten none).data.Stores waitingRun ∧
    (overwritten none).data.IsFreeOfCycles waitingRun.funnelId ∧
    ReflTransGen (Advances fun _ _ => True) (nextDay, overwritten none)
      (.done (afterNextDay (overwritten none)).1, (afterNextDay (overwritten none)).2) ∧
    ∃ r' added, r'.id = waitingRun.id ∧ (afterNextDay (overwritten none)).2.data.Stores r' ∧
      r'.history = waitingRun.history ++ added ∧ (added.map (·.nodeId)).Nodup :=
  ⟨reachable_line, MemoryStore.stores_putRun, line_isFreeOfCycles, reaches_afterNextDay _,
    reachable_line.enters_no_node_twice MemoryStore.stores_putRun line_isFreeOfCycles worker _
      (reaches_afterNextDay _)⟩

def circledRun : Run := { waitingRun with
  currentNodeId := "more", status := .running, resumeAt := none
  updatedAt := some ⟨86400000000, none⟩
  history := waitingRun.history ++ [⟨some "mail", ⟨86400000000, none⟩, .sent, none⟩,
    ⟨some "more", ⟨86400000000, none⟩, .sent, none⟩,
    ⟨some "mail", ⟨86400000000, none⟩, .sent, none⟩] }

/-- A draft with a cycle leads a run that is in progress through the same node twice. -/
theorem enters_node_twice_in_circle :
    ¬ ∀ (s s' : Stored MemoryStore) (r : Run) (x : Execution) (now? : Option Instant)
        (rest : Activity Run), Reachable ⟨3, 60⟩ ⟨300000000⟩ ⟨300000000⟩ s → s.data.Stores r →
      ReflTransGen (Advances fun _ _ => True) (x.execute r.id now?, s) (rest, s') →
      ∃ r' added, r'.id = r.id ∧ s'.data.Stores r' ∧ r'.history = r.history ++ added ∧
        (added.map (·.nodeId)).Nodup := by
  intro h
  obtain ⟨r', added, hid, hstores, hhistory, hnodup⟩ := h _ _ waitingRun worker _ _
    reachable_circle MemoryStore.stores_putRun (reaches_afterNextDay _)
  obtain rfl : r' = circledRun := by
    refine MemoryStore.Stores.eq ?_ hstores hid
    rfl
  obtain rfl := List.append_cancel_left hhistory
  revert hnodup
  decide

end Service

end FunnelFlow
