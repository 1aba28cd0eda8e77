import FunnelFlow.Proofs.Funnel.Forward
import FunnelFlow.Proofs.Run.Trail

namespace FunnelFlow

open Relation

variable {policy : RetryPolicy} {f : Funnel} {budget : Int} {r r' : Run} {visits : List Visit}
  {tried : List HistoryEntry} {now : Instant} {id : String}

/-- What is needed of a funnel: each visit leads to another node, never back. -/
structure Funnel.IsSafe (f : Funnel) : Prop where
  start : f.hasNode f.startNodeId = true
  resolved : ∀ a b, f.Refers a b → f.hasNode b = true
  acyclic : f.Acyclic

theorem Funnel.isSafe_of_violations (h : f.violations = []) : f.IsSafe := by
  obtain ⟨_, _, hroot, hdangling, _, _, hcycles⟩ := violations_eq_nil_iff_checks.mp h
  have hresolved := danglingViolations_eq_nil_iff.mp hdangling
  exact ⟨(rootViolations_eq_nil_iff.mp hroot).2, fun a b hab => hasNode_iff.mpr (hresolved a b hab),
    cycleViolations_eq_nil_iff.mp hcycles⟩

theorem Visit.LeadsTo.leads {v : Visit} (hsafe : f.IsSafe) (h : v.LeadsTo f (some id)) :
    f.Leads v.node id := by
  obtain ⟨n, label, hn, _, hedge⟩ := h
  have htarget : id ∈ n.targets := Funnel.mem_targets_iff.mpr ⟨label, hedge⟩
  have hrefers : f.Refers v.node id :=
    ⟨n, Funnel.mem_of_node? hn, Funnel.node?_id hn, htarget⟩
  exact ⟨n, hn, htarget, hsafe.resolved _ _ hrefers⟩

namespace Route

theorem hasNode (h : Route f budget visits id) (hsafe : f.IsSafe) : f.hasNode id = true := by
  cases h with
  | start => exact hsafe.start
  | visit _ _ hleads => exact (hleads.leads hsafe).hasNode

theorem leads (h : Route f budget visits id) (hsafe : f.IsSafe) :
    ∀ v ∈ visits, TransGen f.Leads v.node id := by
  induction h with
  | start => exact nofun
  | visit _ _ hleads ih =>
    have hlast := hleads.leads hsafe
    refine List.forall_mem_append.mpr ⟨fun w hw => (ih w hw).tail hlast, ?_⟩
    exact List.forall_mem_singleton.mpr (.single hlast)

theorem hasNode_of_mem (h : Route f budget visits id) : ∀ v ∈ visits, f.hasNode v.node = true := by
  induction h with
  | start => exact nofun
  | visit _ _ hleads ih =>
    obtain ⟨n, _, hn, _⟩ := hleads
    have hnode := Funnel.hasNode_of_node? hn
    exact List.forall_mem_append.mpr ⟨ih, List.forall_mem_singleton.mpr hnode⟩

theorem nodup (h : Route f budget visits id) (hsafe : f.IsSafe) :
    (visits.map Visit.node ++ [id]).Nodup := by
  induction h with
  | start => simp
  | @visit visits v target hroute hfits hleads ih =>
    -- a node that was visited before would lead to itself
    have hall := (hroute.visit hfits hleads).leads hsafe
    refine List.nodup_append.mpr ⟨by simpa using ih, by simp, ?_⟩
    rintro a ha b hb rfl
    obtain ⟨w, hw, rfl⟩ := List.mem_map.mp ha
    obtain rfl : w.node = target := by simpa using hb
    exact hsafe.acyclic _ (hall w hw)

theorem length_lt (h : Route f budget visits id) (hsafe : f.IsSafe) :
    visits.length < f.nodes.length := by
  have hvisited : ∀ a ∈ visits.map Visit.node, a ∈ f.nodeIds :=
    List.forall_mem_map.mpr fun v hv => Funnel.hasNode_iff.mp (h.hasNode_of_mem v hv)
  have hcurrent : id ∈ f.nodeIds := Funnel.hasNode_iff.mp (h.hasNode hsafe)
  have hsubset : visits.map Visit.node ++ [id] ⊆ f.nodeIds :=
    List.forall_mem_append.mpr ⟨hvisited, List.forall_mem_singleton.mpr hcurrent⟩
  have hlength := (h.nodup hsafe).length_le_of_subset hsubset
  simp only [List.length_append, List.length_map, List.length_singleton, Funnel.nodeIds] at hlength
  omega

end Route

/-- Whether an entry about a node says more than that an attempt failed. -/
def HistoryEntry.settles (id : String) (e : HistoryEntry) : Bool :=
  e.nodeId = some id ∧ e.outcome ≠ .retry

theorem AreRetries.filter_settles {node : String} (h : AreRetries budget node tried)
    (id : String) :
    tried.filter (·.settles id) = [] := by
  apply List.filter_eq_nil_iff.mpr
  intro e he
  simp [HistoryEntry.settles, (h.1 e he).2]

namespace Visit

variable {v : Visit}

theorem Fits.length_le (h : v.Fits f budget) : (v.entries.length : Int) ≤ max 1 budget := by
  have hretries := h.retries.2
  simp only [entries, List.length_append, List.length_singleton]
  omega

theorem Fits.length_filter_settles_le (h : v.Fits f budget) (id : String) :
    (v.entries.filter (·.settles id)).length ≤ if v.node = id then 1 else 0 := by
  rw [entries, List.filter_append, h.retries.filter_settles, List.nil_append]
  by_cases hnode : v.node = id
  · rw [if_pos hnode]
    exact List.length_filter_le _ _
  · rw [if_neg hnode]
    simp [HistoryEntry.settles, h.closing, hnode]

theorem Fits.ne_danglingEdge (h : v.Fits f budget) (hnode : f.hasNode v.node = true) :
    ∀ e ∈ v.entries, e.outcome ≠ .danglingEdge := by
  intro e he
  rcases List.mem_append.mp he with he | he
  · simp [(h.retries.1 e he).2]
  · rw [List.mem_singleton.mp he]
    rcases h.outcome with ⟨n, _, hkind⟩ | ⟨_, hmissing⟩
    · intro houtcome
      simp [houtcome, Outcome.kinds] at hkind
    · simp [hnode] at hmissing

end Visit

section Visits

variable (hfits : ∀ v ∈ visits, v.Fits f budget)
include hfits

theorem length_entries_le :
    ((visits.flatMap Visit.entries).length : Int) ≤ visits.length * max 1 budget := by
  induction visits with
  | nil => simp
  | cons v visits ih =>
    have hv := (hfits v List.mem_cons_self).length_le
    have hvisits := ih fun w hw => hfits w (List.mem_cons_of_mem _ hw)
    simp only [List.flatMap_cons, List.length_append, List.length_cons, Int.natCast_add,
      Int.add_mul]
    omega

theorem length_filter_settles_le_count :
    ((visits.flatMap Visit.entries).filter (·.settles id)).length ≤
      (visits.map Visit.node).count id := by
  induction visits with
  | nil => simp
  | cons v visits ih =>
    have hv := (hfits v List.mem_cons_self).length_filter_settles_le id
    have hvisits := ih fun w hw => hfits w (List.mem_cons_of_mem _ hw)
    simp only [List.flatMap_cons, List.filter_append, List.length_append, List.map_cons,
      List.count_cons, beq_iff_eq]
    omega

end Visits

/-- At the end of a route there is room left for one more visit. -/
theorem Route.length_entries_add_le (h : Route f budget visits id) (hsafe : f.IsSafe) :
    ((visits.flatMap Visit.entries).length : Int) + max 1 budget ≤
      f.nodes.length * max 1 budget := by
  have hnodes : (visits.length + 1 : Int) ≤ f.nodes.length := by
    have := h.length_lt hsafe
    omega
  calc ((visits.flatMap Visit.entries).length : Int) + max 1 budget
      ≤ visits.length * max 1 budget + max 1 budget :=
        Int.add_le_add_right (length_entries_le h.fits) _
    _ = (visits.length + 1) * max 1 budget := by rw [Int.add_mul, Int.one_mul]
    _ ≤ f.nodes.length * max 1 budget := Int.mul_le_mul_of_nonneg_right hnodes (by omega)

theorem UnderWay.length_lt (h : UnderWay f budget r visits tried) (hsafe : f.IsSafe) :
    (r.history.length : Int) < f.nodes.length * max 1 budget := by
  have hroom := h.route.length_entries_add_le hsafe
  have htried := h.retries.2
  rw [h.history, List.length_append]
  omega

theorem Over.length_le {last : Visit} (h : Over f budget r visits last) (hsafe : f.IsSafe) :
    (r.history.length : Int) ≤ f.nodes.length * max 1 budget := by
  have hroom := h.route.length_entries_add_le hsafe
  have hlast := h.fits.length_le
  rw [h.history, List.flatMap_append, List.length_append, List.flatMap_singleton]
  omega

theorem Trail.exists_visits (h : Trail f budget r) (hsafe : f.IsSafe) :
    ∃ (visits : List Visit) (tried : List HistoryEntry),
      r.history = visits.flatMap Visit.entries ++ tried ∧
      (∀ v ∈ visits, v.Fits f budget) ∧ (∀ e ∈ tried, e.outcome = .retry) ∧
      (∀ v ∈ visits, f.hasNode v.node = true) ∧ (visits.map Visit.node).Nodup := by
  rcases h with ⟨visits, tried, h, _⟩ | ⟨visits, last, h⟩
  · exact ⟨visits, tried, h.history, h.route.fits, fun e he => (h.retries.1 e he).2,
      h.route.hasNode_of_mem, (List.nodup_append.mp (h.route.nodup hsafe)).1⟩
  · have hfits : ∀ v ∈ visits ++ [last], v.Fits f budget :=
      List.forall_mem_append.mpr ⟨h.route.fits, List.forall_mem_singleton.mpr h.fits⟩
    have hlast := h.route.hasNode hsafe
    have hnodes : ∀ v ∈ visits ++ [last], f.hasNode v.node = true :=
      List.forall_mem_append.mpr ⟨h.route.hasNode_of_mem, List.forall_mem_singleton.mpr hlast⟩
    exact ⟨visits ++ [last], [], by simpa using h.history, hfits, nofun, hnodes,
      by simpa using h.route.nodup hsafe⟩

theorem Trail.ne_danglingEdge (h : Trail f budget r) (hsafe : f.IsSafe) :
    ∀ e ∈ r.history, e.outcome ≠ .danglingEdge := by
  obtain ⟨visits, tried, hhistory, hfits, hretries, hnodes, _⟩ := h.exists_visits hsafe
  intro e he
  rw [hhistory] at he
  rcases List.mem_append.mp he with he | he
  · obtain ⟨v, hv, he⟩ := List.mem_flatMap.mp he
    exact (hfits v hv).ne_danglingEdge (hnodes v hv) e he
  · simp [hretries e he]

theorem Trail.length_filter_settles_le (h : Trail f budget r) (hsafe : f.IsSafe) (id : String) :
    (r.history.filter (·.settles id)).length ≤ 1 := by
  obtain ⟨visits, tried, hhistory, hfits, hretries, _, hnodup⟩ := h.exists_visits hsafe
  have htried : tried.filter (·.settles id) = [] :=
    List.filter_eq_nil_iff.mpr fun e he => by simp [HistoryEntry.settles, hretries e he]
  rw [hhistory, List.filter_append, htried, List.append_nil]
  exact (length_filter_settles_le_count hfits).trans (List.nodup_iff_count_le_one.mp hnodup id)

namespace Run

/-- Whatever happens to a run through a funnel without violations, it visits no node twice, and it
has ended once it was eligible as often as the nodes and the attempts allow. -/
theorem Walk.bounded {k : Nat} (hvalid : f.violations = []) (hfresh : r.IsFresh f)
    (hwalk : r.Walk policy f k r') :
    (∀ e ∈ r'.history, e.outcome ≠ .danglingEdge) ∧
    (∀ id, (r'.history.filter (·.settles id)).length ≤ 1) ∧
    (r'.history.length : Int) ≤ f.nodes.length * max 1 policy.maxAttempts ∧
    ((f.nodes.length * max 1 policy.maxAttempts : Int) ≤ k → r'.isTerminal = true) := by
  have hsafe := Funnel.isSafe_of_violations hvalid
  have htrail := hwalk.trail hfresh
  have hk : r'.history.length = k := by simpa [hfresh.history] using hwalk.length_history
  refine ⟨htrail.ne_danglingEdge hsafe, htrail.length_filter_settles_le hsafe, ?_⟩
  rcases htrail with ⟨visits, tried, h, _⟩ | ⟨visits, last, h⟩
  · have hlength := h.length_lt hsafe
    exact ⟨by omega, by omega⟩
  · exact ⟨h.length_le hsafe, fun _ => h.isTerminal⟩

theorem welcome_bounded : ∃ k r', Funnel.welcome.violations = [] ∧ welcomeRun.IsFresh .welcome ∧
    welcomeRun.Walk ⟨3, 60⟩ .welcome k r' ∧ k = 6 ∧
    (∀ e ∈ r'.history, e.outcome ≠ .danglingEdge) ∧
    (∀ id, (r'.history.filter (·.settles id)).length ≤ 1) ∧
    (r'.history.length : Int) ≤ Funnel.welcome.nodes.length * max 1 3 ∧
    ((Funnel.welcome.nodes.length * max 1 3 : Int) ≤ k → r'.isTerminal = true) := by
  obtain ⟨k, r', hwalk, hk, _⟩ := welcomeRun_walk
  exact ⟨k, r', Funnel.welcome_violations, welcomeRun_isFresh, hwalk, hk,
    Walk.bounded Funnel.welcome_violations welcomeRun_isFresh hwalk⟩

end Run

end FunnelFlow
