import FunnelFlow.Proofs.Funnel.WellFormed
import FunnelFlow.Proofs.Run.Timely
import FunnelFlow.Proofs.Service.Alone
import FunnelFlow.Proofs.Service.Discipline
import FunnelFlow.Proofs.Store.Memory
import FunnelFlow.Proofs.Value.Reader

/-!
What an execution leaves behind. It takes its run at least one step further and ends without a
fault, as long as no delay lasts beyond the calendar, no contact has an attribute that is too large
an integer for a double, and the run can be copied.
-/

namespace FunnelFlow

open Activity Relation

def Funnel.DelaysEnd (f : Funnel) (now : Instant) : Prop :=
  ∀ n ∈ f.nodes, ∀ hours next, n.action = .delay hours (some next) →
    now.wall + hours * 3600000000 < Calendar.wallEnd

namespace Funnel

variable {f : Funnel} {now : Instant}

theorem isTimely_of_violations (hvalid : f.violations = []) (hdelays : f.DelaysEnd now) :
    f.IsTimely now where
  hours_pos {n hours next} hn haction := by
    have hcomplete := (violations_eq_nil_iff_wellFormed f).mp hvalid |>.complete n hn
    rwa [Node.IsComplete, haction] at hcomplete
  hours_lt hn haction := hdelays _ hn _ _ haction

theorem IsTimely.reread (h : f.IsTimely now) (fresh : String) : (f.reread fresh).IsTimely now := by
  have hdelay {n : Node} {hours : Int} {next : Option String} (hn : n ∈ (f.reread fresh).nodes)
      (haction : n.action = .delay hours next) : ∃ m ∈ f.nodes, ∃ before,
        m.action = .delay hours before ∧ Action.rereadReference before = next := by
    obtain ⟨m, hm, rfl⟩ := List.mem_map.mp hn
    refine ⟨m, hm, ?_⟩
    cases hm' : m.action <;> simp_all [Node.reread, Action.reread]
  constructor
  · intro n hours next hn haction
    obtain ⟨m, hm, before, hbefore, _⟩ := hdelay hn haction
    exact h.hours_pos hm hbefore
  · intro n hours next hn haction
    obtain ⟨m, hm, before, hbefore, hnext⟩ := hdelay hn haction
    obtain rfl : before = some next := (Option.filter_eq_some_iff.mp hnext).1
    exact h.hours_lt hm hbefore

end Funnel

namespace Run

variable {f : Funnel} {now : Instant} {r r' : Run}

theorem MovesOn.of_resume (h : (r.resume now).MovesOn f now r') : r.MovesOn f now r' :=
  ⟨by simpa using h.recorded, by simpa using h.left⟩

theorem MovesOn.of_reread {fresh : String} (h : r.MovesOn (f.reread fresh) now r') :
    r.MovesOn f now r' :=
  ⟨h.recorded, h.left.imp_right (Or.imp_right (Or.imp_right (And.imp_right .of_reread)))⟩

theorem MovesOn.orphan (hterminal : r.isTerminal = false) :
    r.MovesOn f now (Execution.orphan r now) := by
  rw [Execution.orphan, if_neg (by simp [hterminal])]
  exact ⟨⟨_, _, rfl⟩, .inl rfl⟩

theorem IsWellFormed.orphan (h : r.IsWellFormed) (now : Instant) :
    (Execution.orphan r now).IsWellFormed := by
  unfold Execution.orphan
  split
  · exact h
  · exact ⟨h.resumeAt, h.nextAttemptAt, h.attempts⟩

/-- The run is as some step left it that was made since it was `r₀`. -/
def Stepped (f : Funnel) (now : Instant) (r₀ r : Run) : Prop :=
  ∃ before : Run, r₀.history <+: before.history ∧ before.MovesOn f now r

theorem Stepped.isPrefix (h : Stepped f now r r') : r.history <+: r'.history := by
  obtain ⟨before, hprefix, hmoves⟩ := h
  obtain ⟨_, _, hhistory⟩ := hmoves.recorded
  exact hprefix.trans ⟨_, hhistory.symm⟩

end Run

namespace Execution

/-- The contact service gives no attribute that is too large an integer for a double. -/
def Measures : (q : Request) → q.Answer → Prop
  | .read address, a => ∀ entries, ContactBook.judge address a = .ok entries →
    ∀ key, ¬ (entries.fields.get key).IsOversized
  | _, _ => True

/-- An execution at a given instant of a run whose definition is the document of a funnel. -/
def steady (x : Execution) (id : String) (f : Funnel) (now : Instant) : Errand :=
  { Task.execute.errand x id fun _ => True with
    instant := (· = now)
    definition := fun a => ∃ fresh, a = .ok (some (f.reread fresh))
    attributes := Fields.AreMeasurable }

section Steady

variable {x : Execution} {f : Funnel} {now : Instant} {r₀ r r' : Run} {id : String} {written : Bool}

theorem exists_progress (h : (x.steady id f now).Steps r r') : r.isEligible now = .ok true ∧
    ∃ fresh, Run.Progress x.policy (f.reread fresh) now (r.resume now) r' := by
  obtain ⟨now', f', hnow, ⟨fresh, hf'⟩, heligible, hprogress⟩ := h
  obtain rfl : now' = now := hnow
  obtain rfl : f' = f.reread fresh := Option.some.inj (Except.ok.inj hf')
  exact ⟨heligible, fresh, hprogress⟩

variable (hpolicy : x.policy = ⟨3, 60⟩) (hnow : now.IsOfNow) (hf : f.IsTimely now)
include hpolicy hf

theorem movesOn_of_steps (hwell : r.IsWellFormed) (h : (x.steady id f now).Steps r r') :
    r.MovesOn f now r' := by
  obtain ⟨heligible, fresh, hprogress⟩ := exists_progress h
  have hstatus : (r.resume now).status = .running :=
    Run.resume_status (Run.isTerminal_eq_false_of_isEligible heligible)
  rw [hpolicy] at hprogress
  have hattempts := (hwell.resume now).attempts
  exact (hprogress.movesOn hstatus hattempts (hf.reread fresh)).of_reread.of_resume

include hnow

theorem not_fails (hwell : r.IsWellFormed) : ¬ (x.steady id f now).Fails r := by
  rintro (⟨_, _, ⟨⟩⟩ | ⟨now', f', hnow', ⟨fresh, hf'⟩, hstuck⟩)
  obtain rfl : now' = now := hnow'
  obtain rfl : f' = f.reread fresh := Option.some.inj (Except.ok.inj hf')
  rw [show (x.steady id f now').policy = ⟨3, 60⟩ from hpolicy] at hstuck
  exact hwell.not_stuck hnow (hf.reread fresh) hstuck

structure IsSteady (f : Funnel) (now : Instant) (r₀ : Run) (written : Bool) (r : Run) : Prop where
  well : r.IsWellFormed
  first : written = false → r = r₀
  later : written = true → r₀.Stepped f now r

theorem steady_upholds (hwell : r₀.IsWellFormed) (heligible : r₀.isEligible now = .ok true) :
    (x.steady r₀.id f now).Upholds r₀ (IsSteady f now r₀)
      (fun r => r.IsWellFormed ∧ r₀.Stepped f now r) where
  start := ⟨hwell, fun _ => rfl, nofun⟩
  step {written r r'} h _ hsteps := by
    have hprefix : r₀.history <+: r.history := by
      cases written with
      | false => exact h.first rfl ▸ List.prefix_rfl
      | true => exact (h.later rfl).isPrefix
    obtain ⟨_, fresh, hprogress⟩ := exists_progress hsteps
    exact ⟨(h.well.resume now).progress hnow.zone hprogress, nofun,
      fun _ => ⟨r, hprefix, movesOn_of_steps hpolicy hf h.well hsteps⟩⟩
  close {written r r'} h hcloses := by
    cases written with
    | true =>
      rcases hcloses with ⟨rfl, _⟩ | ⟨⟨⟩, _⟩
      exact ⟨h.well, h.later rfl⟩
    | false =>
      -- an execution writes its run at least once: it was eligible, and none of its steps fails
      obtain rfl := h.first rfl
      rcases hcloses with ⟨rfl, hwritten | ⟨now', hnow', hidle⟩ | hfails⟩ | ⟨_, now', hnow', rfl⟩
      · cases hwritten
      · obtain rfl : now' = now := hnow'
        cases heligible.symm.trans hidle
      · exact absurd hfails (not_fails hpolicy hnow hf hwell)
      · obtain rfl : now' = now := hnow'
        have hterminal := Run.isTerminal_eq_false_of_isEligible heligible
        exact ⟨hwell.orphan now', r, List.prefix_rfl, .orphan hterminal⟩

omit hnow in
theorem movesOn_of_writes (heligible : r₀.isEligible now = .ok true)
    (h : IsSteady f now r₀ written r) (hwrites : (x.steady r₀.id f now).Writes written r r') :
    r' = r ∨ r.MovesOn f now r' := by
  rcases hwrites with ⟨_, hsteps⟩ | ⟨rfl, _⟩ | ⟨hwritten, now', hnow', rfl⟩
  · exact .inr (movesOn_of_steps hpolicy hf h.well hsteps)
  · exact .inl rfl
  · obtain rfl := h.first hwritten
    obtain rfl : now' = now := hnow'
    exact .inr (.orphan (Run.isTerminal_eq_false_of_isEligible heligible))

end Steady

theorem still_measures (now : Instant) (token : String) (q : Request) (s : Stored MemoryStore) :
    Measures q (still now token q s).1 := by
  cases q with
  | read address => exact fun _ => nofun
  | _ => trivial

/-- An execution whose run is to be stepped and not locked, and whose funnel has no violations.
Messages are tried as often, and after such pauses, as they are by default. -/
structure IsDue (x : Execution) (f : Funnel) (now : Instant) (s : Stored MemoryStore) (r : Run) :
    Prop where
  policy : x.policy = ⟨3, 60⟩
  valid : f.violations = []
  ofNow : now.IsOfNow
  stores : s.data.Stores r
  funnel : s.data.funnels.get? r.funnelId = some (.object f.toDocument)
  well : r.IsWellFormed
  eligible : r.isEligible now = .ok true
  free : s.data.isLocked r.id now = .ok false

namespace IsDue

variable {x : Execution} {f : Funnel} {now : Instant} {s s' : Stored MemoryStore} {r : Run}
  {rest : Activity Run}

theorem exists_grip (h : x.IsDue f now s r) (hdelays : f.DelaysEnd now)
    (hreaches : ReflTransGen (Advances Measures) (x.execute r.id (some now), s) (rest, s')) :
    ∃ g, (x.steady r.id f now).Alone s.data (IsSteady f now r)
        (fun r' => r'.IsWellFormed ∧ r.Stepped f now r') g s'.data ∧
      rest.Follows (x.steady r.id f now).protocol (x.steady r.id f now).Ends g := by
  have hf := Funnel.isTimely_of_violations h.valid hdelays
  have hupholds := steady_upholds (x := x) h.policy h.ofNow hf h.well h.eligible
  have htracks : (x.steady r.id f now).protocol.Tracks Measures
      ((x.steady r.id f now).Alone s.data _ _) :=
    Errand.tracks_alone hupholds rfl h.stores ?admits ?definition
  case admits =>
    intro q a hq hmeasures
    cases q with
    | store call => exact absurd rfl (hq call)
    | read address =>
      exact fun entries hentries key =>
        ⟨hmeasures entries hentries key, ContactBook.judge_not_isLong hentries key⟩
    | _ => trivial
  case definition =>
    intro s₁ r₁ hfunnels h₁
    obtain rfl := h₁.first rfl
    have hfunnel := h.funnel
    rw [← hfunnels] at hfunnel
    obtain ⟨_, _, hread, fresh, rfl⟩ := MemoryStore.getFunnel_reads_some hfunnel
    exact ⟨fresh, congrArg Prod.fst hread⟩
  have hfollows : (x.execute r.id (some now)).Follows (x.steady r.id f now).protocol
      (x.steady r.id f now).Ends .apart :=
    execute_follows Fields.areMeasurable_nil rfl rfl rfl rfl
  obtain ⟨g, _, halone, hfollows'⟩ :=
    hfollows.reaches htracks (Errand.alone_apart rfl h.stores) hreaches
  exact ⟨g, halone, hfollows'⟩

theorem ends {result : Except Fault Run} (h : x.IsDue f now s r) (hdelays : f.DelaysEnd now)
    (hreaches : ReflTransGen (Advances Measures) (x.execute r.id (some now), s)
      (.done result, s')) :
    ∃ r', result = .ok r' ∧ r'.id = r.id ∧ s'.data.Stores r' ∧ r.Stepped f now r' := by
  obtain ⟨g, halone, hends⟩ := h.exists_grip hdelays hreaches
  have hfinds := halone.finds
  cases g with
  | gave r' =>
    obtain ⟨hid, hstores', hwell, hstepped⟩ := hfinds
    have hf := Funnel.isTimely_of_violations h.valid hdelays
    refine ⟨r', ?_, hid, hstores', hstepped⟩
    exact hends.resolve_right fun hfails => not_fails h.policy h.ofNow hf hwell hfails.2
  | refused =>
    obtain ⟨_, now', hnow', hlocked⟩ := hfinds
    obtain rfl : now' = now := hnow'
    exact absurd h.free hlocked
  | lost owner => exact hfinds.elim
  | _ => exact hends.elim

/-- Whatever the execution of a due run that can be copied is answered, it comes to its end without
a fault. Each of its steps takes the run further, or leaves it in a state that it will leave later,
and in the end the run is as such a step left it. -/
theorem goes_on {levels : Nat} (h : x.IsDue f now s r) (hdelays : f.DelaysEnd now)
    (hshallow : r.payload.IsShallow levels)
    (hreaches : ReflTransGen (AdvancesWithin levels Measures) (x.execute r.id (some now), s)
      (rest, s')) :
    (∀ rest' s'', AdvancesWithin levels Measures (rest, s') (rest', s'') → ∃ r₁ r₂, r₁.id = r.id ∧
      r₂.id = r.id ∧ s'.data.Stores r₁ ∧ s''.data.Stores r₂ ∧ (r₂ = r₁ ∨ r₁.MovesOn f now r₂)) ∧
    (∀ result, rest = .done result →
      ∃ r', result = .ok r' ∧ r'.id = r.id ∧ s'.data.Stores r' ∧ r.Stepped f now r') ∧
    ∃ r' s'', ReflTransGen (AdvancesWithin levels Measures) (rest, s') (.done (.ok r'), s'') := by
  have hplain : ReflTransGen (Advances Measures) (x.execute r.id (some now), s) (rest, s') :=
    Task.execute.reaches_of_isShallow h.stores hshallow hreaches
  refine ⟨fun rest' s'' hadvances => ?_, ?_, ?_⟩
  · obtain ⟨g, halone, hfollows⟩ := h.exists_grip hdelays hplain
    have hadvances' : Advances Measures (rest, s') (rest', s'') :=
      Task.execute.advances_of_isShallow h.stores hshallow hreaches hadvances
    cases hadvances' with
    | answered hserved _ =>
      obtain ⟨r₁, r₂, hid₁, hid₂, hstores₁, hstores₂, hsame | ⟨written, hheld, hwrites⟩⟩ :=
        halone.effect rfl h.stores hfollows.1 hserved
      · exact ⟨r₁, r₂, hid₁, hid₂, hstores₁, hstores₂, .inl hsame⟩
      · have hf := Funnel.isTimely_of_violations h.valid hdelays
        exact ⟨r₁, r₂, hid₁, hid₂, hstores₁, hstores₂,
          movesOn_of_writes h.policy hf h.eligible hheld hwrites⟩
  · rintro result rfl
    exact h.ends hdelays hplain
  · have hend := run_reaches (still_served now "token") (still_measures now "token") rest s'
    obtain ⟨r', hresult, _⟩ := h.ends hdelays (hplain.trans hend)
    exact ⟨r', _, hresult ▸ reaches_within levels hend⟩

end IsDue

end Execution

namespace Service

open Execution

def morning : Instant := ⟨63850000000000000, none⟩

def startedRun (hours : Int) : Run := subscribed.start (reminder hours) "run" morning

def beforeDelay (hours : Int) : Stored MemoryStore :=
  ⟨.first, (keeping (reminder hours)).putRun (startedRun hours)⟩

theorem beforeDelay_isDue {hours : Int} (hvalid : (reminder hours).violations = []) :
    worker.IsDue (stamped (reminder hours)) morning (beforeDelay hours) (startedRun hours) where
  policy := rfl
  valid := by
    rw [← hvalid]
    exact Funnel.violations_congr rfl
  ofNow := ⟨rfl, by decide, by decide⟩
  stores := MemoryStore.stores_putRun
  funnel := rfl
  well := ⟨nofun, nofun, Int.le_refl 0⟩
  eligible := rfl
  free := rfl

def afterDelay (hours : Int) : Except Fault Run × Stored MemoryStore :=
  (worker.execute "run" (some morning)).run (still morning "token") (beforeDelay hours)

theorem reaches_afterDelay {admits : (q : Request) → q.Answer → Prop}
    (hadmits : ∀ q s, admits q (still morning "token" q s).1) (hours : Int) :
    ReflTransGen (Advances admits) (worker.execute "run" (some morning), beforeDelay hours)
      (.done (afterDelay hours).1, (afterDelay hours).2) :=
  run_reaches (still_served morning "token") hadmits _ _

theorem day_delaysEnd : (stamped (reminder 24)).DelaysEnd morning := by
  intro n hn hours next haction
  rcases List.mem_cons.mp hn with rfl | hn
  · cases haction
    decide
  · obtain rfl := List.mem_singleton.mp hn
    cases haction

theorem day_goes_on :
    worker.IsDue (stamped (reminder 24)) morning (beforeDelay 24) (startedRun 24) ∧
    (stamped (reminder 24)).DelaysEnd morning ∧ (startedRun 24).payload.IsShallow 4 ∧
    ReflTransGen (AdvancesWithin 4 Measures) (worker.execute "run" (some morning), beforeDelay 24)
      (.done (afterDelay 24).1, (afterDelay 24).2) ∧
    ∃ r', (afterDelay 24).1 = .ok r' ∧ r'.id = "run" ∧ (afterDelay 24).2.data.Stores r' ∧
      (startedRun 24).Stepped (stamped (reminder 24)) morning r' := by
  have hdue := beforeDelay_isDue reminder_violations
  have hshallow : (startedRun 24).payload.IsShallow 4 := by decide
  have hreaches := reaches_within 4 (reaches_afterDelay (still_measures morning "token") 24)
  exact ⟨hdue, day_delaysEnd, hshallow, hreaches,
    (hdue.goes_on day_delaysEnd hshallow hreaches).2.1 _ rfl⟩

/-- The validation does not mind a delay of eleven thousand years, but the calendar does. -/
theorem not_always_steady : ¬ ∀ (x : Execution) (f : Funnel) (now : Instant)
      (s s' : Stored MemoryStore) (r : Run) (result : Except Fault Run), x.IsDue f now s r →
    ReflTransGen (Advances fun _ _ => True) (x.execute r.id (some now), s) (.done result, s') →
    ∃ r', result = .ok r' := by
  intro h
  obtain ⟨r', hr'⟩ := h _ _ _ _ _ _ _ (beforeDelay_isDue endless_violations)
    (reaches_afterDelay (fun _ _ => trivial) 100000000)
  have hfault : (afterDelay 100000000).1 =
    .error (.failedWhile (.executingRun "run") (.span .outsideCalendar)) := rfl
  cases hfault.symm.trans hr'

end Service

end FunnelFlow
