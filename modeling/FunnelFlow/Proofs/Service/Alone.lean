import FunnelFlow.Proofs.Copying
import FunnelFlow.Proofs.Service.Holding

namespace FunnelFlow

open Activity Relation

/-- `held` is kept up while the lock is held, by the run `r₀` first and by all that is written, and
what is written last satisfies `given`. -/
structure Errand.Upholds (e : Errand) (r₀ : Run) (held : Bool → Run → Prop) (given : Run → Prop) :
    Prop where
  start : held false r₀
  step {written : Bool} {r r' : Run} (h : held written r) (hgoes : written = true → r.GoesOn)
    (hsteps : e.Steps r r') : held true r'
  close {written : Bool} {r r' : Run} (h : held written r) (hcloses : e.Closes written r r') :
    given r'

/-- What a grip says of the store, which was `m₀` when the errand began. -/
def Grip.Finds (e : Errand) (m₀ m : MemoryStore) (held : Bool → Run → Prop) (given : Run → Prop) :
    Grip → Prop
  | .apart => m = m₀
  | .refused => m = m₀ ∧ ∃ now, e.instant now ∧ m₀.isLocked e.run now ≠ .ok false
  | .holds _ written r => held written r
  | .gave r => r.id = e.run ∧ m.Stores r ∧ given r
  | .lost _ => False

namespace Errand

structure Alone (e : Errand) (m₀ : MemoryStore) (held : Bool → Run → Prop) (given : Run → Prop)
    (g : Grip) (m : MemoryStore) : Prop where
  sees : e.Sees g m
  funnels : m.funnels = m₀.funnels
  finds : g.Finds e m₀ m held given

variable {e : Errand} {m₀ : MemoryStore} {r₀ : Run} {held : Bool → Run → Prop} {given : Run → Prop}
  {s s' : Stored MemoryStore} {q : Request} {a : q.Answer}

theorem Alone.begun (hupholds : e.Upholds r₀ held given) (hid : r₀.id = e.run) (hr₀ : m₀.Stores r₀)
    (h : e.Alone m₀ held given .apart s.data) (hasks : e.asks .apart q) (hserved : Served q s a s')
    (hadmits : e.Admits q a) :
    ∃ g, e.replies .apart q a g ∧ e.Alone m₀ held given g s'.data := by
  obtain ⟨hsees, hfunnels, hfinds⟩ := h
  obtain rfl : s.data = m₀ := hfinds
  cases hserved with
  | outside hr =>
    cases q with
    | store call => exact absurd rfl (hr call)
    | clock => exact ⟨_, rfl, hsees, rfl, rfl⟩
    | token => exact ⟨_, ⟨hadmits, rfl⟩, hsees, rfl, rfl⟩
    | _ => exact hasks.elim
  | store call =>
    cases call with
    | acquireRun id owner now =>
      obtain ⟨rfl, howns, hnow⟩ := hasks
      have hanswer := MemoryStore.answer_acquireRun hr₀ owner now
      rw [hid] at hanswer
      rw [hanswer]
      rcases hlocked : s.data.isLocked e.run now with fault | locked
      · exact ⟨.refused, .inr ⟨⟨_, rfl⟩, rfl⟩, trivial, rfl, rfl, now, hnow, by simp [hlocked]⟩
      · cases locked with
        | true =>
          exact ⟨.refused, .inr ⟨⟨_, rfl⟩, rfl⟩, trivial, rfl, rfl, now, hnow, by simp [hlocked]⟩
        | false =>
          refine ⟨.holds owner false r₀, .inl ⟨r₀, rfl, hid, rfl⟩, ⟨howns, hid, hr₀, ?_⟩, rfl,
            hupholds.start⟩
          exact MemoryStore.runHolder_lockRun
    | _ => exact hasks.elim

variable {owner : String} {written : Bool} {r : Run}

theorem Alone.granted (hupholds : e.Upholds r₀ held given)
    (h : e.Alone m₀ held given (.holds owner written r) s.data)
    (hasks : e.asks (.holds owner written r) q) (hserved : Served q s a s')
    (hadmits : e.Admits q a) :
    ∃ g, e.grants owner written r q a g ∧ e.Alone m₀ held given g s'.data := by
  obtain ⟨hsees, hfunnels, hheld⟩ := h
  have hfunnels' : s'.data.funnels = m₀.funnels := by
    rcases hserved.changes with hkept | ⟨call, rfl, hchanges⟩
    · rw [hkept, hfunnels]
    · rw [(hsees.effect hasks hchanges).1, hfunnels]
  obtain ⟨g, hgrants, hsees', _⟩ := hsees.granted hasks hserved hadmits
  refine ⟨g, hgrants, hsees', hfunnels', ?_⟩
  cases q with
  | store call =>
    cases call with
    | getFunnel id =>
      obtain ⟨_, rfl⟩ := hgrants
      exact hheld
    | getRun id =>
      obtain ⟨_, rfl⟩ := hgrants
      exact hheld
    | saveRun r' by' =>
      obtain ⟨_, rfl⟩ := hgrants
      exact hupholds.step hheld hasks.2.1 hasks.2.2
    | releaseRun r' by' =>
      obtain ⟨_, rfl⟩ := hgrants
      obtain ⟨rfl, hcloses⟩ := hasks
      have hid' := hcloses.id_eq.trans hsees.2.1
      refine ⟨hid', ?_, hupholds.close hheld hcloses⟩
      cases hserved with
      | store call =>
        rw [MemoryStore.answer_releaseRun, hid', if_pos hsees.2.2.2]
        simp
      | outside hr => exact absurd rfl (hr _)
    | _ => exact hasks.elim
  | post address body =>
    obtain rfl := hgrants
    exact hheld
  | read address =>
    obtain ⟨_, rfl⟩ := hgrants
    exact hheld
  | _ => exact hasks.elim

/-- The protocol of an errand that works alone. Its definition is what the store reads. -/
theorem tracks_alone {admits : (q : Request) → q.Answer → Prop}
    (hupholds : e.Upholds r₀ held given) (hid : r₀.id = e.run) (hr₀ : m₀.Stores r₀)
    (hadmits : ∀ q a, (∀ call, q ≠ .store call) → admits q a → e.Admits q a)
    (hdefinition : ∀ (s : Stored MemoryStore) (r : Run), s.data.funnels = m₀.funnels →
      held false r → e.definition ((MemoryStore.answer (.getFunnel r.funnelId)).run s).1) :
    e.protocol.Tracks admits (e.Alone m₀ held given) := by
  rintro g q a s s' h hasks hserved hadm
  have hadm' : e.Admits q a := by
    cases hserved with
    | outside hr => exact hadmits q a hr hadm
    | store call =>
      cases call with
      | getFunnel id =>
        cases g with
        | holds owner written r =>
          obtain ⟨rfl, rfl⟩ := hasks
          exact hdefinition s r h.funnels h.finds
        | lost owner => exact h.finds.elim
        | _ => exact hasks.elim
      | _ => trivial
  cases g with
  | apart => exact h.begun hupholds hid hr₀ hasks hserved hadm'
  | holds owner written r =>
    obtain ⟨g', hgrants, h'⟩ := h.granted hupholds hasks hserved hadm'
    exact ⟨g', .inl hgrants, h'⟩
  | lost owner => exact h.finds.elim
  | refused => exact hasks.elim
  | gave r => exact hasks.elim

theorem alone_apart (hid : r₀.id = e.run) (hr₀ : m₀.Stores r₀) :
    e.Alone m₀ held given .apart m₀ :=
  ⟨sees_apart hid hr₀, rfl, rfl⟩

theorem Alone.exists_stored {g : Grip} {m : MemoryStore} (h : e.Alone m₀ held given g m)
    (hid : r₀.id = e.run) (hr₀ : m₀.Stores r₀) :
    ∃ r, r.id = e.run ∧ m.Stores r ∧ (r = r₀ ∨ (∃ written, held written r) ∨ given r) := by
  obtain ⟨hsees, _, hfinds⟩ := h
  cases g with
  | apart => exact ⟨r₀, hid, hfinds ▸ hr₀, .inl rfl⟩
  | refused => exact ⟨r₀, hid, hfinds.1 ▸ hr₀, .inl rfl⟩
  | holds owner written r => exact ⟨r, hsees.2.1, hsees.2.2.1, .inr (.inl ⟨written, hfinds⟩)⟩
  | gave r => exact ⟨r, hfinds.1, hfinds.2.1, .inr (.inr hfinds.2.2)⟩
  | lost owner => exact hfinds.elim

theorem Alone.effect {g : Grip} (h : e.Alone m₀ held given g s.data) (hid : r₀.id = e.run)
    (hr₀ : m₀.Stores r₀) (hasks : e.asks g q) (hserved : Served q s a s') :
    ∃ r r' : Run, r.id = e.run ∧ r'.id = e.run ∧ s.data.Stores r ∧ s'.data.Stores r' ∧
      (r' = r ∨ ∃ written, held written r ∧ e.Writes written r r') := by
  obtain ⟨r, hrun, hstores, _⟩ := h.exists_stored hid hr₀
  rcases hserved.changes with hkept | ⟨call, rfl, hchanges⟩
  · exact ⟨r, r, hrun, hrun, hstores, hkept ▸ hstores, .inl rfl⟩
  · obtain ⟨_, hruns | ⟨_, written, r, r', rfl, hruns, hwrites⟩⟩ := h.sees.effect hasks hchanges
    · exact ⟨r, r, hrun, hrun, hstores, hstores.congr (by rw [hruns]), .inl rfl⟩
    · obtain ⟨_, hrun, hstores, _⟩ := h.sees
      exact ⟨r, r', hrun, hwrites.id_eq.trans hrun, hstores,
        MemoryStore.stores_putRun.congr (by rw [hruns]), .inr ⟨written, h.finds, hwrites⟩⟩

theorem copies_alone {levels : Nat} (hid : r₀.id = e.run) (hr₀ : m₀.Stores r₀)
    (hr₀_shallow : r₀.payload.IsShallow levels)
    (hheld : ∀ written r, held written r → r.payload.IsShallow levels) :
    e.protocol.CopiesWithin levels (e.Alone m₀ held given) := by
  intro g call m h hasks
  cases g with
  | apart =>
    obtain rfl : m = m₀ := h.finds
    cases call with
    | acquireRun id owner now =>
      obtain rfl : id = r₀.id := hasks.1.trans hid.symm
      exact hr₀.copiesBeyond_acquireRun hr₀_shallow owner now
    | _ => exact hasks.elim
  | holds owner written r =>
    have hshallow := hheld written r h.finds
    cases call with
    | getFunnel id => rfl
    | getRun id =>
      obtain rfl : id = r.id := hasks.trans h.sees.2.1.symm
      exact h.sees.2.2.1.copiesBeyond_getRun hshallow
    | saveRun r' by' =>
      have hpayload : r'.payload = r.payload := congrArg Run.Origin.payload hasks.2.2.origin_eq
      exact MemoryStore.copiesBeyond_of_writes rfl (hpayload ▸ hshallow)
    | releaseRun r' by' =>
      have hpayload : r'.payload = r.payload := congrArg Run.Origin.payload hasks.2.origin_eq
      exact MemoryStore.copiesBeyond_of_writes rfl (hpayload ▸ hshallow)
    | _ => exact hasks.elim
  | lost owner => exact h.finds.elim
  | _ => exact hasks.elim

end Errand

namespace Task

variable {task : Task} {x : Execution} {r : Run} {now? : Option Instant} {levels : Nat}
  {admits : (q : Request) → q.Answer → Prop} {s : Stored MemoryStore}

/-- An execution, or a cancellation, that has the store to itself and of which nothing else is
known. -/
def lone (task : Task) (x : Execution) (r : Run) : Errand := task.errand x r.id fun _ => True

def IsCopy (r : Run) (_written : Bool) (r' : Run) : Prop := r'.payload = r.payload

theorem lone_upholds : (task.lone x r).Upholds r (IsCopy r) fun _ => True where
  start := rfl
  step h _ hsteps := (congrArg Run.Origin.payload hsteps.origin_eq).trans h
  close _ _ := trivial

theorem lone_tracks (hstores : s.data.Stores r) : (task.lone x r).protocol.Tracks admits
    ((task.lone x r).Alone s.data (IsCopy r) fun _ => True) :=
  Errand.tracks_alone lone_upholds rfl hstores (fun q a _ _ => task.errand_admits x r.id q a)
    fun _ _ _ _ => trivial

theorem lone_copies (hstores : s.data.Stores r) (hshallow : r.payload.IsShallow levels) :
    (task.lone x r).protocol.CopiesWithin levels
      ((task.lone x r).Alone s.data (IsCopy r) fun _ => True) :=
  Errand.copies_alone rfl hstores hshallow fun _ _ h => h ▸ hshallow

theorem lone_follows (task : Task) (x : Execution) (r : Run) (now? : Option Instant) : (task.activity x r.id now?).Follows (task.lone x r).protocol
    (task.lone x r).Ends .apart :=
  activity_follows

/-- If its run can be copied, an execution or a cancellation that has the store to itself gets on as
on a store whose copies never fail. -/
theorem reaches_of_isShallow {y : Moment Run} (hstores : s.data.Stores r)
    (hshallow : r.payload.IsShallow levels)
    (h : ReflTransGen (AdvancesWithin levels admits) (task.activity x r.id now?, s) y) :
    ReflTransGen (Advances admits) (task.activity x r.id now?, s) y :=
  (lone_follows task x r now?).reaches_within (lone_tracks hstores) (lone_copies hstores hshallow)
    (Errand.alone_apart rfl hstores) h

theorem advances_of_isShallow {y z : Moment Run} (hstores : s.data.Stores r)
    (hshallow : r.payload.IsShallow levels)
    (h : ReflTransGen (AdvancesWithin levels admits) (task.activity x r.id now?, s) y)
    (hnext : AdvancesWithin levels admits y z) : Advances admits y z := by
  have hreaches := reaches_of_isShallow hstores hshallow h
  obtain ⟨g, _, hrel, hfollows⟩ := (lone_follows task x r now?).reaches (lone_tracks hstores)
    (Errand.alone_apart rfl hstores) hreaches
  exact hfollows.advance_within (lone_copies hstores hshallow) hrel hnext

theorem logged_of_isShallow {log : Log} {result : Except Fault Run} {s' : Stored MemoryStore}
    (hstores : s.data.Stores r) (hshallow : r.payload.IsShallow levels)
    (h : (task.activity x r.id now?).LoggedWithin levels s log result s') :
    (task.activity x r.id now?).Logged s log result s' :=
  (lone_follows task x r now?).logged_within (lone_tracks hstores) (lone_copies hstores hshallow)
    (Errand.alone_apart rfl hstores) h

end Task

end FunnelFlow
