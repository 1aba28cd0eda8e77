import FunnelFlow.Service.ContactBook
import FunnelFlow.Proofs.Protocol
import FunnelFlow.Proofs.Run.Step
import FunnelFlow.Proofs.Store.Copying

/-!
What an execution, or a cancellation, does with the run that it locks. It writes nothing but steps
of the run that it knows, and gives the lock back in the end. It may lose the lock to another at any
moment; then all that it still writes is refused, and it ends with that refusal.
-/

namespace FunnelFlow

open Activity

/-- Something to be done with a run under its lock, and what may be counted on: under which names
it is locked, at which instants, as what its definition is read, and which attributes are given. -/
structure Errand where
  run : String
  name : String → String
  owns : String → Prop
  instant : Instant → Prop
  definition : Except Fault (Option Funnel) → Prop
  attributes : Fields → Prop
  policy : RetryPolicy
  /-- How the run is ended without a step. -/
  close : Run → Instant → Run
  close_origin : ∀ r now, (close r now).origin = r.origin

/-- Where an errand is with its run. The run that it holds is the one that is stored. -/
inductive Grip where
  | apart
  | refused
  | holds (owner : String) (written : Bool) (run : Run)
  | gave (run : Run)
  | lost (owner : String)

def Grip.Holds (owner : String) : Grip → Prop
  | .holds owner' _ _ => owner' = owner
  | _ => False

namespace Errand

variable (e : Errand)

def Steps (r r' : Run) : Prop :=
  ∃ now f, e.instant now ∧ e.definition (.ok (some f)) ∧ r.isEligible now = .ok true ∧
    Run.Progress e.policy f now (r.resume now) r'

def Fails (r : Run) : Prop :=
  (∃ fault, e.definition (.error fault)) ∨
    ∃ now f, e.instant now ∧ e.definition (.ok (some f)) ∧ r.Stuck e.policy f now e.attributes

/-- What is written when the lock is given back: the run as it is, if it was written before or
there is nothing to be done, or the run as it is closed. -/
def Closes (written : Bool) (r r' : Run) : Prop :=
  r' = r ∧ (written = true ∨ (∃ now, e.instant now ∧ r.isEligible now = .ok false) ∨ e.Fails r) ∨
    written = false ∧ ∃ now, e.instant now ∧ r' = e.close r now

def Writes (written : Bool) (r r' : Run) : Prop :=
  (written = true → r.GoesOn) ∧ e.Steps r r' ∨ e.Closes written r r'

def asks : Grip → Request → Prop
  | .apart, .clock => ∀ now, e.instant now
  | .apart, .token => True
  | .apart, .store (.acquireRun id owner now) => id = e.run ∧ e.owns owner ∧ e.instant now
  | .holds _ written r, .store (.getFunnel id) => written = false ∧ id = r.funnelId
  | .holds _ _ _, .store (.getRun id) => id = e.run
  | .holds owner written r, .store (.saveRun r' by') =>
    by' = owner ∧ (written = true → r.GoesOn) ∧ e.Steps r r'
  | .holds owner written r, .store (.releaseRun r' by') => by' = owner ∧ e.Closes written r r'
  | .lost _, .store (.getFunnel _) => True
  | .lost _, .store (.getRun id) => id = e.run
  | .lost owner, .store (.saveRun r by') => by' = owner ∧ r.id = e.run
  | .lost owner, .store (.releaseRun r by') => by' = owner ∧ r.id = e.run
  | .holds _ _ _, .post _ _ => True
  | .holds _ _ _, .read _ => True
  | .lost _, .post _ _ => True
  | .lost _, .read _ => True
  | _, _ => False

def Reads (address : String) (a : Reply) : Prop :=
  ∀ entries, ContactBook.judge address a = .ok entries → e.attributes entries.fields

/-- How the holder of a lock is answered, and what it holds then. -/
def grants (owner : String) (written : Bool) (r : Run) : (q : Request) → q.Answer → Grip → Prop
  | .store (.getFunnel _), a, g => e.definition a ∧ g = .holds owner written r
  | .store (.getRun _), a, g => a = .ok (some r) ∧ g = .holds owner written r
  | .store (.saveRun r' _), a, g => a = .ok r' ∧ g = .holds owner true r'
  | .store (.releaseRun r' _), a, g => a = .ok r' ∧ g = .gave r'
  | .read address, a, g => e.Reads address a ∧ g = .holds owner written r
  | _, _, g => g = .holds owner written r

def denies (owner : String) : (q : Request) → q.Answer → Prop
  | .store (.getFunnel _), a => e.definition a
  | .store (.getRun _), a => ∃ r, a = .ok (some r) ∧ r.id = e.run
  | .store (.saveRun _ _), a => a = .error (.runNotHeld e.run owner)
  | .store (.releaseRun _ _), a => a = .error (.runNotHeld e.run owner)
  | .read address, a => e.Reads address a
  | _, _ => True

def replies : Grip → (q : Request) → q.Answer → Grip → Prop
  | .apart, .token, a, g => e.owns (e.name a) ∧ g = .apart
  | .apart, .store (.acquireRun _ owner _), a, g =>
    (∃ r, a = .ok r ∧ r.id = e.run ∧ g = .holds owner false r) ∨
      (∃ fault, a = .error fault) ∧ g = .refused
  | .apart, _, _, g => g = .apart
  | .holds owner written r, q, a, g =>
    e.grants owner written r q a g ∨ e.denies owner q a ∧ g = .lost owner
  | .lost owner, q, a, g => e.denies owner q a ∧ g = .lost owner
  | _, _, _, _ => False

def protocol : Protocol Grip := ⟨e.asks, e.replies⟩

/-- How an errand can end. Whoever lost the lock is told so. -/
def Ends : Grip → Except Fault Run → Prop
  | .refused, result => ∃ fault, result = .error fault
  | .gave r, result => result = .ok r ∨ (∃ fault, result = .error fault) ∧ e.Fails r
  | .lost owner, result => result = .error (.runNotHeld e.run owner)
  | _, _ => False

variable {e : Errand} {owner : String} {written : Bool} {r r' : Run}

theorem Steps.origin_eq (h : e.Steps r r') : r'.origin = r.origin := by
  obtain ⟨now, f, _, _, _, hprogress⟩ := h
  rw [hprogress.origin_eq, Run.resume_origin]

theorem Closes.origin_eq (h : e.Closes written r r') : r'.origin = r.origin := by
  rcases h with ⟨rfl, _⟩ | ⟨_, now, _, rfl⟩
  · rfl
  · exact e.close_origin r now

theorem Steps.id_eq (h : e.Steps r r') : r'.id = r.id :=
  congrArg Run.Origin.id h.origin_eq

theorem Closes.id_eq (h : e.Closes written r r') : r'.id = r.id :=
  congrArg Run.Origin.id h.origin_eq

theorem Writes.id_eq (h : e.Writes written r r') : r'.id = r.id := by
  rcases h with ⟨_, hsteps⟩ | hcloses
  · exact hsteps.id_eq
  · exact hcloses.id_eq

theorem asks_lost {q : Request} (h : e.asks (.holds owner written r) q) (hid : r.id = e.run) :
    e.asks (.lost owner) q := by
  cases q with
  | store call =>
    cases call with
    | getFunnel id => trivial
    | getRun id => exact h
    | saveRun r' by' => exact ⟨h.1, h.2.2.id_eq.trans hid⟩
    | releaseRun r' by' => exact ⟨h.1, h.2.id_eq.trans hid⟩
    | _ => exact h
  | _ => exact h

/-- Whoever holds the lock can lose it without noticing before the next request. -/
theorem lose {act : Activity Run} (h : act.Follows e.protocol e.Ends (.holds owner written r))
    (hid : r.id = e.run) : act.Follows e.protocol e.Ends (.lost owner) := by
  cases act with
  | done result => exact h.elim
  | ask q resume => exact ⟨asks_lost h.1 hid, fun a g' ha => h.2 a g' (.inr ha)⟩

def Sees (e : Errand) : Grip → MemoryStore → Prop
  | .apart, m => ∀ document, m.runs.get? e.run = some document →
    ∃ r : Run, r.id = e.run ∧ document = .object r.toDocument
  | .holds owner _ r, m =>
    e.owns owner ∧ r.id = e.run ∧ m.Stores r ∧ m.runHolder e.run = some owner
  | .lost owner, m =>
    e.owns owner ∧ m.runHolder e.run ≠ some owner ∧ ∃ r : Run, r.id = e.run ∧ m.Stores r
  | _, _ => True

theorem sees_apart {m : MemoryStore} (hid : r.id = e.run) (h : m.Stores r) : e.Sees .apart m := by
  intro document hdocument
  rw [MemoryStore.Stores, hid, hdocument] at h
  exact ⟨r, hid, Option.some.inj h⟩

def Admits (e : Errand) : (q : Request) → q.Answer → Prop
  | .token, a => e.owns (e.name a)
  | .read address, a => e.Reads address a
  | .store (.getFunnel _), a => e.definition a
  | _, _ => True

/-- All that an errand does to the store: it writes the run that it holds. -/
theorem Sees.effect {g : Grip} {m m' : MemoryStore} {call : StoreCall} (h : e.Sees g m)
    (hasks : e.asks g (.store call)) (hchanges : m.Changes call m') :
    m'.funnels = m.funnels ∧ (m'.runs = m.runs ∨ ∃ owner written r r',
      g = .holds owner written r ∧ m'.runs = (m.putRun r').runs ∧ e.Writes written r r') := by
  cases hchanges with
  | nothing => exact ⟨rfl, .inl rfl⟩
  | acquireRun => exact ⟨rfl, .inl rfl⟩
  | @saveRun r' owner hholder =>
    cases g with
    | holds owner' written r => exact ⟨rfl, .inr ⟨owner', written, r, r', rfl, rfl, .inl hasks.2⟩⟩
    | lost owner' =>
      obtain ⟨rfl, hid⟩ := hasks
      exact absurd (hid ▸ hholder) h.2.1
    | _ => exact hasks.elim
  | @releaseRun r' owner hholder =>
    cases g with
    | holds owner' written r => exact ⟨rfl, .inr ⟨owner', written, r, r', rfl, rfl, .inr hasks.2⟩⟩
    | lost owner' =>
      obtain ⟨rfl, hid⟩ := hasks
      exact absurd (hid ▸ hholder) h.2.1
    | _ => exact hasks.elim
  | _ => cases g <;> exact hasks.elim

theorem isBy_of_asks {g : Grip} {m : MemoryStore} {call : StoreCall}
    (howns : ∀ owner', e.owns owner' → owner' = owner) (h : e.Sees g m)
    (hasks : e.asks g (.store call)) : call.IsBy e.run owner := by
  cases g with
  | apart =>
    cases call with
    | acquireRun id owner' now => exact fun _ => howns _ hasks.2.1
    | _ => exact hasks.elim
  | holds owner' written r =>
    obtain rfl := howns owner' h.1
    cases call with
    | getFunnel => trivial
    | getRun => trivial
    | saveRun => exact fun _ => hasks.1
    | releaseRun => exact fun _ => hasks.1
    | _ => exact hasks.elim
  | lost owner' =>
    obtain rfl := howns owner' h.1
    cases call with
    | getFunnel => trivial
    | getRun => trivial
    | saveRun => exact fun _ => hasks.1
    | releaseRun => exact fun _ => hasks.1
    | _ => exact hasks.elim
  | refused => exact hasks.elim
  | gave => exact hasks.elim

section Sees

variable {s s' : Stored MemoryStore} {q : Request} {a : q.Answer}

theorem Sees.granted (h : e.Sees (.holds owner written r) s.data)
    (hasks : e.asks (.holds owner written r) q) (hserved : Served q s a s')
    (hadmits : e.Admits q a) :
    ∃ g, e.grants owner written r q a g ∧ e.Sees g s'.data ∧
      ∀ owner, s'.data.runHolder e.run = some owner → g.Holds owner := by
  have hkept := h
  obtain ⟨howns, hid, hstores, hholder⟩ := h
  have hown : ∀ owner', s.data.runHolder e.run = some owner' → owner = owner' :=
    fun owner' hholder' => Option.some.inj (hholder.symm.trans hholder')
  cases hserved with
  | outside hr =>
    cases q with
    | store call => exact absurd rfl (hr call)
    | post address body => exact ⟨_, rfl, hkept, hown⟩
    | read address => exact ⟨_, ⟨hadmits, rfl⟩, hkept, hown⟩
    | _ => exact hasks.elim
  | store call =>
    cases call with
    | getFunnel id =>
      rw [MemoryStore.answer_getFunnel_data]
      exact ⟨_, ⟨hadmits, rfl⟩, hkept, hown⟩
    | getRun id =>
      obtain rfl : id = r.id := hasks.trans hid.symm
      rw [MemoryStore.answer_getRun hstores]
      exact ⟨_, ⟨rfl, rfl⟩, hkept, hown⟩
    | saveRun r' by' =>
      obtain ⟨rfl, _, hsteps⟩ := hasks
      have hid' := hsteps.id_eq.trans hid
      rw [MemoryStore.answer_saveRun, hid', if_pos hholder]
      exact ⟨_, ⟨rfl, rfl⟩, ⟨howns, hid', by simp, hholder⟩, hown⟩
    | releaseRun r' by' =>
      obtain ⟨rfl, hcloses⟩ := hasks
      rw [MemoryStore.answer_releaseRun, hcloses.id_eq.trans hid, if_pos hholder]
      exact ⟨_, ⟨rfl, rfl⟩, trivial, by simp⟩
    | _ => exact hasks.elim

theorem Sees.denied (h : e.Sees (.lost owner) s.data) (hasks : e.asks (.lost owner) q)
    (hserved : Served q s a s') (hadmits : e.Admits q a) :
    e.denies owner q a ∧ s'.data = s.data := by
  obtain ⟨_, hholder, r, hid, hstores⟩ := h
  cases hserved with
  | outside hr =>
    cases q with
    | store call => exact absurd rfl (hr call)
    | post address body => exact ⟨trivial, rfl⟩
    | read address => exact ⟨hadmits, rfl⟩
    | _ => exact hasks.elim
  | store call =>
    cases call with
    | getFunnel id => exact ⟨hadmits, MemoryStore.answer_getFunnel_data id s⟩
    | getRun id =>
      obtain rfl : id = r.id := hasks.trans hid.symm
      rw [MemoryStore.answer_getRun hstores]
      exact ⟨⟨r, rfl, hid⟩, rfl⟩
    | saveRun r' by' =>
      obtain ⟨rfl, hid'⟩ := hasks
      rw [MemoryStore.answer_saveRun, hid', if_neg hholder]
      exact ⟨rfl, rfl⟩
    | releaseRun r' by' =>
      obtain ⟨rfl, hid'⟩ := hasks
      rw [MemoryStore.answer_releaseRun, hid', if_neg hholder]
      exact ⟨rfl, rfl⟩
    | _ => exact hasks.elim

theorem Sees.begun (h : e.Sees .apart s.data) (hasks : e.asks .apart q) (hserved : Served q s a s')
    (hadmits : e.Admits q a) :
    ∃ g, e.replies .apart q a g ∧ e.Sees g s'.data ∧
      (s'.data = s.data ∨ ∀ owner, s'.data.runHolder e.run = some owner → g.Holds owner) := by
  cases hserved with
  | outside hr =>
    cases q with
    | store call => exact absurd rfl (hr call)
    | clock => exact ⟨_, rfl, h, .inl rfl⟩
    | token => exact ⟨_, ⟨hadmits, rfl⟩, h, .inl rfl⟩
    | _ => exact hasks.elim
  | store call =>
    cases call with
    | acquireRun id owner now =>
      obtain ⟨rfl, howns, _⟩ := hasks
      cases hdocument : s.data.runs.get? e.run with
      | none =>
        rw [MemoryStore.answer_acquireRun_of_none hdocument]
        exact ⟨_, .inr ⟨⟨_, rfl⟩, rfl⟩, trivial, .inl rfl⟩
      | some document =>
        obtain ⟨r, hid, rfl⟩ := h document hdocument
        have hstores : s.data.Stores r := by rw [MemoryStore.Stores, hid, hdocument]
        rw [← hid, MemoryStore.answer_acquireRun hstores]
        rcases s.data.isLocked r.id now with fault | locked
        · exact ⟨_, .inr ⟨⟨_, rfl⟩, rfl⟩, trivial, .inl rfl⟩
        · cases locked with
          | true => exact ⟨_, .inr ⟨⟨_, rfl⟩, rfl⟩, trivial, .inl rfl⟩
          | false =>
            refine ⟨.holds owner false r, .inl ⟨r, rfl, hid, rfl⟩, ⟨howns, hid, ?_, ?_⟩, ?_⟩
            · simpa using hstores
            · rw [← hid, MemoryStore.runHolder_lockRun]
            · exact .inr (by simp [Grip.Holds])
    | _ => exact hasks.elim

/-- The store in memory answers as the protocol has it, and the lock is held by the one who was
granted it. -/
theorem Sees.answered {g : Grip} (h : e.Sees g s.data) (hasks : e.asks g q)
    (hserved : Served q s a s') (hadmits : e.Admits q a) :
    ∃ g', e.replies g q a g' ∧ e.Sees g' s'.data ∧
      ∀ owner, s'.data.runHolder e.run = some owner →
        g'.Holds owner ∨ ¬ g.Holds owner ∧ s.data.runHolder e.run = some owner := by
  cases g with
  | apart =>
    obtain ⟨g', hreply, hsees, hheld⟩ := h.begun hasks hserved hadmits
    refine ⟨g', hreply, hsees, ?_⟩
    rcases hheld with hkept | hheld
    · rw [hkept]
      exact fun owner howner => .inr ⟨id, howner⟩
    · exact fun owner howner => .inl (hheld owner howner)
  | holds owner written r =>
    obtain ⟨g', hgrants, hsees, hheld⟩ := h.granted hasks hserved hadmits
    exact ⟨g', .inl hgrants, hsees, fun owner' howner => .inl (hheld owner' howner)⟩
  | lost owner =>
    obtain ⟨hdenies, hkept⟩ := h.denied hasks hserved hadmits
    refine ⟨_, ⟨hdenies, rfl⟩, ?_, ?_⟩
    · rwa [hkept]
    · rw [hkept]
      exact fun owner' howner => .inr ⟨id, howner⟩
  | refused => exact hasks.elim
  | gave r => exact hasks.elim

end Sees

end Errand

end FunnelFlow
