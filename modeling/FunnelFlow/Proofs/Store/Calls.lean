import FunnelFlow.Store.Memory
import FunnelFlow.Proofs.Run.Document
import FunnelFlow.Proofs.Store.Work
import FunnelFlow.Proofs.Table

namespace FunnelFlow

namespace StoreCall

def Spares (id : String) : StoreCall → Prop
  | .createRun r => r.id ≠ id
  | .acquireRun id' _ _ => id' ≠ id
  | .saveRun r _ => r.id ≠ id
  | .releaseRun r _ => r.id ≠ id
  | _ => True

/-- If the call is about the run or its lock, it is made under the name. -/
def IsBy (id owner : String) : StoreCall → Prop
  | .createRun r => r.id ≠ id
  | .acquireRun id' owner' _ => id' = id → owner' = owner
  | .saveRun r owner' => r.id = id → owner' = owner
  | .releaseRun r owner' => r.id = id → owner' = owner
  | _ => True

def run? : StoreCall → Option Run
  | .createRun r => some r
  | .saveRun r _ => some r
  | .releaseRun r _ => some r
  | _ => none

def Edits : StoreCall → Prop
  | .saveFunnel _ => True
  | .deleteFunnel _ => True
  | _ => False

end StoreCall

/-- A lock that was taken out at an instant has run out at another. -/
def RunsOut (ttl : Span) (since now : Instant) : Prop :=
  ∃ t, since.plus ttl = .ok t ∧ t.comparable now = true ∧ t.le now = true

theorem Lock.holds_eq {lock : Lock} {ttl : Span} {t : Instant}
    (h : lock.acquiredAt.plus ttl = .ok t) (now : Instant) :
    lock.holds ttl now = if t.comparable now then .ok (now.lt t) else .error .mixedZones := by
  rw [holds, h]
  rfl

theorem Lock.holds_eq_false_iff {lock : Lock} {ttl : Span} {t now : Instant}
    (h : lock.acquiredAt.plus ttl = .ok t) :
    lock.holds ttl now = .ok false ↔ RunsOut ttl lock.acquiredAt now := by
  have hlater : now.lt t = false ↔ t.le now = true := by simp [Instant.lt, Instant.le]
  rw [holds_eq h, RunsOut]
  split
  · next hcomparable => simp [h, hcomparable, hlater]
  · next hcomparable => simp [h, hcomparable]

namespace MemoryStore

open StoreM

variable {r : Run} {s : Stored MemoryStore} {owner : String}

def Stores (m : MemoryStore) (r : Run) : Prop := m.runs.get? r.id = some (.object r.toDocument)

/-- Who holds the lock of a run, though it may have run out. -/
def runHolder (m : MemoryStore) (id : String) : Option String :=
  (m.runLocks.get? id).map (·.holder)

def putRun (m : MemoryStore) (r : Run) : MemoryStore :=
  { m with runs := m.runs.set r.id (.object r.toDocument) }

def lockRun (m : MemoryStore) (id owner : String) (now : Instant) : MemoryStore :=
  { m with runLocks := m.runLocks.set id ⟨owner, now⟩ }

def unlockRun (m : MemoryStore) (id : String) : MemoryStore :=
  { m with runLocks := m.runLocks.erase id }

section Views

variable {m : MemoryStore} {id : String} {now : Instant}

@[simp] theorem runHolder_putRun : (m.putRun r).runHolder id = m.runHolder id := rfl

@[simp] theorem stores_lockRun : (m.lockRun id owner now).Stores r = m.Stores r := rfl

@[simp] theorem stores_unlockRun : (m.unlockRun id).Stores r = m.Stores r := rfl

@[simp] theorem stores_putRun : (m.putRun r).Stores r := Table.get?_set_self _ _ _

@[simp] theorem runHolder_lockRun : (m.lockRun id owner now).runHolder id = some owner := by
  simp [runHolder, lockRun]

theorem runHolder_lockRun_of_ne {id' : String} (h : id ≠ id') :
    (m.lockRun id' owner now).runHolder id = m.runHolder id := by
  rw [runHolder, lockRun, Table.get?_set_of_ne _ _ h]
  rfl

theorem runHolder_unlockRun_of_ne {id' : String} (h : id ≠ id') :
    (m.unlockRun id').runHolder id = m.runHolder id := by
  rw [runHolder, unlockRun, Table.get?_erase_of_ne _ h]
  rfl

@[simp] theorem runHolder_unlockRun : (m.unlockRun id).runHolder id = none := by
  simp [runHolder, unlockRun, Table.get?_erase_self]

theorem putRun_of_stores (h : m.Stores r) : m.putRun r = m := by
  rw [putRun, Table.set_of_get?_eq_some h]

theorem putRun_putRun {r' : Run} (hid : r'.id = r.id) : (m.putRun r).putRun r' = m.putRun r' := by
  simp only [putRun, hid, Table.set_set]

theorem unlockRun_of_none (h : m.runLocks.get? id = none) : m.unlockRun id = m := by
  rw [unlockRun, Table.erase_of_get?_eq_none h]

theorem isLocked_of_none (h : m.runLocks.get? id = none) : m.isLocked id now = .ok false := by
  rw [isLocked, h]

theorem unlockRun_putRun_lockRun :
    ((m.lockRun id owner now).putRun r).unlockRun id = (m.putRun r).unlockRun id := by
  simp only [lockRun, putRun, unlockRun, Table.erase_set]

theorem Stores.congr {m' : MemoryStore} (h : m.Stores r)
    (hdocument : m'.runs.get? r.id = m.runs.get? r.id) : m'.Stores r := hdocument.trans h

theorem Stores.eq {r' : Run} (h : m.Stores r) (h' : m.Stores r') (hid : r'.id = r.id) :
    r' = r := by
  rw [Stores, hid, h] at h'
  exact Run.toDocument_injective (Value.object.inj (Option.some.inj h')).symm

end Views

theorem readRunDocument_toDocument (r : Run) :
    readRunDocument (.object r.toDocument) = pure r := by
  rw [readRunDocument, Run.ofDocument_toDocument, readRun_eq]
  rfl

theorem writeRun_run (r : Run) (s : Stored MemoryStore) :
    (writeRun r).run s = (.ok r, { s with data := s.data.putRun r }) := by
  simp only [writeRun, run_data_bind, run_setData_bind, readRunDocument_toDocument]
  rfl

theorem any_holder_eq (m : MemoryStore) (id owner : String) :
    (m.runLocks.get? id).any (·.holder == owner) = decide (m.runHolder id = some owner) := by
  unfold runHolder
  cases m.runLocks.get? id <;> simp [beq_eq_decide]

theorem answer_saveRun (r : Run) (owner : String) (s : Stored MemoryStore) :
    (answer (.saveRun r owner)).run s = if s.data.runHolder r.id = some owner
      then (.ok r, { s with data := s.data.putRun r })
      else (.error (.runNotHeld r.id owner), s) := by
  change (saveRun r owner).run s = _
  simp only [saveRun, run_data_bind, any_holder_eq, decide_eq_true_eq]
  split
  · exact writeRun_run r s
  · rfl

theorem answer_releaseRun (r : Run) (owner : String) (s : Stored MemoryStore) :
    (answer (.releaseRun r owner)).run s = if s.data.runHolder r.id = some owner
      then (.ok r, { s with data := (s.data.putRun r).unlockRun r.id })
      else (.error (.runNotHeld r.id owner), s) := by
  have hsave : (saveRun r owner).run s = _ := answer_saveRun r owner s
  change (releaseRun r owner).run s = _
  rw [releaseRun, run_bind, hsave]
  by_cases h : s.data.runHolder r.id = some owner
  · rw [if_pos h, if_pos h]
    rfl
  · rw [if_neg h, if_neg h]
    rfl

theorem answer_getRun (h : s.data.Stores r) :
    (answer (.getRun r.id)).run s = (.ok (some r), s) := by
  change (getRun r.id).run s = _
  rw [getRun, run_data_bind, show s.data.runs.get? r.id = _ from h]
  simp only [readRunDocument_toDocument]
  rfl

theorem answer_acquireRun_of_none {id : String} (h : s.data.runs.get? id = none) (owner : String)
    (now : Instant) :
    (answer (.acquireRun id owner now)).run s = (.error (.runNotFound id), s) := by
  change (acquireRun id owner now).run s = _
  rw [acquireRun, run_data_bind, h]
  rfl

theorem answer_acquireRun (h : s.data.Stores r) (owner : String) (now : Instant) :
    (answer (.acquireRun r.id owner now)).run s = match s.data.isLocked r.id now with
      | .ok false => (.ok r, { s with data := s.data.lockRun r.id owner now })
      | .ok true => (.error (.runLocked r.id), s)
      | .error e => (.error e, s) := by
  change (acquireRun r.id owner now).run s = _
  rw [acquireRun, run_data_bind, show s.data.runs.get? r.id = _ from h]
  simp only [run_bind, readRunDocument_toDocument]
  rcases s.data.isLocked r.id now with e | locked
  · rfl
  · cases locked <;> rfl

/-- A lock that runs out inside the calendar is no obstacle exactly once it has run out. -/
theorem isLocked_eq_false_iff_runsOut {m : MemoryStore} {id : String} {now : Instant}
    (hends : ∀ lock, m.runLocks.get? id = some lock → ∃ t, lock.acquiredAt.plus m.runTtl = .ok t) :
    m.isLocked id now = .ok false ↔
      ∀ lock, m.runLocks.get? id = some lock → RunsOut m.runTtl lock.acquiredAt now := by
  rw [isLocked]
  cases hlock : m.runLocks.get? id with
  | none => simp
  | some lock =>
    obtain ⟨t, ht⟩ := hends lock hlock
    simp [Lock.holds_eq_false_iff ht]

def Succeeds (call : StoreCall) (s : Stored MemoryStore) : Prop :=
  ∃ a, ((answer call).run s).1 = .ok a

theorem isOk_eq_true_iff {call : StoreCall} :
    ((answer call).run s).1.isOk = true ↔ Succeeds call s := by
  rw [Succeeds]
  cases ((answer call).run s).1 with
  | ok a => exact iff_of_true rfl ⟨a, rfl⟩
  | error e => exact iff_of_false (by simp [Except.isOk, Except.toBool]) (by simp)

theorem succeeds_of_run {call : StoreCall} {a : call.Answer} {s' : Stored MemoryStore}
    (h : (answer call).run s = (.ok a, s')) : Succeeds call s := ⟨a, congrArg Prod.fst h⟩

theorem not_succeeds_of_run {call : StoreCall} {e : Fault} {s' : Stored MemoryStore}
    (h : (answer call).run s = (.error e, s')) : ¬ Succeeds call s := by
  rintro ⟨a, ha⟩
  rw [h] at ha
  cases ha

theorem Stores.succeeds_acquireRun_iff {now : Instant} (h : s.data.Stores r) :
    Succeeds (.acquireRun r.id owner now) s ↔ s.data.isLocked r.id now = .ok false := by
  have hanswer := answer_acquireRun h owner now
  cases hlocked : s.data.isLocked r.id now with
  | error e =>
    rw [hlocked] at hanswer
    exact iff_of_false (not_succeeds_of_run hanswer) (by simp)
  | ok locked =>
    rw [hlocked] at hanswer
    cases locked with
    | true => exact iff_of_false (not_succeeds_of_run hanswer) (by simp)
    | false => exact iff_of_true (succeeds_of_run hanswer) rfl

theorem answer_getFunnel_data (id : String) (s : Stored MemoryStore) :
    ((answer (.getFunnel id)).run s).2.data = s.data := by
  have h : (getFunnel id).Keeps (· = s.data) := by
    apply Keeps.data_bind
    intro m hm
    split
    · exact .pure none
    · exact .bind (.readFunnel _) fun f => .pure (some f)
  exact h s rfl

inductive Changes (m : MemoryStore) : StoreCall → MemoryStore → Prop
  | nothing (call : StoreCall) : Changes m call m
  | saveFunnel (f : Funnel) :
    Changes m (.saveFunnel f) { m with funnels := m.funnels.set f.id (.object f.toDocument) }
  | deleteFunnel (id : String) : Changes m (.deleteFunnel id)
      { m with funnelLocks := m.funnelLocks.erase id, funnels := m.funnels.erase id }
  | lockFunnel (id holder : String) (now : Instant) : Changes m (.lockFunnel id holder now)
      { m with funnelLocks := m.funnelLocks.set id ⟨holder, now⟩ }
  | unlockFunnel (id holder : String) : Changes m (.unlockFunnel id holder)
      { m with funnelLocks := m.funnelLocks.erase id }
  | createRun (r : Run) : Changes m (.createRun r) (m.putRun r)
  | acquireRun (id owner : String) (now : Instant) :
    Changes m (.acquireRun id owner now) (m.lockRun id owner now)
  | saveRun {r : Run} {owner : String} (h : m.runHolder r.id = some owner) :
    Changes m (.saveRun r owner) (m.putRun r)
  | releaseRun {r : Run} {owner : String} (h : m.runHolder r.id = some owner) :
    Changes m (.releaseRun r owner) ((m.putRun r).unlockRun r.id)

theorem readFunnelDocument_data (document : Value) (s : Stored MemoryStore) :
    ((readDocument document).run s).2.data = s.data := by
  have h : (readDocument document).Keeps (· = s.data) := .readFunnel _
  exact h s rfl

theorem readRunDocument_data (document : Value) (s : Stored MemoryStore) :
    ((readRunDocument document).run s).2.data = s.data := by
  have h : (readRunDocument document).Keeps (· = s.data) := .readRun _
  exact h s rfl

section Reading

variable {inv : MemoryStore → Prop}

theorem dueFrom_keeps (m : MemoryStore) (now : Instant) (limit : Int) (found : List String)
    (runs : Table Value) : (m.dueFrom now limit found runs).Keeps inv := by
  induction runs generalizing found with
  | nil => exact .pure found
  | cons entry runs ih =>
    refine Keeps.bind (.liftExcept _) fun locked => ?_
    split
    · exact ih found
    · refine .bind (.readRun _) fun run => .bind (.liftExcept _) fun due => ?_
      dsimp only
      generalize (if due = true then found ++ [entry.1] else found) = found
      split
      · exact .pure found
      · exact ih found

theorem getRun_keeps (id : String) : (getRun id).Keeps inv := by
  apply Keeps.data_bind
  intro m _
  split
  · exact .pure none
  · exact .bind (.readRun _) fun r => .pure (some r)

theorem listFunnels_keeps : listFunnels.Keeps inv := by
  apply Keeps.data_bind
  intro m _
  exact .mapM _ fun entry => .readFunnel _

theorem listRuns_keeps (filter : RunFilter) : (listRuns filter).Keeps inv := by
  apply Keeps.data_bind
  intro m _
  exact .bind (.mapM _ fun entry => .readRun _) fun runs => .pure _

theorem activeFunnels_keeps (trigger : String) : (activeFunnels trigger).Keeps inv := by
  apply Keeps.data_bind
  intro m _
  refine .bind (.mapM _ fun entry => ?_) fun found => .pure _
  refine .bind (.liftExcept _) fun active => ?_
  split
  · exact .bind (.readFunnel _) fun f => .pure (some f)
  · exact .pure none

theorem dueRuns_keeps (now : Instant) (limit : Int) : (dueRuns now limit).Keeps inv := by
  apply Keeps.data_bind
  intro m _
  exact dueFrom_keeps m now limit [] m.runs

end Reading

theorem Changes.of_keeps {α : Type} {w : Work α} {call : StoreCall} (s : Stored MemoryStore)
    (h : w.Keeps (· = s.data)) : Changes s.data call (w.run s).2.data := by
  rw [h s rfl]
  exact .nothing call

theorem answer_changes (call : StoreCall) (s : Stored MemoryStore) :
    Changes s.data call ((answer call).run s).2.data := by
  cases call with
  | saveFunnel f =>
    change Changes s.data _ ((saveFunnel f).run s).2.data
    simp only [saveFunnel, run_data_bind, run_setData_bind, readFunnelDocument_data]
    exact .saveFunnel f
  | getFunnel id =>
    rw [answer_getFunnel_data]
    exact .nothing _
  | listFunnels => exact .of_keeps s listFunnels_keeps
  | deleteFunnel id => exact .deleteFunnel id
  | activeFunnels trigger => exact .of_keeps s (activeFunnels_keeps trigger)
  | lockFunnel id holder now =>
    change Changes s.data _ ((lockFunnel id holder now).run s).2.data
    have hset := Changes.lockFunnel (m := s.data) id holder now
    rw [lockFunnel, run_data_bind]
    dsimp only
    split
    · split
      · rw [run_liftExcept_bind]
        split
        · next locked _ =>
          cases locked
          · exact hset
          · exact .nothing _
        · exact .nothing _
      · exact hset
    · exact hset
  | unlockFunnel id holder =>
    change Changes s.data _ ((unlockFunnel id holder).run s).2.data
    rw [unlockFunnel, run_data_bind]
    split
    · exact .unlockFunnel id holder
    · exact .nothing _
  | createRun r =>
    change Changes s.data _ ((writeRun r).run s).2.data
    rw [writeRun_run]
    exact .createRun r
  | getRun id => exact .of_keeps s (getRun_keeps id)
  | listRuns filter => exact .of_keeps s (listRuns_keeps filter)
  | dueRuns now limit => exact .of_keeps s (dueRuns_keeps now limit)
  | acquireRun id owner now =>
    change Changes s.data _ ((acquireRun id owner now).run s).2.data
    rw [acquireRun, run_data_bind]
    split
    · exact .nothing _
    · rw [run_liftExcept_bind]
      split
      · next locked _ =>
        cases locked
        · dsimp only
          rw [if_neg Bool.false_ne_true, run_setData_bind, readRunDocument_data]
          exact .acquireRun id owner now
        · exact .nothing _
      · exact .nothing _
  | saveRun r owner =>
    rw [answer_saveRun]
    split
    · next h => exact .saveRun h
    · exact .nothing _
  | releaseRun r owner =>
    rw [answer_releaseRun]
    split
    · next h => exact .releaseRun h
    · exact .nothing _
  | close => exact .nothing _

section Frame

variable {m m' : MemoryStore} {call : StoreCall} {id : String}

theorem Changes.runs_eq (h : Changes m call m') :
    m'.runs = m.runs ∨ ∃ r, call.run? = some r ∧ m'.runs = (m.putRun r).runs := by
  cases h with
  | createRun r => exact .inr ⟨r, rfl, rfl⟩
  | saveRun => exact .inr ⟨_, rfl, rfl⟩
  | releaseRun => exact .inr ⟨_, rfl, rfl⟩
  | _ => exact .inl rfl

theorem Changes.funnels_eq (h : Changes m call m') (hcall : ¬ call.Edits) :
    m'.funnels = m.funnels := by
  cases h with
  | saveFunnel => exact absurd trivial hcall
  | deleteFunnel => exact absurd trivial hcall
  | _ => rfl

theorem Changes.spared (h : Changes m call m') (hspares : call.Spares id) :
    m'.runs.get? id = m.runs.get? id ∧ m'.runHolder id = m.runHolder id := by
  cases h with
  | createRun r => exact ⟨Table.get?_set_of_ne _ _ (Ne.symm hspares), rfl⟩
  | acquireRun id' owner now => exact ⟨rfl, runHolder_lockRun_of_ne (Ne.symm hspares)⟩
  | saveRun h => exact ⟨Table.get?_set_of_ne _ _ (Ne.symm hspares), rfl⟩
  | releaseRun h =>
    exact ⟨Table.get?_set_of_ne _ _ (Ne.symm hspares), runHolder_unlockRun_of_ne (Ne.symm hspares)⟩
  | _ => exact ⟨rfl, rfl⟩

/-- Without the lock of a run nothing can be done to it. -/
theorem Changes.document_eq (h : Changes m call m') (hby : call.IsBy id owner)
    (hholder : m.runHolder id ≠ some owner) : m'.runs.get? id = m.runs.get? id := by
  cases h with
  | createRun r => exact Table.get?_set_of_ne _ _ (Ne.symm hby)
  | saveRun hheld =>
    refine Table.get?_set_of_ne _ _ fun hid => hholder ?_
    rw [← hby hid.symm, hid, hheld]
  | releaseRun hheld =>
    refine Table.get?_set_of_ne _ _ fun hid => hholder ?_
    rw [← hby hid.symm, hid, hheld]
  | _ => rfl

/-- Under one name the lock of a run can only be taken under that name, or be given back. -/
theorem Changes.runHolder_eq (h : Changes m call m') (hby : call.IsBy id owner) :
    m'.runHolder id = m.runHolder id ∨ m'.runHolder id = some owner ∨ m'.runHolder id = none := by
  cases h with
  | acquireRun id' owner' now =>
    by_cases hid : id' = id
    · obtain rfl := hby hid
      subst hid
      exact .inr (.inl runHolder_lockRun)
    · exact .inl (runHolder_lockRun_of_ne (Ne.symm hid))
  | @releaseRun r owner' hheld =>
    by_cases hid : r.id = id
    · subst hid
      exact .inr (.inr runHolder_unlockRun)
    · exact .inl (runHolder_unlockRun_of_ne (Ne.symm hid))
  | _ => exact .inl rfl

end Frame

section KeepsRuns

variable {m m' : MemoryStore} {P : Run → Prop}

/-- Each document of a run is the written form of a run with the property, under its id. -/
def KeepsRuns (P : Run → Prop) (m : MemoryStore) : Prop :=
  ∀ id document, m.runs.get? id = some document →
    ∃ r : Run, r.id = id ∧ document = .object r.toDocument ∧ P r

theorem KeepsRuns.congr (h : m.KeepsRuns P) (hruns : m'.runs = m.runs) : m'.KeepsRuns P := by
  rwa [KeepsRuns, hruns]

theorem KeepsRuns.putRun (h : m.KeepsRuns P) (hr : P r) : (m.putRun r).KeepsRuns P := by
  intro id document hdocument
  rcases Table.of_get?_set_eq_some hdocument with ⟨rfl, rfl⟩ | ⟨-, hdocument⟩
  · exact ⟨r, rfl, rfl, hr⟩
  · exact h id document hdocument

theorem KeepsRuns.changes {call : StoreCall} (h : m.KeepsRuns P) (hchanges : m.Changes call m')
    (hcall : ∀ r, call.run? = some r → P r) : m'.KeepsRuns P := by
  rcases hchanges.runs_eq with hsame | ⟨r, hr, hwritten⟩
  · exact h.congr hsame
  · exact (h.putRun (hcall r hr)).congr hwritten

theorem KeepsRuns.of_stores (h : m.KeepsRuns P) (hr : m.Stores r) : P r := by
  obtain ⟨r', _, hdocument, hr'⟩ := h r.id _ hr
  rwa [Run.toDocument_injective (Value.object.inj hdocument)]

end KeepsRuns

end MemoryStore

end FunnelFlow
