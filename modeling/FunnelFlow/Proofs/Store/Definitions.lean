import FunnelFlow.Proofs.Store.Memory

namespace FunnelFlow

theorem Funnel.reread_id {f : Funnel} (hid : f.id ≠ "") (fresh : String) :
    (f.reread fresh).id = f.id := if_neg hid

theorem Funnel.needsId_toDocument {f : Funnel} (hid : f.id ≠ "") :
    (ofDocument (.object f.toDocument) .null).needsId = false := needsId_of_text rfl hid

namespace MemoryStore

open StoreM

variable {m m' : MemoryStore} {s : Stored MemoryStore} {f : Funnel} {id holder : String}
  {now : Instant}

def funnelHolder (m : MemoryStore) (id : String) : Option String :=
  (m.funnelLocks.get? id).map (·.holder)

def putFunnel (m : MemoryStore) (f : Funnel) : MemoryStore :=
  { m with funnels := m.funnels.set f.id (.object f.toDocument) }

def removeFunnel (m : MemoryStore) (id : String) : MemoryStore :=
  { m with funnelLocks := m.funnelLocks.erase id, funnels := m.funnels.erase id }

def takeLock (m : MemoryStore) (id holder : String) (now : Instant) : MemoryStore :=
  { m with funnelLocks := m.funnelLocks.set id ⟨holder, now⟩ }

def dropLock (m : MemoryStore) (id : String) : MemoryStore :=
  { m with funnelLocks := m.funnelLocks.erase id }

def IsFiled (m : MemoryStore) : Prop :=
  ∀ id document, m.funnels.get? id = some document →
    id ≠ "" ∧ ∃ f : Funnel, f.id = id ∧ document = .object f.toDocument

def KnowsIds (m : MemoryStore) : Prop :=
  ∀ id document, m.funnels.get? id = some document →
    (Funnel.ofDocument document .null).needsId = false

/-- Nobody is in the way: the lock is free, is held already, or has run out. -/
def MayLock (m : MemoryStore) (id holder : String) (now : Instant) : Prop :=
  ∀ lock ∈ m.funnelLocks.get? id,
    lock.holder = holder ∨ lock.holds m.funnelTtl now = .ok false

section Views

@[simp] theorem funnelHolder_takeLock :
    (m.takeLock id holder now).funnelHolder id = some holder := by
  simp [funnelHolder, takeLock]

@[simp] theorem funnelHolder_putFunnel : (m.putFunnel f).funnelHolder id = m.funnelHolder id := rfl

@[simp] theorem funnelHolder_dropLock : (m.dropLock id).funnelHolder id = none := by
  simp [funnelHolder, dropLock, Table.get?_erase_self]

@[simp] theorem funnelHolder_removeFunnel : (m.removeFunnel id).funnelHolder id = none := by
  simp [funnelHolder, removeFunnel, Table.get?_erase_self]

theorem funnelHolder_eq_some_iff : m.funnelHolder id = some holder ↔
    ∃ lock, m.funnelLocks.get? id = some lock ∧ lock.holder = holder := Option.map_eq_some_iff

theorem any_funnelHolder_eq (m : MemoryStore) (id holder : String) :
    (m.funnelLocks.get? id).any (·.holder == holder) =
      decide (m.funnelHolder id = some holder) := by
  unfold funnelHolder
  cases m.funnelLocks.get? id <;> simp [beq_eq_decide]

end Views

theorem IsFiled.changes {call : StoreCall} (h : m.IsFiled) (hchanges : m.Changes call m')
    (hcall : ∀ f, call = .saveFunnel f → f.id ≠ "") : m'.IsFiled := by
  intro id document hdocument
  cases hchanges with
  | saveFunnel f =>
    rcases Table.of_get?_set_eq_some hdocument with ⟨rfl, rfl⟩ | ⟨_, hdocument⟩
    · exact ⟨hcall f rfl, f, rfl, rfl⟩
    · exact h id document hdocument
  | deleteFunnel id' => exact h id document (Table.of_get?_erase_eq_some hdocument).2
  | _ => exact h id document hdocument

theorem Changes.funnelTtl_eq {call : StoreCall} (h : m.Changes call m') :
    m'.funnelTtl = m.funnelTtl := by
  cases h <;> rfl

theorem readDocument_run (hid : f.id ≠ "") (s : Stored MemoryStore) :
    (readDocument (.object f.toDocument)).run s = (.ok (f.reread ""), s) := by
  rw [readDocument, readFunnel_eq, Funnel.needsId_toDocument hid]
  simp only [Bool.false_eq_true, if_false, pure_bind, Funnel.ofDocument_toDocument]
  rfl

theorem answer_saveFunnel (hid : f.id ≠ "") (s : Stored MemoryStore) :
    (answer (.saveFunnel f)).run s =
      (.ok (f.reread ""), { s with data := s.data.putFunnel f }) := by
  change (saveFunnel f).run s = _
  rw [saveFunnel, run_data_bind, run_setData_bind, readDocument_run hid]
  rfl

theorem answer_getFunnel (hid : id ≠ "") (hf : f.id = id)
    (h : s.data.funnels.get? id = some (.object f.toDocument)) :
    (answer (.getFunnel id)).run s = (.ok (some (f.reread "")), s) := by
  change (getFunnel id).run s = _
  rw [getFunnel, run_data_bind, h, run_bind, readDocument_run (hf ▸ hid)]
  rfl

theorem run_getFunnel (id : String) (s : Stored MemoryStore) :
    (answer (.getFunnel id)).run s = match s.data.funnels.get? id with
      | none => (.ok none, s)
      | some document =>
        let reading := Funnel.ofDocument document .null
        if reading.needsId
        then ((reading.result s.ids.takeFunnel.1).map some, { s with ids := s.ids.takeFunnel.2 })
        else ((reading.result "").map some, s) := by
  change (getFunnel id).run s = _
  rw [getFunnel, run_data_bind]
  cases s.data.funnels.get? id with
  | none => rfl
  | some document =>
    dsimp only
    rw [run_bind, readDocument, run_readFunnel]
    cases hneeds : (Funnel.ofDocument document .null).needsId with
    | true =>
      simp only [if_true]
      cases (Funnel.ofDocument document .null).result s.ids.takeFunnel.1 <;> rfl
    | false =>
      simp only [Bool.false_eq_true, if_false]
      cases (Funnel.ofDocument document .null).result "" <;> rfl

theorem run_getFunnel_of_none (h : s.data.funnels.get? id = none) :
    (answer (.getFunnel id)).run s = (.ok none, s) := by
  rw [run_getFunnel, h]

theorem fst_getFunnel (id : String) (s : Stored MemoryStore) :
    ((answer (.getFunnel id)).run s).1 = match s.data.funnels.get? id with
      | none => .ok none
      | some document => ((Funnel.ofDocument document .null).result
          (if (Funnel.ofDocument document .null).needsId then s.ids.takeFunnel.1 else "")).map
            some := by
  rw [run_getFunnel]
  cases s.data.funnels.get? id with
  | none => rfl
  | some document =>
    dsimp only
    split <;> rfl

theorem fst_getFunnel_congr {s' : Stored MemoryStore} (hfunnels : s'.data.funnels = s.data.funnels)
    (hids : s'.ids = s.ids ∨ s.data.KnowsIds) (id : String) :
    ((answer (.getFunnel id)).run s').1 = ((answer (.getFunnel id)).run s).1 := by
  rw [fst_getFunnel, fst_getFunnel, hfunnels]
  cases hdocument : s.data.funnels.get? id with
  | none => rfl
  | some document =>
    rcases hids with hids | hknown
    · rw [hids]
    · simp only [hknown id document hdocument, Bool.false_eq_true, if_false]

theorem IsFiled.knowsIds (h : m.IsFiled) : m.KnowsIds := by
  intro id document hdocument
  obtain ⟨hid, f, rfl, rfl⟩ := h id document hdocument
  exact Funnel.needsId_toDocument hid

theorem IsFiled.answer_getFunnel (h : s.data.IsFiled) (id : String) :
    s.data.funnels.get? id = none ∧ (answer (.getFunnel id)).run s = (.ok none, s) ∨
      s.data.funnels.has id = true ∧
        ∃ f : Funnel, f.id = id ∧ id ≠ "" ∧ (answer (.getFunnel id)).run s = (.ok (some f), s) := by
  cases hdocument : s.data.funnels.get? id with
  | none => exact .inl ⟨rfl, run_getFunnel_of_none hdocument⟩
  | some document =>
    obtain ⟨hid, f, hf, rfl⟩ := h id document hdocument
    have hstored : s.data.funnels.has id = true := by rw [Table.has, hdocument, Option.isSome_some]
    refine .inr ⟨hstored, f.reread "", ?_, hid, MemoryStore.answer_getFunnel hid hf hdocument⟩
    rw [Funnel.reread_id (hf ▸ hid), hf]

theorem answer_deleteFunnel (id : String) (s : Stored MemoryStore) :
    (answer (.deleteFunnel id)).run s =
      (.ok (s.data.funnels.has id), { s with data := s.data.removeFunnel id }) := rfl

theorem run_lockFunnel {current : Option Lock} (hget : s.data.funnelLocks.get? id = current)
    (hfree : ∀ previous ∈ current,
      previous.holder = holder ∨ previous.holds s.data.funnelTtl now = .ok false) :
    (lockFunnel id holder now).run s = (.ok (!current.any (·.holder == holder)),
      { s with data.funnelLocks := s.data.funnelLocks.set id ⟨holder, now⟩ }) := by
  rw [lockFunnel, run_data_bind, hget]
  cases current with
  | none => rfl
  | some previous =>
    by_cases hheld : previous.holder = holder
    · simp only [hheld, ne_eq, not_true_eq_false, if_false]
      rfl
    · have hranOut := (hfree previous rfl).resolve_left hheld
      simp only [if_pos hheld, run_liftExcept_bind, hranOut]
      rfl

def lockFault (id : String) (previous : Lock) : Except Fault Bool → Fault
  | .ok _ => .funnelLocked id (some previous.holder)
  | .error e => e

theorem run_lockFunnel_of_held {previous : Lock} {held : Except Fault Bool}
    (hget : s.data.funnelLocks.get? id = some previous) (hother : previous.holder ≠ holder)
    (hholds : previous.holds s.data.funnelTtl now = held) (hheld : held ≠ .ok false) :
    (lockFunnel id holder now).run s = (.error (lockFault id previous held), s) := by
  rw [lockFunnel, run_data_bind, hget]
  simp only [if_pos hother, run_liftExcept_bind, hholds]
  rcases held with e | _ | _
  · rfl
  · exact absurd rfl hheld
  · rfl

theorem answer_lockFunnel (h : s.data.MayLock id holder now) :
    (answer (.lockFunnel id holder now)).run s =
      (.ok (!decide (s.data.funnelHolder id = some holder)),
        { s with data := s.data.takeLock id holder now }) := by
  rw [← any_funnelHolder_eq]
  exact run_lockFunnel rfl h

theorem answer_lockFunnel_of_lock {lock : Lock} (hlock : s.data.funnelLocks.get? id = some lock)
    (hholder : lock.holder = holder) : (answer (.lockFunnel id holder now)).run s =
      (.ok false, { s with data := s.data.takeLock id holder now }) := by
  have hmay : s.data.MayLock id holder now := by
    rintro lock' hlock'
    obtain rfl := Option.some.inj (hlock.symm.trans hlock')
    exact .inl hholder
  have hheld : s.data.funnelHolder id = some holder :=
    funnelHolder_eq_some_iff.mpr ⟨lock, hlock, hholder⟩
  rw [answer_lockFunnel hmay, hheld]
  simp only [decide_true, Bool.not_true]

theorem answer_lockFunnel_of_not (h : ¬ s.data.MayLock id holder now) :
    ∃ previous, s.data.funnelLocks.get? id = some previous ∧ previous.holder ≠ holder ∧
      previous.holds s.data.funnelTtl now ≠ .ok false ∧
      (answer (.lockFunnel id holder now)).run s =
        (.error (lockFault id previous (previous.holds s.data.funnelTtl now)), s) := by
  simp only [MayLock, not_forall, not_or] at h
  obtain ⟨previous, hget, hother, hheld⟩ := h
  exact ⟨previous, hget, hother, hheld, run_lockFunnel_of_held hget hother rfl hheld⟩

theorem answer_unlockFunnel (id holder : String) (s : Stored MemoryStore) :
    (answer (.unlockFunnel id holder)).run s = if s.data.funnelHolder id = some holder
      then (.ok true, { s with data := s.data.dropLock id }) else (.ok false, s) := by
  change (unlockFunnel id holder).run s = _
  rw [unlockFunnel, run_data_bind, any_funnelHolder_eq]
  by_cases h : s.data.funnelHolder id = some holder
  · simp only [h, decide_true, if_true]
    rfl
  · simp only [h, decide_false, if_false]
    rfl

end MemoryStore

end FunnelFlow
