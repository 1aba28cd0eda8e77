import FunnelFlow.Proofs.Funnel.RoundTrip
import FunnelFlow.Proofs.Run.Timely
import FunnelFlow.Proofs.Service.Editing
import FunnelFlow.Proofs.Store.Definitions

/-!
The locks of funnels while editors work one at a time. An operation that writes or deletes a funnel
leaves the lock with its editor exactly if the editor had it before, however the operation ends;
only a deleted funnel has no lock left. Whoever else holds the lock keeps all of it out.
-/

namespace FunnelFlow

/-- The funnel as it is written when it is activated or deactivated: as it was read, but for its
state. -/
def Funnel.switched (f : Funnel) (active : Bool) (written : Instant) : Funnel :=
  { f.reread "" with isActive := active, updatedAt := some written }

theorem Funnel.switched_id {f : Funnel} (hid : f.id ≠ "") {active : Bool} {written : Instant} :
    (f.switched active written).id = f.id := reread_id hid ""

theorem Funnel.result_eq_of_needsId {document given : Value}
    (h : (ofDocument document given).needsId = false) (fresh fresh' : String) :
    (ofDocument document given).result fresh = (ofDocument document given).result fresh' := by
  unfold ofDocument at h ⊢
  split at h
  · rfl
  · split at h
    · rfl
    · next doc _ _ nodes _ =>
      dsimp only [Reading.ofChecked] at h ⊢
      generalize (if given.isFilled = true then given else doc.get "id") = id at h ⊢
      by_cases hid : id.isFilled = true
      · rw [if_pos hid]
        rfl
      · rw [if_neg hid] at h
        cases h

namespace Activity

variable {α : Type} {now : Instant} {fresh : String} {s s' : Stored MemoryStore}

theorem run_store_bind {call : StoreCall} {next : call.Answer → Activity α} {a : call.Answer}
    (h : (MemoryStore.answer call).run s = (.ok a, s')) :
    (store call >>= next).run (still now fresh) s = (next a).run (still now fresh) s' :=
  run_bind_ok h

theorem run_store_bind_error {call : StoreCall} {next : call.Answer → Activity α} {e : Fault}
    (h : (MemoryStore.answer call).run s = (.error e, s')) :
    (store call >>= next).run (still now fresh) s = (.error e, s') :=
  run_bind_error h

theorem run_clock_bind (next : Instant → Activity α) :
    (clock >>= next).run (still now fresh) s = (next now).run (still now fresh) s := rfl

theorem keeps_bind_pure {β : Type} {inv : MemoryStore → Prop} {act : Activity α}
    {next : α → Activity β} (hnext : ∀ a, ∃ b, next a = pure b) :
    inv ((act >>= next).run (still now fresh) s).2.data ↔
      inv (act.run (still now fresh) s).2.data := by
  rw [run_bind]
  rcases act.run (still now fresh) s with ⟨e | a, s'⟩
  · rfl
  · obtain ⟨b, hb⟩ := hnext a
    simp only [hb]
    rfl

theorem keeps_during {inv : MemoryStore → Prop} {act : Activity α} (task : Undertaking)
    (h : inv (act.run (still now fresh) s).2.data) :
    inv ((during task act).run (still now fresh) s).2.data := by
  rw [during, run_tryCatch]
  split
  · next hrun => rwa [hrun] at h
  · next hrun =>
    rw [hrun] at h
    exact h

theorem run_discard (act : Activity α) {result : Except Fault α}
    (h : act.run (still now fresh) s = (result, s')) :
    (discard act : Activity Unit).run (still now fresh) s = (result.map fun _ => (), s') := by
  change (act >>= fun _ => pure ()).run (still now fresh) s = _
  rw [run_bind, h]
  cases result <;> rfl

end Activity

namespace MemoryStore

variable {m : MemoryStore} {f : Funnel} {id editor : String} {now : Instant}

/-- The lock after an edit: it stays with the editor who had it before, and nobody else has it. -/
def settleLock (m : MemoryStore) (id editor : String) (now : Instant) : MemoryStore :=
  if m.funnelHolder id = some editor then m.takeLock id editor now else m.dropLock id

theorem settleLock_eq (m : MemoryStore) (id editor : String) (now : Instant) :
    m.settleLock id editor now =
      { m with funnelLocks := (m.settleLock id editor now).funnelLocks } := by
  unfold settleLock
  split <;> rfl

theorem get?_settleLock : (m.settleLock id editor now).funnelLocks.get? id =
    if m.funnelHolder id = some editor then some ⟨editor, now⟩ else none := by
  unfold settleLock
  split
  · exact Table.get?_set_self _ _ _
  · exact Table.get?_erase_self _ _

theorem get?_settleLock_of_ne {other : String} (h : other ≠ id) :
    (m.settleLock id editor now).funnelLocks.get? other = m.funnelLocks.get? other := by
  unfold settleLock
  split
  · exact Table.get?_set_of_ne _ _ h
  · exact Table.get?_erase_of_ne _ h

theorem dropLock_takeLock : (m.takeLock id editor now).dropLock id = m.dropLock id := by
  simp only [dropLock, takeLock, Table.erase_set]

theorem removeFunnel_takeLock :
    (m.takeLock id editor now).removeFunnel id = m.removeFunnel id := by
  simp only [removeFunnel, takeLock, Table.erase_set]

theorem settleLock_of_none (h : m.funnelLocks.get? id = none) :
    m.settleLock id editor now = m := by
  have hfree : m.funnelHolder id ≠ some editor := by simp [funnelHolder, h]
  rw [settleLock, if_neg hfree, dropLock, Table.erase_of_get?_eq_none h]

/-- Definitions are stored under their ids, and locks, taken out without a zone, are of stored
definitions. -/
structure IsGuarded (m : MemoryStore) : Prop where
  filed : m.IsFiled
  belongs (id : String) (lock : Lock) (hlock : m.funnelLocks.get? id = some lock) :
    m.funnels.has id = true
  zone (id : String) (lock : Lock) (hlock : m.funnelLocks.get? id = some lock) :
    lock.acquiredAt.zone = none

namespace IsGuarded

variable (h : m.IsGuarded)
include h

theorem funnelLocks_get?_eq_none (hnone : m.funnels.get? id = none) :
    m.funnelLocks.get? id = none := by
  rw [Option.eq_none_iff_forall_ne_some]
  intro lock hlock
  have hstored := h.belongs id lock hlock
  simp [Table.has, hnone] at hstored

theorem congr {m' : MemoryStore} (hfunnels : m'.funnels = m.funnels)
    (hlocks : m'.funnelLocks = m.funnelLocks) : m'.IsGuarded where
  filed := by simpa only [IsFiled, hfunnels] using h.filed
  belongs := by simpa only [hfunnels, hlocks] using h.belongs
  zone := by simpa only [hlocks] using h.zone

theorem takeLock (hstored : m.funnels.has id = true) (hnow : now.zone = none) :
    (m.takeLock id editor now).IsGuarded where
  filed := h.filed
  belongs other lock hlock := by
    rcases Table.of_get?_set_eq_some hlock with ⟨rfl, _⟩ | ⟨_, hlock⟩
    · exact hstored
    · exact h.belongs other lock hlock
  zone other lock hlock := by
    rcases Table.of_get?_set_eq_some hlock with ⟨_, rfl⟩ | ⟨_, hlock⟩
    · exact hnow
    · exact h.zone other lock hlock

theorem dropLock : (m.dropLock id).IsGuarded where
  filed := h.filed
  belongs other lock hlock := h.belongs other lock (Table.of_get?_erase_eq_some hlock).2
  zone other lock hlock := h.zone other lock (Table.of_get?_erase_eq_some hlock).2

theorem settleLock (hnow : now.zone = none) : (m.settleLock id editor now).IsGuarded := by
  unfold MemoryStore.settleLock
  split
  · next hheld =>
    obtain ⟨lock, hlock, _⟩ := funnelHolder_eq_some_iff.mp hheld
    exact h.takeLock (h.belongs id lock hlock) hnow
  · exact h.dropLock

theorem putFunnel (hne : f.id ≠ "") : (m.putFunnel f).IsGuarded where
  filed := h.filed.changes (.saveFunnel f) (by rintro _ ⟨⟩; exact hne)
  belongs other lock hlock := by
    have hstored := h.belongs other lock hlock
    by_cases hother : other = f.id
    · rw [MemoryStore.putFunnel, Table.has, hother, Table.get?_set_self]
      rfl
    · rwa [MemoryStore.putFunnel, Table.has, Table.get?_set_of_ne _ _ hother]
  zone := h.zone

theorem removeFunnel : (m.removeFunnel id).IsGuarded where
  filed := h.filed.changes (.deleteFunnel id) nofun
  belongs other lock hlock := by
    obtain ⟨hother, hlock⟩ := Table.of_get?_erase_eq_some hlock
    have hstored := h.belongs other lock hlock
    rwa [MemoryStore.removeFunnel, Table.has, Table.get?_erase_of_ne _ hother]
  zone other lock hlock := h.zone other lock (Table.of_get?_erase_eq_some hlock).2

end IsGuarded

theorem removeFunnel_of_none (hlock : m.funnelLocks.get? id = none)
    (hfunnel : m.funnels.get? id = none) : m.removeFunnel id = m := by
  rw [removeFunnel, Table.erase_of_get?_eq_none hlock, Table.erase_of_get?_eq_none hfunnel]

end MemoryStore

namespace Editing

open Activity

variable {α : Type} {s : Stored MemoryStore} {id editor fresh : String} {now : Instant}

/-- The funnel that a document is read as when `fresh` is the next id. -/
def readAs (document : Value) (fresh : String) : Except Fault Funnel :=
  (ofDocument document).result (if (ofDocument document).needsId then fresh else "")

theorem run_readFunnel (now : Instant) (fresh : String) (s : Stored MemoryStore)
    (document : Value) : (readFunnel (ofDocument document)).run (still now fresh) s =
      (readAs document fresh, s) := by
  unfold readFunnel readAs
  cases (ofDocument document).needsId <;> rfl

section WithLock

variable {act : Activity α} {s' : Stored MemoryStore}

theorem run_withLock {result : Except Fault α} (hlock : s.data.MayLock id editor now)
    (hact : act.run (still now fresh) { s with data := s.data.takeLock id editor now } =
      (result, s')) :
    (withLock id editor now act).run (still now fresh) s =
      (result, if s.data.funnelHolder id = some editor then s'
        else ((MemoryStore.answer (.unlockFunnel id editor)).run s').2) := by
  refine (run_store_bind (MemoryStore.answer_lockFunnel hlock)).trans ?_
  refine (run_attempt_bind hact).trans ?_
  by_cases hheld : s.data.funnelHolder id = some editor
  · simp only [hheld, decide_true, Bool.not_true, Bool.false_eq_true, if_false, if_true]
    rfl
  · simp only [hheld, decide_false, Bool.not_false, if_true, if_false]
    have hunlock := MemoryStore.answer_unlockFunnel id editor s'
    split at hunlock
    · rw [hunlock]
      exact run_store_bind hunlock
    · rw [hunlock]
      exact run_store_bind hunlock

theorem run_withLock_of_not (fresh : String) (hlock : ¬ s.data.MayLock id editor now) :
    ∃ previous, s.data.funnelLocks.get? id = some previous ∧ previous.holder ≠ editor ∧
      previous.holds s.data.funnelTtl now ≠ .ok false ∧
      (withLock id editor now act).run (still now fresh) s = (.error
        (MemoryStore.lockFault id previous (previous.holds s.data.funnelTtl now)), s) := by
  obtain ⟨previous, hget, hother, hheld, hanswer⟩ := MemoryStore.answer_lockFunnel_of_not hlock
  refine ⟨previous, hget, hother, hheld, ?_⟩
  exact run_store_bind_error hanswer

theorem run_withLock_failed {e : Fault} (hlock : s.data.MayLock id editor now)
    (hact : act.run (still now fresh) { s with data := s.data.takeLock id editor now } =
      (.error e, { s with data := s.data.takeLock id editor now })) :
    (withLock id editor now act).run (still now fresh) s =
      (.error e, { s with data := s.data.settleLock id editor now }) := by
  rw [run_withLock hlock hact, MemoryStore.settleLock]
  split
  · rfl
  · rw [MemoryStore.answer_unlockFunnel, if_pos MemoryStore.funnelHolder_takeLock]
    dsimp only
    rw [MemoryStore.dropLock_takeLock]

theorem run_withLock_written {a : α} {f : Funnel} (hlock : s.data.MayLock id editor now)
    (hact : act.run (still now fresh) { s with data := s.data.takeLock id editor now } =
      (.ok a, { s with data := (s.data.takeLock id editor now).putFunnel f })) :
    (withLock id editor now act).run (still now fresh) s =
      (.ok a, { s with data := (s.data.putFunnel f).settleLock id editor now }) := by
  rw [run_withLock hlock hact, MemoryStore.settleLock, MemoryStore.funnelHolder_putFunnel]
  split
  · rfl
  · have hheld : ((s.data.takeLock id editor now).putFunnel f).funnelHolder id = some editor :=
      MemoryStore.funnelHolder_takeLock
    rw [MemoryStore.answer_unlockFunnel, if_pos hheld]
    exact congrArg (fun m : MemoryStore => (Except.ok a, { s with data := m.putFunnel f }))
      MemoryStore.dropLock_takeLock

theorem run_withLock_removed {a : α} (hlock : s.data.MayLock id editor now)
    (hact : act.run (still now fresh) { s with data := s.data.takeLock id editor now } =
      (.ok a, { s with data := (s.data.takeLock id editor now).removeFunnel id })) :
    (withLock id editor now act).run (still now fresh) s =
      (.ok a, { s with data := s.data.removeFunnel id }) := by
  rw [run_withLock hlock hact, MemoryStore.removeFunnel_takeLock]
  split
  · rfl
  · -- the lock went with the funnel
    rw [MemoryStore.answer_unlockFunnel, if_neg (by simp)]

end WithLock

def Writes (now : Instant) (fresh : String) (s : Stored MemoryStore) (id : String)
    (act : Activity α) : Prop :=
  (∃ e, act.run (still now fresh) s = (.error e, s)) ∨
    ∃ (f : Funnel) (a : α), f.id = id ∧ id ≠ "" ∧
      act.run (still now fresh) s = (.ok a, { s with data := s.data.putFunnel f })

section Writes

variable {act : Activity α}

theorem Writes.during (task : Undertaking) (h : Writes now fresh s id act) :
    Writes now fresh s id (during task act) := by
  unfold Activity.during
  rcases h with ⟨e, hrun⟩ | ⟨f, a, hf, hne, hrun⟩
  · refine .inl ⟨if e.isRefusal then e else .failedWhile task e, ?_⟩
    rw [run_tryCatch, hrun]
    rfl
  · refine .inr ⟨f, a, hf, hne, ?_⟩
    rw [run_tryCatch, hrun]

theorem Writes.map {β : Type} {g : α → β} (h : Writes now fresh s id act) :
    Writes now fresh s id (act >>= fun a => pure (g a)) := by
  rcases h with ⟨e, hrun⟩ | ⟨f, a, hf, hne, hrun⟩
  · exact .inl ⟨e, run_bind_error hrun⟩
  · exact .inr ⟨f, g a, hf, hne, run_bind_ok hrun⟩

theorem writes_saveFunnel {f : Funnel} (hid : f.id = id) (hne : id ≠ "") :
    Writes now fresh s id (store (.saveFunnel f)) :=
  .inr ⟨f, _, hid, hne, MemoryStore.answer_saveFunnel (hid ▸ hne) s⟩

theorem writes_ensureActivatable_bind {f : Funnel} {next : Unit → Activity α}
    (h : Writes now fresh s id (next ())) :
    Writes now fresh s id (ensureActivatable f >>= next) := by
  unfold ensureActivatable
  split
  · exact .inl ⟨_, rfl⟩
  · exact h

theorem Writes.congr {act' : Activity α} (h : Writes now fresh s id act')
    (hrun : act.run (still now fresh) s = act'.run (still now fresh) s) :
    Writes now fresh s id act := by
  rwa [Writes, hrun]

theorem write_writes (now : Instant) (fresh : String) (hs : s.data.IsFiled) {f : Funnel}
    (hne : f.id ≠ "") (written : Instant) : Writes now fresh s f.id (write f written) := by
  apply writes_ensureActivatable_bind
  have hsave (createdAt : Instant) : Writes now fresh s f.id (store (.saveFunnel
      { f with createdAt := some createdAt, updatedAt := some written })) :=
    writes_saveFunnel rfl hne
  rcases hs.answer_getFunnel f.id with ⟨_, hanswer⟩ | ⟨_, _, _, _, hanswer⟩
  · exact (hsave _).congr (run_store_bind hanswer)
  · exact (hsave _).congr (run_store_bind hanswer)

theorem run_detail (now : Instant) (fresh : String) (hs : s.data.IsFiled) (id : String) :
    s.data.funnels.get? id = none ∧
        (detail id).run (still now fresh) s = (.error (.funnelNotFound id), s) ∨
      s.data.funnels.has id = true ∧
        ∃ f : Funnel, f.id = id ∧ id ≠ "" ∧ (detail id).run (still now fresh) s = (.ok f, s) := by
  rcases hs.answer_getFunnel id with ⟨hnone, hanswer⟩ | ⟨hstored, f, hf, hne, hanswer⟩
  · exact .inl ⟨hnone, run_store_bind hanswer⟩
  · exact .inr ⟨hstored, f, hf, hne, run_store_bind hanswer⟩

def switch (id : String) (active : Bool) (written : Instant) : Activity Funnel := do
  let f := { ← detail id with isActive := active }
  ensureActivatable f
  store (.saveFunnel { f with updatedAt := some written })

theorem setActive_eq (id : String) (active : Bool) (editor : String) :
    setActive id active editor =
      clock >>= fun now => withLock id editor now (switch id active now) := rfl

theorem run_switch (now : Instant) (fresh : String) (hs : s.data.IsFiled) (id : String)
    (active : Bool) (written : Instant) :
    (∃ e, (switch id active written).run (still now fresh) s = (.error e, s)) ∨
      ∃ (f : Funnel) (saved : Funnel), f.id = id ∧ id ≠ "" ∧
        s.data.funnels.get? id = some (.object f.toDocument) ∧
        (switch id active written).run (still now fresh) s =
          (.ok saved, { s with data := s.data.putFunnel (f.switched active written) }) := by
  cases hdocument : s.data.funnels.get? id with
  | none =>
    have hmissing : (detail id).run (still now fresh) s = (.error (.funnelNotFound id), s) :=
      run_store_bind (MemoryStore.run_getFunnel_of_none hdocument)
    exact .inl ⟨_, run_bind_error hmissing⟩
  | some document =>
    obtain ⟨hne, f, hf, rfl⟩ := hs id document hdocument
    have hfound : (detail id).run (still now fresh) s = (.ok (f.reread ""), s) :=
      run_store_bind (MemoryStore.answer_getFunnel hne hf hdocument)
    have hsave : (store (.saveFunnel (f.switched active written))).run (still now fresh) s =
        (.ok ((f.switched active written).reread ""),
          { s with data := s.data.putFunnel (f.switched active written) }) :=
      MemoryStore.answer_saveFunnel (by rwa [Funnel.switched_id (hf ▸ hne), hf]) s
    have hchecked (g : Funnel) : (ensureActivatable g).run (still now fresh) s = (.ok (), s) ∨
        ∃ e, (ensureActivatable g).run (still now fresh) s = (.error e, s) := by
      unfold ensureActivatable
      split
      · exact .inr ⟨_, rfl⟩
      · exact .inl rfl
    rcases hchecked { f.reread "" with isActive := active } with hvalid | ⟨e, hinvalid⟩
    · refine .inr ⟨f, (f.switched active written).reread "", hf, hne, rfl, ?_⟩
      exact (run_bind_ok hfound).trans ((run_bind_ok hvalid).trans hsave)
    · exact .inl ⟨e, (run_bind_ok hfound).trans (run_bind_error hinvalid)⟩

theorem switch_writes (now : Instant) (fresh : String) (hs : s.data.IsFiled) (id : String)
    (active : Bool) (written : Instant) : Writes now fresh s id (switch id active written) := by
  rcases run_switch now fresh hs id active written with hfailed | ⟨f, saved, hf, hne, _, hrun⟩
  · exact .inl hfailed
  · have hid : (f.switched active written).id = id := (Funnel.switched_id (hf ▸ hne)).trans hf
    exact .inr ⟨f.switched active written, saved, hid, hne, hrun⟩

end Writes

inductive Settles (s : Stored MemoryStore) (id editor : String) (now : Instant) :
    (deletes : Bool) → Except Fault α → Stored MemoryStore → Prop
  | failed (deletes : Bool) (e : Fault) : Settles s id editor now deletes (.error e)
      { s with data := s.data.settleLock id editor now }
  | written (f : Funnel) (hf : f.id = id) (hne : id ≠ "") (a : α) :
    Settles s id editor now false (.ok a)
      { s with data := (s.data.putFunnel f).settleLock id editor now }
  | removed (a : α) : Settles s id editor now true (.ok a)
      { s with data := s.data.removeFunnel id }

theorem Settles.discard {deletes : Bool} {act : Activity α} {result : Except Fault α}
    {s' : Stored MemoryStore} (hrun : act.run (still now fresh) s = (result, s'))
    (h : Settles s id editor now deletes result s') :
    ∃ result s', (discard act : Activity Unit).run (still now fresh) s = (result, s') ∧
      Settles s id editor now deletes result s' := by
  refine ⟨_, _, run_discard act hrun, ?_⟩
  cases h with
  | failed _ e => exact .failed _ e
  | written f hf hne a => exact .written f hf hne ()
  | removed a => exact .removed ()

theorem Writes.settles {act : Activity α} (hlock : s.data.MayLock id editor now)
    (hact : Writes now fresh { s with data := s.data.takeLock id editor now } id act) :
    ∃ result s', (withLock id editor now act).run (still now fresh) s = (result, s') ∧
      Settles s id editor now false result s' := by
  rcases hact with ⟨e, hrun⟩ | ⟨f, a, hf, hne, hrun⟩
  · exact ⟨_, _, run_withLock_failed hlock hrun, .failed _ e⟩
  · exact ⟨_, _, run_withLock_written hlock hrun, .written f hf hne a⟩

def Operation.IsOn (fresh id : String) : Operation → Prop
  | .save document => ∃ f, readAs document fresh = .ok f ∧ f.id = id
  | .setActive id' _ | .delete id' => id' = id
  | _ => False

def Operation.deletes : Operation → Bool
  | .delete _ => true
  | _ => false

theorem readAs_id_ne {document : Value} {f : Funnel} (hfresh : fresh ≠ "")
    (h : readAs document fresh = .ok f) : f.id ≠ "" := by
  unfold readAs at h
  cases hneeds : (ofDocument document).needsId with
  | true =>
    rw [hneeds, if_pos rfl] at h
    exact (Funnel.readable_of_ofDocument hfresh h).1
  | false =>
    have hsame : (ofDocument document).result "" = (ofDocument document).result fresh := by
      dsimp only [ofDocument]
      rw [Funnel.result_eq_of_needsId hneeds "" fresh]
    rw [hneeds, if_neg Bool.false_ne_true, hsame] at h
    exact (Funnel.readable_of_ofDocument hfresh h).1

section Operation

variable {op : Operation}

theorem save_settles (hs : s.data.IsFiled) {document : Value} {f : Funnel}
    (hread : readAs document fresh = .ok f) (hne : f.id ≠ "")
    (hlock : s.data.MayLock f.id editor now) :
    ∃ result s', (save document editor).run (still now fresh) s = (result, s') ∧
      Settles s f.id editor now false result s' := by
  have hs' : { s with data := s.data.takeLock f.id editor now : Stored MemoryStore }.data.IsFiled :=
    hs
  have hbody := ((write_writes now fresh hs' hne now).map
    (g := fun saved => (saved, f.violations))).during .savingFunnel
  obtain ⟨result, s', hrun, hsettles⟩ := hbody.settles hlock
  have hread' := run_readFunnel now fresh s document
  rw [hread] at hread'
  exact ⟨result, s', (run_bind_ok hread').trans hrun, hsettles⟩

theorem setActive_settles (fresh : String) (hs : s.data.IsFiled) (active : Bool)
    (hlock : s.data.MayLock id editor now) :
    ∃ result s', (setActive id active editor).run (still now fresh) s = (result, s') ∧
      Settles s id editor now false result s' := by
  have hs' : { s with data := s.data.takeLock id editor now : Stored MemoryStore }.data.IsFiled :=
    hs
  exact (switch_writes now fresh hs' id active now).settles hlock

theorem delete_settles (hs : s.data.IsGuarded) (hlock : s.data.MayLock id editor now) :
    ∃ result s', (delete id editor).run (still now fresh) s = (result, s') ∧
      Settles s id editor now true result s' := by
  have hanswer := MemoryStore.answer_deleteFunnel id
    { s with data := s.data.takeLock id editor now }
  have hdeleted : (withLock id editor now (store (.deleteFunnel id))).run (still now fresh) s =
      (.ok (s.data.funnels.has id), { s with data := s.data.removeFunnel id }) :=
    run_withLock_removed hlock hanswer
  cases hstored : s.data.funnels.has id with
  | true =>
    rw [hstored] at hdeleted
    exact ⟨_, _, (run_clock_bind _).trans (run_bind_ok hdeleted), .removed ()⟩
  | false =>
    rw [hstored] at hdeleted
    -- there was no lock, as there was no funnel
    have hnone : s.data.funnels.get? id = none := by simpa [Table.has] using hstored
    have hfree := hs.funnelLocks_get?_eq_none hnone
    refine ⟨_, _, (run_clock_bind _).trans (run_bind_ok hdeleted), ?_⟩
    have hsettles : Settles s id editor now true
        (.error (.funnelNotFound id) : Except Fault Unit) _ := .failed true (.funnelNotFound id)
    rw [MemoryStore.settleLock_of_none hfree] at hsettles
    rw [MemoryStore.removeFunnel_of_none hfree hnone]
    exact hsettles

theorem Operation.settles (hs : s.data.IsGuarded) (hfresh : fresh ≠ "") (hop : op.IsOn fresh id)
    (hlock : s.data.MayLock id editor now) :
    ∃ result s', (op.by editor).run (still now fresh) s = (result, s') ∧
      Settles s id editor now op.deletes result s' := by
  cases op with
  | save document =>
    obtain ⟨f, hread, rfl⟩ := hop
    obtain ⟨_, _, hrun, hsettles⟩ := save_settles hs.filed hread (readAs_id_ne hfresh hread) hlock
    exact hsettles.discard hrun
  | setActive id' active =>
    obtain rfl : id' = id := hop
    obtain ⟨_, _, hrun, hsettles⟩ := setActive_settles fresh hs.filed active hlock
    exact hsettles.discard hrun
  | delete id' =>
    obtain rfl : id' = id := hop
    exact delete_settles hs hlock
  | lock => exact hop.elim
  | unlock => exact hop.elim
  | ensurePostFunnel => exact hop.elim

theorem Operation.refused (hop : op.IsOn fresh id) (hlock : ¬ s.data.MayLock id editor now) :
    ∃ previous, s.data.funnelLocks.get? id = some previous ∧ previous.holder ≠ editor ∧
      previous.holds s.data.funnelTtl now ≠ .ok false ∧
      (op.by editor).run (still now fresh) s = (.error
        (MemoryStore.lockFault id previous (previous.holds s.data.funnelTtl now)), s) := by
  cases op with
  | save document =>
    obtain ⟨f, hread, rfl⟩ := hop
    have hread' := run_readFunnel now fresh s document
    rw [hread] at hread'
    obtain ⟨previous, hget, hother, hheld, hrun⟩ := run_withLock_of_not fresh hlock
    have hsave : (Editing.save document editor).run (still now fresh) s = _ :=
      (run_bind_ok hread').trans hrun
    exact ⟨previous, hget, hother, hheld, run_discard _ hsave⟩
  | setActive id' active =>
    obtain rfl : id' = id := hop
    obtain ⟨previous, hget, hother, hheld, hrun⟩ := run_withLock_of_not fresh hlock
    exact ⟨previous, hget, hother, hheld, run_discard _ hrun⟩
  | delete id' =>
    obtain rfl : id' = id := hop
    obtain ⟨previous, hget, hother, hheld, hrun⟩ := run_withLock_of_not fresh hlock
    exact ⟨previous, hget, hother, hheld, (run_clock_bind _).trans (run_bind_error hrun)⟩
  | lock => exact hop.elim
  | unlock => exact hop.elim
  | ensurePostFunnel => exact hop.elim

theorem run_save_of_undecodable {document : Value} {e : Fault}
    (h : readAs document fresh = .error e) :
    ((Operation.save document).by editor).run (still now fresh) s = (.error e, s) := by
  have hread := run_readFunnel now fresh s document
  rw [h] at hread
  exact run_discard _ (run_bind_error hread)

theorem Settles.isGuarded {deletes : Bool} {result : Except Fault α} {s' : Stored MemoryStore}
    (hs : s.data.IsGuarded) (hnow : now.zone = none)
    (h : Settles s id editor now deletes result s') : s'.data.IsGuarded := by
  cases h with
  | failed => exact hs.settleLock hnow
  | written f hf hne => exact (hs.putFunnel (hf ▸ hne)).settleLock hnow
  | removed => exact hs.removeFunnel

namespace Operation

variable (hs : s.data.IsGuarded) (hfresh : fresh ≠ "") (hnow : now.zone = none)
include hs hfresh hnow

theorem keeps_of_isOn (op : Operation) (hop : op.IsOn fresh id) :
    ((op.by editor).run (still now fresh) s).2.data.IsGuarded := by
  by_cases hlock : s.data.MayLock id editor now
  · obtain ⟨result, s', hrun, hsettles⟩ := op.settles hs hfresh hop hlock
    rw [hrun]
    exact hsettles.isGuarded hs hnow
  · obtain ⟨previous, _, _, _, hrun⟩ := op.refused hop hlock
    rw [hrun]
    exact hs

theorem save_keeps (document : Value) (editor : String) :
    ((Editing.save document editor).run (still now fresh) s).2.data.IsGuarded := by
  have hdone : (((save document).by editor).run (still now fresh) s).2.data.IsGuarded := by
    cases hread : readAs document fresh with
    | error e =>
      rw [run_save_of_undecodable hread]
      exact hs
    | ok f => exact keeps_of_isOn hs hfresh hnow (.save document) ⟨f, hread, rfl⟩
  exact (keeps_bind_pure fun _ => ⟨(), rfl⟩).mp hdone

omit hfresh in
theorem lock_keeps (id editor : String) :
    ((Editing.lock id editor).run (still now fresh) s).2.data.IsGuarded := by
  rcases run_detail now fresh hs.filed id with
    ⟨_, hnone⟩ | ⟨hstored, f, hf, hne, hfound⟩
  · rw [Editing.lock, run_bind_error hnone]
    exact hs
  · rw [Editing.lock, run_bind_ok hfound, run_clock_bind]
    refine (keeps_bind_pure fun _ => ⟨(), rfl⟩).mpr ?_
    change ((MemoryStore.answer (.lockFunnel id editor now)).run s).2.data.IsGuarded
    by_cases hlock : s.data.MayLock id editor now
    · rw [MemoryStore.answer_lockFunnel hlock]
      exact hs.takeLock hstored hnow
    · obtain ⟨_, _, _, _, hanswer⟩ := MemoryStore.answer_lockFunnel_of_not hlock
      rw [hanswer]
      exact hs

theorem ensurePostFunnel_keeps (editor : String) :
    ((Editing.ensurePostFunnel editor).run (still now fresh) s).2.data.IsGuarded := by
  have hlist : (list.run (still now fresh) s).2.data.IsGuarded :=
    keeps_during .listingFunnels (MemoryStore.listFunnels_keeps s hs)
  unfold Editing.ensurePostFunnel
  rw [run_bind]
  split
  · next found s₁ hrun =>
    rw [hrun] at hlist
    split
    · exact hlist
    · have hid : (request .funnelId).run (still now fresh) s₁ = (.ok fresh, s₁) := rfl
      rw [run_bind_ok hid]
      refine (keeps_bind_pure fun _ => ⟨_, rfl⟩).mpr ?_
      exact save_keeps hlist hfresh hnow _ editor
  · next hrun => rwa [hrun] at hlist

theorem keeps (op : Operation) (editor : String) :
    ((op.by editor).run (still now fresh) s).2.data.IsGuarded := by
  cases op with
  | save document =>
    exact (keeps_bind_pure fun _ => ⟨(), rfl⟩).mpr (save_keeps hs hfresh hnow document editor)
  | setActive id active => exact keeps_of_isOn hs hfresh hnow (.setActive id active) rfl
  | delete id => exact keeps_of_isOn hs hfresh hnow (.delete id) rfl
  | lock id => exact lock_keeps hs hnow id editor
  | unlock id =>
    refine (keeps_bind_pure fun _ => ⟨(), rfl⟩).mpr ?_
    change ((MemoryStore.answer (.unlockFunnel id editor)).run s).2.data.IsGuarded
    rw [MemoryStore.answer_unlockFunnel]
    split
    · exact hs.dropLock
    · exact hs
  | ensurePostFunnel =>
    exact (keeps_bind_pure fun _ => ⟨(), rfl⟩).mpr (ensurePostFunnel_keeps hs hfresh hnow editor)

end Operation

end Operation

/-- The stores that editors leave behind who work one after the other, each operation with whatever
result. An operation reads the clock at most once, which has no zone, and takes at most one new id,
which is not empty. -/
inductive InTurn (runTtl funnelTtl : Span) : Stored MemoryStore → Prop
  | empty (ids : IdSupply) : InTurn runTtl funnelTtl ⟨ids, .empty runTtl funnelTtl⟩
  | next {s : Stored MemoryStore} (h : InTurn runTtl funnelTtl s) (editor : String)
    (op : Operation) {now : Instant} (hnow : now.zone = none) {fresh : String}
    (hfresh : fresh ≠ "") :
    InTurn runTtl funnelTtl ((op.by editor).run (still now fresh) s).2

theorem InTurn.isGuarded {runTtl funnelTtl : Span} (h : InTurn runTtl funnelTtl s) :
    s.data.IsGuarded := by
  induction h with
  | empty ids => exact ⟨nofun, nofun, nofun⟩
  | next _ editor op hnow hfresh ih => exact Operation.keeps ih hfresh hnow op editor

/-- What becomes of the store under an operation that got the lock of a funnel. -/
structure Leaves (id editor : String) (now : Instant) (deletes : Bool) (result : Except Fault Unit)
    (m m' : MemoryStore) : Prop where
  lock (h : deletes = false ∨ result ≠ .ok ()) : m'.funnelLocks.get? id =
    if m.funnelHolder id = some editor then some ⟨editor, now⟩ else none
  deleted (h : deletes = true) (hok : result = .ok ()) : m'.funnelLocks.get? id = none
  failed (e : Fault) (h : result = .error e) : m'.funnels = m.funnels
  runs : m'.runs = m.runs ∧ m'.runLocks = m.runLocks
  others (other : String) (h : other ≠ id) : m'.funnels.get? other = m.funnels.get? other ∧
    m'.funnelLocks.get? other = m.funnelLocks.get? other

theorem Settles.leaves {deletes : Bool} {result : Except Fault Unit} {s' : Stored MemoryStore}
    (h : Settles s id editor now deletes result s') :
    Leaves id editor now deletes result s.data s'.data := by
  cases h with
  | failed _ e =>
    have hsettled := s.data.settleLock_eq id editor now
    refine ⟨fun _ => MemoryStore.get?_settleLock, nofun, fun _ _ => ?_, ⟨?_, ?_⟩, fun other h => ?_⟩
    · rw [hsettled]
    · rw [hsettled]
    · rw [hsettled]
    · refine ⟨?_, MemoryStore.get?_settleLock_of_ne h⟩
      rw [hsettled]
  | written f hf hne a =>
    have hsettled := (s.data.putFunnel f).settleLock_eq id editor now
    refine ⟨fun _ => MemoryStore.get?_settleLock, nofun, nofun, ⟨?_, ?_⟩, fun other h => ?_⟩
    · rw [hsettled]
      rfl
    · rw [hsettled]
      rfl
    · refine ⟨?_, MemoryStore.get?_settleLock_of_ne h⟩
      rw [hsettled]
      exact Table.get?_set_of_ne _ _ (hf ▸ h)
  | removed a =>
    refine ⟨fun h => ?_, fun _ _ => Table.get?_erase_self _ _, nofun, ⟨rfl, rfl⟩, fun other h => ?_⟩
    · exact absurd h (by simp)
    · exact ⟨Table.get?_erase_of_ne _ h, Table.get?_erase_of_ne _ h⟩

theorem holds_of_plus {lock : Lock} {ttl : Span} {ends : Instant}
    (hzone : lock.acquiredAt.zone = none) (hnow : now.zone = none)
    (hends : lock.acquiredAt.plus ttl = .ok ends) :
    lock.holds ttl now = .ok (now.lt ends) := by
  have hendsZone : ends.zone = none := by
    rw [Instant.eq_of_plus hends]
    exact hzone
  rw [Lock.holds_eq hends, if_pos (by simp [Instant.comparable, hendsZone, hnow])]

/-- As long as editors work one after the other, only stored funnels are locked. Whoever else has
the lock of a funnel keeps every write of it out, and a lock whose end is outside the calendar makes
the write fail; the store stays as it is. Otherwise the editor has the lock afterwards who had it
before, and nobody else, unless the funnel was deleted. What fails changes no funnel, and no other
funnel or lock is touched. A document that cannot be read changes nothing. -/
theorem InTurn.edits_leave_locks {runTtl funnelTtl : Span} (h : InTurn runTtl funnelTtl s) :
    (∀ id lock, s.data.funnelLocks.get? id = some lock → s.data.funnels.has id = true) ∧
    ∀ (editor fresh : String) (now : Instant), fresh ≠ "" → now.zone = none →
      (∀ document e, readAs document fresh = .error e →
        ((Operation.save document).by editor).run (still now fresh) s = (.error e, s)) ∧
      ∀ (op : Operation) (id : String), op.IsOn fresh id →
        (∀ lock, s.data.funnelLocks.get? id = some lock → lock.holder ≠ editor →
          (∀ ends, lock.acquiredAt.plus s.data.funnelTtl = .ok ends → now.lt ends = true →
            (op.by editor).run (still now fresh) s =
              (.error (.funnelLocked id (some lock.holder)), s)) ∧
          ∀ e, lock.acquiredAt.plus s.data.funnelTtl = .error e →
            (op.by editor).run (still now fresh) s = (.error (.span e), s)) ∧
        ((∀ lock, s.data.funnelLocks.get? id = some lock → lock.holder ≠ editor →
            ∃ ends, lock.acquiredAt.plus s.data.funnelTtl = .ok ends ∧ now.lt ends = false) →
          Leaves id editor now op.deletes ((op.by editor).run (still now fresh) s).1 s.data
            ((op.by editor).run (still now fresh) s).2.data) := by
  have hs := h.isGuarded
  refine ⟨hs.belongs, fun editor fresh now hfresh hnow => ⟨fun document e hread => ?_,
    fun op id hop => ⟨fun lock hlock hother => ?_, fun hfree => ?_⟩⟩⟩
  · exact run_save_of_undecodable hread
  -- another editor's lock that does not run out, or cannot be compared, keeps the operation out
  · have hrefused (held : Except Fault Bool) (hheld : lock.holds s.data.funnelTtl now = held)
        (hne : held ≠ .ok false) : (op.by editor).run (still now fresh) s =
          (.error (MemoryStore.lockFault id lock held), s) := by
      have hnot : ¬ s.data.MayLock id editor now := fun hmay =>
        (hmay lock hlock).elim hother fun hranOut => hne (hheld.symm.trans hranOut)
      obtain ⟨previous, hget, _, _, hrun⟩ := op.refused hop hnot
      obtain rfl : lock = previous := Option.some.inj (hlock.symm.trans hget)
      rwa [hheld] at hrun
    constructor
    · intro ends hends hlater
      have hholds := holds_of_plus (hs.zone id lock hlock) hnow hends
      exact hrefused (.ok true) (by rw [hholds, hlater]) (by simp)
    · intro e hends
      exact hrefused (.error (.span e)) (by rw [Lock.holds, hends]; rfl) (by simp)
  · have hmay : s.data.MayLock id editor now := by
      intro lock hlock
      by_cases hother : lock.holder = editor
      · exact .inl hother
      · obtain ⟨ends, hends, hpast⟩ := hfree lock hlock hother
        exact .inr (by rw [holds_of_plus (hs.zone id lock hlock) hnow hends, hpast])
    obtain ⟨result, s', hrun, hsettles⟩ := op.settles hs hfresh hop hmay
    rw [hrun]
    exact hsettles.leaves

def draft : Funnel :=
  { id := "draft", name := "Draft", trigger := .leadSubscribed, isActive := false, startNodeId := ""
    nodes := [], createdAt := none, updatedAt := none }

/-- The draft was saved at some time, and its editor has kept the lock since. -/
def leasedAt (now : Instant) (funnelTtl : Span) : Stored MemoryStore :=
  let saved := { draft with createdAt := some now, updatedAt := some now }
  ⟨.first, ((MemoryStore.empty ⟨0⟩ funnelTtl).putFunnel saved).takeLock "draft" "ada" now⟩

def leased (funnelTtl : Span) : Stored MemoryStore := leasedAt ⟨0, none⟩ funnelTtl

theorem inTurn_leasedAt (hnow : now.zone = none) (funnelTtl : Span) :
    InTurn ⟨0⟩ funnelTtl (leasedAt now funnelTtl) := by
  have hempty : InTurn ⟨0⟩ funnelTtl ⟨.first, .empty ⟨0⟩ funnelTtl⟩ := .empty .first
  have hfresh : "fresh" ≠ "" := by decide
  have hsaved := hempty.next "ada" (.save (.object draft.toDocument)) hnow hfresh
  exact hsaved.next "ada" (.lock "draft") hnow hfresh

/-- With the lock for a quarter of an hour, another editor comes too early, and comes in time; the
editor who has the lock deletes the draft. -/
theorem leased_edits_leave_locks :
    let s := leased ⟨900000000⟩
    let status := (Operation.setActive "draft" true).by "bob"
    let late := status.run (still ⟨900000000, none⟩ "fresh") s
    let deletion := ((Operation.delete "draft").by "ada").run (still ⟨1, none⟩ "fresh") s
    InTurn ⟨0⟩ ⟨900000000⟩ s ∧ s.data.funnels.has "draft" = true ∧
    ((Operation.save (.int 7)).by "bob").run (still ⟨1, none⟩ "fresh") s =
      (.error (.noSuchPart "int" "get"), s) ∧
    status.run (still ⟨899999999, none⟩ "fresh") s =
      (.error (.funnelLocked "draft" (some "ada")), s) ∧
    Leaves "draft" "bob" ⟨900000000, none⟩ false late.1 s.data late.2.data ∧
    Leaves "draft" "ada" ⟨1, none⟩ true deletion.1 s.data deletion.2.data := by
  intro s status late deletion
  have hinTurn : InTurn ⟨0⟩ ⟨900000000⟩ s := inTurn_leasedAt rfl _
  obtain ⟨hstored, hedits⟩ := hinTurn.edits_leave_locks
  have hlock : s.data.funnelLocks.get? "draft" = some ⟨"ada", ⟨0, none⟩⟩ := rfl
  have hfresh : "fresh" ≠ "" := by decide
  refine ⟨hinTurn, hstored "draft" _ hlock, ?_, ?_, ?_, ?_⟩
  · exact (hedits "bob" "fresh" ⟨1, none⟩ hfresh rfl).1 (.int 7) _ rfl
  · have hearly := (hedits "bob" "fresh" ⟨899999999, none⟩ hfresh rfl).2
      (.setActive "draft" true) "draft" rfl
    exact (hearly.1 _ hlock (by decide)).1 ⟨900000000, none⟩ rfl rfl
  · have hlate := (hedits "bob" "fresh" ⟨900000000, none⟩ hfresh rfl).2
      (.setActive "draft" true) "draft" rfl
    apply hlate.2
    rintro lock ⟨⟩ _
    exact ⟨_, rfl, rfl⟩
  · have hdeleted := (hedits "ada" "fresh" ⟨1, none⟩ hfresh rfl).2 (.delete "draft") "draft" rfl
    apply hdeleted.2
    rintro lock ⟨⟩ hother
    exact absurd rfl hother

/-- Ten minutes before the end of the calendar. -/
def lastMinutes : Instant := ⟨Calendar.wallEnd - 600000000, none⟩

/-- A lock with its end outside the calendar keeps others out, but it is not what they are told. -/
theorem not_told_of_endless_lock :
    let s := leasedAt lastMinutes ⟨900000000⟩
    InTurn ⟨0⟩ ⟨900000000⟩ s ∧ s.data.funnelLocks.get? "draft" = some ⟨"ada", lastMinutes⟩ ∧
    lastMinutes.universal < lastMinutes.universal + 900000000 ∧
    ((Operation.setActive "draft" false).by "bob").run (still lastMinutes "fresh") s =
      (.error (.span .outsideCalendar), s) ∧
    ¬ ∀ (funnelTtl : Span) (s : Stored MemoryStore) (lock : Lock) (now : Instant),
      InTurn ⟨0⟩ funnelTtl s → s.data.funnelLocks.get? "draft" = some lock → lock.holder ≠ "bob" →
      now.universal < lock.acquiredAt.universal + funnelTtl.micros →
      (((Operation.setActive "draft" false).by "bob").run (still now "fresh") s).1 =
        .error (.funnelLocked "draft" (some lock.holder)) := by
  intro s
  have hinTurn : InTurn ⟨0⟩ ⟨900000000⟩ s := inTurn_leasedAt rfl _
  have hrun : ((Operation.setActive "draft" false).by "bob").run (still lastMinutes "fresh") s =
      (.error (.span .outsideCalendar), s) := rfl
  refine ⟨hinTurn, rfl, by decide, hrun, fun h => ?_⟩
  have htold := h ⟨900000000⟩ s ⟨"ada", lastMinutes⟩ lastMinutes hinTurn rfl (by decide) (by decide)
  rw [hrun] at htold
  cases htold

end Editing

end FunnelFlow
