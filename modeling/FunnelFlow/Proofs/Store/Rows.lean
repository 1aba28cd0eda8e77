import FunnelFlow.Store.Database
import FunnelFlow.Proofs.Funnel.Document
import FunnelFlow.Proofs.Store.Collection
import FunnelFlow.Proofs.Store.Due

namespace FunnelFlow

def Funnel.restored (f : Funnel) : Funnel := { f with nodes := f.nodes.map Node.reread }

/-- A store can give the funnel back under its id and put it in order with others. -/
structure Funnel.IsKeepable (f : Funnel) : Prop where
  id : f.id ≠ ""
  createdAt : ∀ t, f.createdAt = some t → t.zone = none

/-- The times of the run that a store looks at are reckoned without a zone. -/
structure Run.IsNaive (r : Run) : Prop extends r.IsPlain where
  createdAt : ∀ t, r.createdAt = some t → t.zone = none

theorem Funnel.ofDocument_eq_restored {f : Funnel} (hne : f.id ≠ "") {doc : Fields}
    {given : Value} (hid : (if given.isFilled then given else doc.get "id") = .text f.id)
    (hnodes : doc.get "nodes" = .list (f.nodes.map Node.toDocument))
    (hfields : recognised doc = recognised f.toDocument) :
    ofDocument (.object doc) given = { needsId := false, result := fun _ => .ok f.restored } := by
  have hfilled : (Value.text f.id).isFilled = true := by simp [Value.isFilled, hne]
  simp only [ofDocument, Value.fields?, hnodes, readNodes_toDocument, hid, if_pos hfilled, hfields,
    Reading.ofChecked, Option.getD_some, Coerce.text, readFields_toDocument]
  rfl

theorem MemoryStore.readDocument_toDocument {f : Funnel} (hne : f.id ≠ "") :
    readDocument (.object f.toDocument) = pure f.restored := by
  rw [readDocument, Funnel.ofDocument_eq_restored hne rfl rfl rfl, StoreM.readFunnel_eq]
  rfl

theorem Value.canOrder_ofInstant? {t? u? : Option Instant} (ht : ∀ t, t? = some t → t.zone = none)
    (hu : ∀ u, u? = some u → u.zone = none) :
    (Value.ofInstant? t?).canOrder (.ofInstant? u?) = true := by
  cases t? with
  | none => rfl
  | some t =>
    cases u? with
    | none => rfl
    | some u =>
      have hcomparable : t.comparable u = true := by
        simp [Instant.comparable, ht t rfl, hu u rfl]
      exact hcomparable

theorem Instant.zone_of_minus {now expired : Instant} {ttl : Span} (hnow : now.zone = none)
    (hexpired : now.minus ttl = .ok expired) : expired.zone = none := by
  rw [Instant.eq_of_plus hexpired]
  exact hnow

/-- That a lock runs out later than now is that it was taken later than one that runs out now. -/
theorem Lock.holds_eq_not_le {lock : Lock} {ttl : Span} {t now expired : Instant}
    (hends : lock.acquiredAt.plus ttl = .ok t) (hzone : lock.acquiredAt.zone = none)
    (hnow : now.zone = none) (hexpired : now.minus ttl = .ok expired) :
    lock.holds ttl now = .ok (!lock.acquiredAt.le expired) := by
  have ht := Instant.eq_of_plus hends
  have he := Instant.eq_of_plus hexpired
  have hcomparable : t.comparable now = true := by simp [ht, Instant.comparable, hzone, hnow]
  have hlt : now.lt t = !lock.acquiredAt.le expired := by
    rw [Bool.eq_iff_iff]
    simp only [ht, he, Instant.lt, Instant.le, Instant.universal, hzone, hnow, Option.getD_none,
      decide_eq_true_eq, Bool.not_eq_true', decide_eq_false_iff_not]
    omega
  rw [holds_eq hends, if_pos hcomparable, hlt]

namespace MemoryStore

variable {m : MemoryStore} {r : Run} {now expired : Instant}

theorem HasPlainLocks.isLocked_eq (h : m.HasPlainLocks) (hnow : now.zone = none)
    (hexpired : now.minus m.runTtl = .ok expired) (id : String) :
    m.isLocked id now = .ok !(m.runLocks.get? id).all (·.acquiredAt.le expired) := by
  rw [isLocked]
  cases hget : m.runLocks.get? id with
  | none => rfl
  | some lock =>
    obtain ⟨t, ht⟩ := h.ends id lock hget
    exact Lock.holds_eq_not_le ht (h.zone id lock hget) hnow hexpired

theorem HasPlainLocks.isReady_eq (h : m.HasPlainLocks) (hnow : now.zone = none)
    (hexpired : now.minus m.runTtl = .ok expired) {due : Bool} (hdue : r.isDue now = .ok due) :
    m.isReady now r = ((m.runLocks.get? r.id).all (·.acquiredAt.le expired) && due) := by
  rw [isReady, h.isLocked_eq hnow hexpired, hdue]
  cases (m.runLocks.get? r.id).all (·.acquiredAt.le expired) <;> cases due <;> rfl

end MemoryStore

namespace Database

open StoreM

variable {f : Funnel} {r r' : Run} {lock lock' : Option Lock} {now expired : Instant} {id : String}

theorem idOf_funnelRow (f : Funnel) : Collection.idOf (funnelRow f) = .text f.id := rfl

theorem recognised_funnelRow (f : Funnel) :
    Funnel.recognised (funnelRow f) = Funnel.recognised f.toDocument := by
  refine List.filterMap_congr fun key hkey => ?_
  have hget : (funnelRow f).get key = f.toDocument.get key := by
    simp only [List.mem_cons, List.not_mem_nil, or_false] at hkey
    rcases hkey with rfl | rfl | rfl | rfl | rfl | rfl <;> rfl
  rw [hget]

theorem readRow_funnelRow (h : f.IsKeepable) : readRow (funnelRow f) = pure f.restored := by
  have hid : (funnelRow f).get "_id" = .text f.id := rfl
  have hfilled : (Value.text f.id).isFilled = true := by simp [Value.isFilled, h.id]
  rw [readRow, hid, Value.display,
    f.ofDocument_eq_restored h.id (if_pos hfilled) rfl (recognised_funnelRow f), readFunnel_eq]
  rfl

def lockFields : Option Lock → Fields
  | none => unlocked
  | some lock =>
    [("lock_owner", .text lock.holder), ("lock_acquired_at", .instant lock.acquiredAt)]

def runRow (r : Run) (lock : Option Lock) : Fields :=
  r.toFields ++ ("_id", .text r.id) :: lockFields lock

theorem readRunRow_runRow (r : Run) (lock : Option Lock) : readRunRow (runRow r lock) = pure r := by
  have hid : (runRow r lock).get "_id" = .text r.id := rfl
  have hrow : Table.set (runRow r lock) "id" (.text r.id) =
      r.toFields ++ ("_id", .text r.id) :: (lockFields lock ++ [("id", .text r.id)]) := by
    cases lock <;> rfl
  have hfields := Run.readFields_append r
    (("_id", .text r.id) :: (lockFields lock ++ [("id", .text r.id)]))
  rw [← hrow] at hfields
  rw [readRunRow, hid, Value.display, Run.ofDocument_eq (Table.get?_set_self _ _ _) hfields,
    readRun_eq]
  rfl

theorem setAll_lock (r : Run) (lock lock' : Option Lock) :
    Table.setAll (runRow r lock) (lockFields lock') = runRow r lock' := by
  cases lock <;> cases lock' <;> rfl

theorem setAll_run (hid : r'.id = r.id) (lock : Option Lock) :
    Table.setAll (runRow r lock) r'.toFields = runRow r' lock := by
  have hfields (rest : Fields) : Table.setAll (r.toFields ++ rest) r'.toFields =
      r'.toFields ++ rest := rfl
  rw [runRow, hfields, runRow, hid]

theorem setAll_runAndLock (hid : r'.id = r.id) (lock lock' : Option Lock) :
    Table.setAll (runRow r lock) (r'.toFields ++ lockFields lock') = runRow r' lock' := by
  rw [Table.setAll_append, setAll_run hid, setAll_lock]

def lockRow (e : String × Lock) : Fields :=
  [("_id", .text e.1), ("holder", .text e.2.holder), ("acquired_at", .instant e.2.acquiredAt)]

theorem idOf_lockRow (e : String × Lock) : Collection.idOf (lockRow e) = .text e.1 := rfl

theorem setAll_lockRow (e : String × Lock) (holder : String) (now : Instant) :
    Table.setAll (lockRow e) [("holder", .text holder), ("acquired_at", .instant now)] =
      lockRow (e.1, ⟨holder, now⟩) := rfl

section Queries

theorem expiry_eq_ok {ttl : Span} (hexpired : now.minus ttl = .ok expired) :
    expiry now ttl = .ok expired := by
  rw [expiry, hexpired]
  rfl

theorem accepts_byId {row : Fields} {k : String} (hid : Collection.idOf row = .text k)
    (id : String) : (byId id).accepts row = .ok (decide (k = id)) := Query.accepts_is_text hid

theorem accepts_byId_both {row : Fields} {k : String} (hid : Collection.idOf row = .text k)
    {id : String} {q : Query} {x : Bool} (hq : k = id → q.accepts row = .ok x) :
    (Query.both (byId id) q).accepts row = .ok (decide (k = id) && x) := by
  by_cases hk : k = id
  · exact Query.accepts_both (accepts_byId hid id) (hq hk)
  · rw [Query.accepts, accepts_byId hid id, decide_eq_false hk]
    rfl

section Ids

variable {α : Type} {row : α → Fields} {key : α → String} {as : List α}
  (hkey : ∀ a, Collection.idOf (row a) = .text (key a))
include hkey

theorem singles_byId (as : List α) (a : α) :
    Collection.Singles row key as (byId (key a)) a := by
  refine ⟨?_, fun b _ hne => ?_⟩
  · rw [accepts_byId (hkey a), decide_eq_true rfl]
  · rw [accepts_byId (hkey b), decide_eq_false hne]

theorem singles_byId_both {a : α} {q : Query} (hq : q.accepts (row a) = .ok true) (as : List α) :
    Collection.Singles row key as (.both (byId (key a)) q) a := by
  refine ⟨?_, fun b _ hne => ?_⟩
  · rw [accepts_byId_both (hkey a) fun _ => hq, decide_eq_true rfl]
    rfl
  · rw [accepts_byId_both (x := true) (hkey b) fun hb => absurd hb hne, decide_eq_false hne,
      Bool.false_and]

theorem not_accepts_byId (hnone : ∀ a ∈ as, key a ≠ id) :
    ∀ a ∈ as, (byId id).accepts (row a) = .ok false := by
  intro a ha
  rw [accepts_byId (hkey a), decide_eq_false (hnone a ha)]

theorem not_accepts_byId_both {q : Query}
    (hq : ∀ a ∈ as, key a = id → q.accepts (row a) = .ok false) :
    ∀ a ∈ as, (Query.both (byId id) q).accepts (row a) = .ok false := by
  intro a ha
  rw [accepts_byId_both (hkey a) (hq a ha), Bool.and_false]

end Ids

theorem accepts_active (f : Funnel) (t : Trigger) :
    (Query.both (.is "isActive" (.bool true)) (.is "trigger" (.text t.name))).accepts
      (funnelRow f) = .ok (f.isActive && f.trigger == t) := by
  have hactive : (Value.bool f.isActive).sameTo (.bool true) = f.isActive := by
    cases f.isActive <;> rfl
  have htrigger : decide (f.trigger.name = t.name) = (f.trigger == t) := by
    cases f.trigger <;> cases t <;> rfl
  rw [← hactive, ← htrigger]
  exact Query.accepts_both (Query.accepts_is rfl rfl) (Query.accepts_is_text rfl)

theorem accepts_heldBy (r : Run) (lock : Option Lock) (owner : String) :
    (Query.is "lock_owner" (.text owner)).accepts (runRow r lock) =
      .ok (lock.any (·.holder == owner)) := by
  cases lock with
  | none => exact Query.accepts_is rfl rfl
  | some lock =>
    rw [Query.accepts_is_text (s := lock.holder) rfl]
    simp [beq_eq_decide]

theorem accepts_unlockedBy (hzone : ∀ l, lock = some l → l.acquiredAt.zone = none)
    (hexpired : expired.zone = none) (r : Run) :
    (unlockedBy expired).accepts (runRow r lock) = .ok (lock.all (·.acquiredAt.le expired)) := by
  have hacquired : Fields.get (runRow r lock) "lock_acquired_at" =
      .ofInstant? (lock.map (·.acquiredAt)) := by
    cases lock <;> rfl
  have hzone' : ∀ u, lock.map (·.acquiredAt) = some u → u.zone = none := by
    intro u hu
    obtain ⟨l, hl, rfl⟩ := Option.map_eq_some_iff.mp hu
    exact hzone l hl
  have hranOut := Query.accepts_notAfter hacquired hzone' hexpired
  cases lock with
  | none => exact Query.accepts_either (Query.accepts_is rfl rfl) hranOut
  | some lock => exact Query.accepts_either (Query.accepts_is rfl rfl) hranOut

theorem accepts_dueQuery (h : r.IsPlain) (hnow : now.zone = none) {due : Bool}
    (hdue : r.isDue now = .ok due) (lock : Option Lock) :
    (dueQuery now).accepts (runRow r lock) = .ok due := by
  have hstatus (s : RunStatus) : (Query.is "status" (.text s.name)).accepts (runRow r lock) =
      .ok (r.status == s) := by
    rw [Query.accepts_is_text (s := r.status.name) rfl]
    cases r.status <;> cases s <;> rfl
  have hresumeAt : Fields.get (runRow r lock) "resumeAt" = .ofInstant? r.resumeAt := rfl
  have hnextAttemptAt : Fields.get (runRow r lock) "nextAttemptAt" =
      .ofInstant? r.nextAttemptAt := rfl
  have hresume := Query.accepts_notAfter hresumeAt h.resumeAt hnow
  have hnever := Query.accepts_isNull hnextAttemptAt
  have hagain := Query.accepts_notAfter hnextAttemptAt h.nextAttemptAt hnow
  have hquery := Query.accepts_either (Query.accepts_both (hstatus .waiting) hresume)
    (Query.accepts_either (Query.accepts_both (hstatus .running) hnever)
      (Query.accepts_both (hstatus .running) hagain))
  rw [dueQuery, hquery, ← hdue, Run.isDue]
  cases r.status with
  | waiting =>
    cases ht : r.resumeAt with
    | none => rfl
    | some t => simp [Run.hasPassed_eq hnow (h.resumeAt t ht)]
  | running =>
    cases ht : r.nextAttemptAt with
    | none => rfl
    | some t => simp [Run.hasPassed_eq hnow (h.nextAttemptAt t ht)]
  | completed => rfl
  | failed => rfl

theorem filterQuery_eq_ok {filter : RunFilter}
    (h : ∀ name, filter.status = some name → ∃ s : RunStatus, name = s.name) :
    ∃ q, filterQuery filter = .ok q ∧
      ∀ r lock, q.accepts (runRow r lock) = .ok (filter.matchesRun r) := by
  obtain ⟨funnel, contact, status⟩ := filter
  have hstatus : status.toList.mapM (fun name => do
      let s ← RunStatus.ofName name
      return Query.is "status" (.text s.name)) =
        Except.ok (status.toList.map fun name => .is "status" (.text name)) := by
    cases status with
    | none => rfl
    | some name =>
      obtain ⟨s, rfl⟩ := h name rfl
      cases s <;> rfl
  refine ⟨_, by rw [filterQuery, hstatus]; rfl, fun r lock => ?_⟩
  have his (field s : String) (hrow : Fields.get (runRow r lock) field = .text s) (s' : String) :
      (Query.is field (.text s')).accepts (runRow r lock) = .ok (s' == s) := by
    rw [Query.accepts_is_text hrow]
    simp [beq_eq_decide, eq_comm]
  have hend : (Query.all []).accepts (runRow r lock) = .ok true := rfl
  have hall := Query.accepts_all_option (o := funnel) (his "funnelId" r.funnelId rfl)
    (Query.accepts_all_option (o := contact) (his "contactId" r.contactId rfl)
      (Query.accepts_all_option (o := status) (his "status" r.status.name rfl) hend))
  rw [List.append_nil, Bool.and_true] at hall
  rw [List.append_assoc, hall, RunFilter.matchesRun, Bool.and_assoc]

theorem accepts_takenBy (e : String × Lock) (holder : String) :
    (Query.is "holder" (.text holder)).accepts (lockRow e) = .ok (e.2.holder == holder) := by
  rw [Query.accepts_is_text (s := e.2.holder) rfl]
  simp [beq_eq_decide]

theorem accepts_freeFor {e : String × Lock} (hzone : e.2.acquiredAt.zone = none)
    (hexpired : expired.zone = none) (holder : String) :
    (freeFor holder expired).accepts (lockRow e) =
      .ok (e.2.holder == holder || e.2.acquiredAt.le expired) := by
  have hacquired : Fields.get (lockRow e) "acquired_at" =
      .ofInstant? (some e.2.acquiredAt) := rfl
  have hranOut := Query.accepts_notAfter hacquired
    (fun u hu => Option.some.inj hu ▸ hzone) hexpired
  exact Query.accepts_either (accepts_takenBy e holder) hranOut

end Queries

end Database

end FunnelFlow
