import FunnelFlow.Proofs.Store.Memory
import FunnelFlow.Proofs.Store.Rows

namespace FunnelFlow

open Collection Database

def funnelEntry (f : Funnel) : String × Value := (f.id, .object f.toDocument)

theorem funnelEntry_fst (f : Funnel) : (funnelEntry f).1 = f.id := rfl

open StoreM in
/-- The active funnels of a trigger are read in the order in which they are stored. -/
theorem MemoryStore.activeFunnels_run {s : Stored MemoryStore} {fs : List Funnel}
    (hfs : s.data.funnels = fs.map funnelEntry) (hids : ∀ f ∈ fs, f.id ≠ "") (t : Trigger) :
    (activeFunnels t.name).run s =
      (.ok ((fs.filter fun f => f.isActive && f.trigger == t).map Funnel.restored), s) := by
  have hread : (fs.map funnelEntry).mapM (fun e => do
      if ← liftExcept (isActiveFor t.name e.2) then return some (← readDocument e.2)
      else return none) =
        pure (fs.map fun f => if f.isActive && f.trigger == t then some f.restored else none) := by
    refine mapM_eq_pure fun f hf => ?_
    rw [funnelEntry, isActiveFor_toDocument, readDocument_toDocument (hids f hf)]
    cases f.isActive && f.trigger == t <;> rfl
  rw [activeFunnels, run_data_bind, hfs, hread, pure_bind, List.filterMap_map,
    ← List.filterMap_eq_map, List.filterMap_filter]
  rfl

/-- Funnels in their two written forms. -/
structure KeepsFunnels (fs : List Funnel) (table : Table Value) (rows : Collection) : Prop
    extends Holds Funnel.id funnelEntry funnelRow fs table rows where
  keepable : ∀ f ∈ fs, f.IsKeepable

theorem runEntry_fst (r : Run) : (MemoryStore.runEntry r).1 = r.id := rfl

def rowWith (locks : Table Lock) (r : Run) : Fields := runRow r (locks.get? r.id)

theorem idOf_rowWith (locks : Table Lock) (r : Run) : idOf (rowWith locks r) = .text r.id := rfl

theorem readRunRows (locks : Table Lock) (rs : List Run) :
    (rs.map (rowWith locks)).mapM readRunRow = pure rs := by
  have hread : (rs.map (rowWith locks)).mapM readRunRow = pure (rs.map id) :=
    StoreM.mapM_eq_pure fun r _ => readRunRow_runRow r _
  rwa [List.map_id] at hread

/-- Runs in their two written forms, with locks beside the one and inside the other. -/
structure KeepsRuns (rs : List Run) (table : Table Value) (locks : Table Lock) (rows : Collection) :
    Prop extends Holds Run.id MemoryStore.runEntry (rowWith locks) rs table rows where
  naive : ∀ r ∈ rs, r.IsNaive
  locked : ∀ id, table.get? id = none → locks.get? id = none
  zone : ∀ id lock, locks.get? id = some lock → lock.acquiredAt.zone = none

structure KeepsLocks (locks : Table Lock) (rows : Collection) : Prop where
  rows : rows = locks.map lockRow
  keys : locks.keys.Nodup
  zone : ∀ e ∈ locks, e.2.acquiredAt.zone = none

theorem Collection.Holds.look {α : Type} {row : α → Fields} {key : α → String}
    {entry : α → String × Value} {as : List α} {table : Table Value} {rows : Collection}
    (h : Holds key entry row as table rows) (hentry : ∀ a, (entry a).1 = key a)
    (hkey : ∀ a, idOf (row a) = .text (key a)) (id : String) :
    (∃ a ∈ as, table.get? id = some (entry a).2 ∧
      rows.findOne (byId id) = .ok (some (row a))) ∨
    table.get? id = none ∧ rows.findOne (byId id) = .ok none := by
  rcases h.found_or_none hentry id with ⟨a, ha, rfl⟩ | ⟨hget, hnone⟩
  · refine .inl ⟨a, ha, h.get?_of_mem hentry ha, ?_⟩
    rw [h.rows, findOne_of_mem h.keys ha (singles_byId hkey as a)]
  · refine .inr ⟨hget, ?_⟩
    rw [h.rows, findOne_of_none (not_accepts_byId hkey hnone)]

namespace KeepsFunnels

variable {fs : List Funnel} {table : Table Value} {rows : Collection} {f : Funnel}
  (h : KeepsFunnels fs table rows)
include h

theorem save (hf : f.IsKeepable) : KeepsFunnels (put Funnel.id f fs)
    (table.set f.id (.object f.toDocument)) (rows.replace (funnelRow f)) where
  toHolds := h.put funnelEntry_fst f (by rw [h.rows, replace_map idOf_funnelRow])
  keepable := forall_mem_put h.keepable hf

theorem delete (id : String) : ∃ rows', rows.deleteOne (byId id) = .ok (table.has id, rows') ∧
    KeepsFunnels (fs.filter (·.id != id)) (table.erase id) rows' := by
  have hkeepable : ∀ f ∈ fs.filter (·.id != id), f.IsKeepable := fun f hf =>
    h.keepable f (List.mem_of_mem_filter hf)
  rcases h.found_or_none funnelEntry_fst id with ⟨f, hf, rfl⟩ | ⟨hget, hnone⟩
  · have hhas : table.has f.id = true := by rw [Table.has, h.get?_of_mem funnelEntry_fst hf]; rfl
    have hdelete := deleteOne_of_mem h.keys hf (singles_byId idOf_funnelRow fs f)
    rw [h.rows, hhas]
    exact ⟨_, hdelete, h.erase funnelEntry_fst f.id rfl, hkeepable⟩
  · have hhas : table.has id = false := by rw [Table.has, hget]; rfl
    have hfilter : fs.filter (·.id != id) = fs :=
      List.filter_eq_self.mpr fun f hf => by simpa using hnone f hf
    have hdelete := deleteOne_of_none (not_accepts_byId idOf_funnelRow hnone)
    rw [← h.rows] at hdelete
    rw [hhas]
    exact ⟨rows, hdelete, h.erase funnelEntry_fst id (by rw [hfilter, h.rows]), hkeepable⟩

theorem sorted : ∃ sorted : List Funnel, sorted.Perm fs ∧
    sortBy "created_at" rows = .ok (sorted.map funnelRow) := by
  rw [h.rows]
  refine sortBy_map fun f hf g hg => ?_
  exact Value.canOrder_ofInstant? (h.keepable f hf).createdAt (h.keepable g hg).createdAt

theorem active (t : Trigger) :
    rows.find (.both (.is "isActive" (.bool true)) (.is "trigger" (.text t.name))) =
      .ok ((fs.filter fun f => f.isActive && f.trigger == t).map funnelRow) := by
  rw [h.rows]
  exact find_map fun f _ => accepts_active f t

theorem readRows {gs : List Funnel} (hgs : gs ⊆ fs) :
    (gs.map funnelRow).mapM readRow = pure (gs.map Funnel.restored) :=
  StoreM.mapM_eq_pure fun f hf => readRow_funnelRow (h.keepable f (hgs hf))

end KeepsFunnels

namespace KeepsLocks

variable {locks : Table Lock} {rows : Collection} {id holder : String} {now expired : Instant}
  (h : KeepsLocks locks rows)
include h

theorem erase (id : String) {rows' : Collection} (hrows : rows' = (locks.erase id).map lockRow) :
    KeepsLocks (locks.erase id) rows' :=
  ⟨hrows, Table.nodup_keys_erase h.keys id, fun e he => h.zone e (List.mem_of_mem_filter he)⟩

theorem set (id : String) {lock : Lock} (hzone : lock.acquiredAt.zone = none) {rows' : Collection}
    (hrows : rows' = (locks.set id lock).map lockRow) : KeepsLocks (locks.set id lock) rows' where
  rows := hrows
  keys := Table.nodup_keys_set h.keys id lock
  zone e he := by
    rcases Table.mem_set he with rfl | he
    · exact hzone
    · exact h.zone e he

theorem delete (id : String) : ∃ found rows', rows.deleteOne (byId id) = .ok (found, rows') ∧
    KeepsLocks (locks.erase id) rows' := by
  cases hget : locks.get? id with
  | none =>
    have hdelete := deleteOne_of_none
      (not_accepts_byId idOf_lockRow (Table.ne_of_get?_eq_none hget))
    rw [← h.rows] at hdelete
    exact ⟨false, rows, hdelete, h.erase id (by rw [Table.erase_of_get?_eq_none hget, h.rows])⟩
  | some lock =>
    have hdelete := deleteOne_of_mem h.keys (Table.mem_of_get? hget)
      (singles_byId idOf_lockRow locks (id, lock))
    rw [← h.rows] at hdelete
    exact ⟨true, _, hdelete, h.erase id rfl⟩

theorem unlock {lock : Lock} (hget : locks.get? id = some lock) (hheld : lock.holder = holder) :
    ∃ rows', rows.deleteOne (.both (byId id) (.is "holder" (.text holder))) = .ok (true, rows') ∧
      KeepsLocks (locks.erase id) rows' := by
  have htaken : (Query.is "holder" (.text holder)).accepts (lockRow (id, lock)) = .ok true := by
    rw [accepts_takenBy, hheld, beq_self_eq_true]
  have hdelete := deleteOne_of_mem h.keys (Table.mem_of_get? hget)
    (singles_byId_both idOf_lockRow htaken locks)
  rw [← h.rows] at hdelete
  exact ⟨_, hdelete, h.erase id rfl⟩

theorem not_unlock {current : Option Lock} (hget : locks.get? id = current)
    (hother : ∀ lock ∈ current, lock.holder ≠ holder) :
    rows.deleteOne (.both (byId id) (.is "holder" (.text holder))) = .ok (false, rows) := by
  rw [h.rows]
  refine deleteOne_of_none (not_accepts_byId_both idOf_lockRow ?_)
  rintro e he rfl
  have hne := hother e.2 (hget.symm.trans (Table.get?_of_mem h.keys he))
  rw [accepts_takenBy, beq_eq_false_iff_ne.mpr hne]

theorem take {previous : Lock} (hget : locks.get? id = some previous) (hnow : now.zone = none)
    (hexpired : expired.zone = none)
    (hfree : (previous.holder == holder || previous.acquiredAt.le expired) = true) :
    ∃ rows', rows.updateOne (.both (byId id) (freeFor holder expired))
        [("holder", .text holder), ("acquired_at", .instant now)] =
          .ok (some (lockRow (id, previous)), rows') ∧
      KeepsLocks (locks.set id ⟨holder, now⟩) rows' := by
  have hin := Table.mem_of_get? hget
  have haccepts : (freeFor holder expired).accepts (lockRow (id, previous)) = .ok true := by
    rw [accepts_freeFor (h.zone _ hin) hexpired, hfree]
  have hupdate := updateOne_put (a := (id, ⟨holder, now⟩)) h.keys hin rfl
    (singles_byId_both idOf_lockRow haccepts locks) (setAll_lockRow (id, previous) holder now)
    fun e _ _ => rfl
  rw [← h.rows, ← table_set_eq_put] at hupdate
  exact ⟨_, hupdate, h.set id hnow rfl⟩

theorem not_take {current : Option Lock} (hget : locks.get? id = current)
    (hexpired : expired.zone = none)
    (hheld : ∀ lock ∈ current, (lock.holder == holder || lock.acquiredAt.le expired) = false)
    (updates : Fields) :
    rows.updateOne (.both (byId id) (freeFor holder expired)) updates = .ok (none, rows) := by
  rw [h.rows]
  refine updateOne_of_none (not_accepts_byId_both idOf_lockRow ?_)
  rintro e he rfl
  have hfree := hheld e.2 (hget.symm.trans (Table.get?_of_mem h.keys he))
  rw [accepts_freeFor (h.zone e he) hexpired, hfree]

theorem insert_of_none (hget : locks.get? id = none) (lock : Lock)
    (hzone : lock.acquiredAt.zone = none) :
    ∃ rows', rows.insert (lockRow (id, lock)) = .ok rows' ∧
      KeepsLocks (locks.set id lock) rows' := by
  have hfresh : ∀ e ∈ locks, e.1 ≠ (id, lock).1 := Table.ne_of_get?_eq_none hget
  have hinsert := insert_map idOf_lockRow hfresh
  rw [← h.rows, ← put_of_fresh hfresh, ← table_set_eq_put] at hinsert
  exact ⟨_, hinsert, h.set id hzone rfl⟩

theorem insert_of_some {previous : Lock} (hget : locks.get? id = some previous) (lock : Lock) :
    rows.insert (lockRow (id, lock)) = .error .duplicateKey := by
  have htaken : hasId rows (idOf (lockRow (id, lock))) = true := by
    rw [h.rows, idOf_lockRow, hasId_map idOf_lockRow]
    exact ⟨(id, previous), Table.mem_of_get? hget, rfl⟩
  rw [Collection.insert, if_pos htaken]

end KeepsLocks

namespace KeepsRuns

variable {rs : List Run} {table : Table Value} {locks locks' : Table Lock} {rows : Collection}
  {r : Run} {owner : String} {now expired : Instant}
  (h : KeepsRuns rs table locks rows)
include h

theorem create (hr : r.IsNaive) (hfresh : table.get? r.id = none) :
    ∃ rows', rows.insert (runRow r none) = .ok rows' ∧
      KeepsRuns (put Run.id r rs) (table.set r.id (.object r.toDocument)) locks rows' := by
  have hne := (h.get?_eq_none_iff runEntry_fst).mp hfresh
  have hrow : rowWith locks r = runRow r none := by rw [rowWith, h.locked r.id hfresh]
  have hinsert := insert_map (idOf_rowWith locks) hne
  rw [← h.rows, hrow, ← put_of_fresh hne] at hinsert
  refine ⟨_, hinsert, h.put runEntry_fst r rfl, forall_mem_put h.naive hr, ?_, h.zone⟩
  exact fun id hid => h.locked id (Table.of_get?_set_eq_none hid).2

theorem acquire (hr : r ∈ rs) (hnow : now.zone = none) (hexpired : expired.zone = none)
    (hfree : (locks.get? r.id).all (·.acquiredAt.le expired) = true) (owner : String) :
    ∃ rows', rows.updateOne (.both (byId r.id) (unlockedBy expired))
        (lockFields (some ⟨owner, now⟩)) = .ok (some (rowWith locks r), rows') ∧
      KeepsRuns rs table (locks.set r.id ⟨owner, now⟩) rows' := by
  have haccepts : (unlockedBy expired).accepts (rowWith locks r) = .ok true := by
    rw [rowWith, accepts_unlockedBy (h.zone r.id) hexpired, hfree]
  have hself : Table.setAll (rowWith locks r) (lockFields (some ⟨owner, now⟩)) =
      rowWith (locks.set r.id ⟨owner, now⟩) r := by
    rw [rowWith, setAll_lock, rowWith, Table.get?_set_self]
  have hothers : ∀ r' ∈ rs, r'.id ≠ r.id →
      rowWith locks r' = rowWith (locks.set r.id ⟨owner, now⟩) r' := by
    intro r' _ hne
    rw [rowWith, rowWith, Table.get?_set_of_ne _ _ hne]
  have hupdate := updateOne_of_mem h.keys hr
    (singles_byId_both (idOf_rowWith locks) haccepts rs) hself hothers
  rw [← h.rows] at hupdate
  refine ⟨_, hupdate, ⟨h.entries, rfl, h.keys⟩, h.naive, fun id hid => ?_, fun id lock hget => ?_⟩
  · have hne : id ≠ r.id := by
      rintro rfl
      exact (h.get?_eq_none_iff runEntry_fst).mp hid r hr rfl
    rw [Table.get?_set_of_ne _ _ hne]
    exact h.locked id hid
  · rcases Table.of_get?_set_eq_some hget with ⟨-, rfl⟩ | ⟨-, hget⟩
    · exact hnow
    · exact h.zone id lock hget

theorem not_acquire {id : String} (hexpired : expired.zone = none)
    (hfree : (∃ r ∈ rs, r.id = id) → (locks.get? id).all (·.acquiredAt.le expired) = false)
    (updates : Fields) :
    rows.updateOne (.both (byId id) (unlockedBy expired)) updates = .ok (none, rows) := by
  rw [h.rows]
  refine updateOne_of_none (not_accepts_byId_both (idOf_rowWith locks) ?_)
  rintro r hr rfl
  rw [rowWith, accepts_unlockedBy (h.zone r.id) hexpired, hfree ⟨r, hr, rfl⟩]

theorem hasId_iff (id : String) : rows.hasId (.text id) = true ↔ ∃ r ∈ rs, r.id = id := by
  rw [h.rows, hasId_map (idOf_rowWith locks)]

theorem exists_of_held {id : String} (hheld : (locks.get? id).any (·.holder == owner) = true) :
    ∃ r ∈ rs, r.id = id := by
  rcases h.found_or_none runEntry_fst id with hfound | ⟨hget, _⟩
  · exact hfound
  · rw [h.locked id hget] at hheld
    cases hheld

/-- A run that is held is written, and the locks may be changed as far as they are its own. -/
theorem write (hr : r.IsNaive) (hheld : (locks.get? r.id).any (·.holder == owner) = true)
    {updates : Fields}
    (hself : ∀ r', r.id = r'.id → Table.setAll (rowWith locks r') updates = rowWith locks' r)
    (hothers : ∀ id, id ≠ r.id → locks'.get? id = locks.get? id)
    (hzone : ∀ id lock, locks'.get? id = some lock → lock.acquiredAt.zone = none) :
    ∃ row rows', rows.updateOne (.both (byId r.id) (.is "lock_owner" (.text owner))) updates =
        .ok (some row, rows') ∧
      KeepsRuns (put Run.id r rs) (table.set r.id (.object r.toDocument)) locks' rows' := by
  obtain ⟨r', hr', hid⟩ := h.exists_of_held hheld
  have haccepts : (Query.is "lock_owner" (.text owner)).accepts (rowWith locks r') = .ok true := by
    rw [rowWith, accepts_heldBy, hid, hheld]
  have hsingles := singles_byId_both (idOf_rowWith locks) haccepts rs
  have hupdate := updateOne_put h.keys hr' hid hsingles (hself r' hid.symm) fun c _ hne => by
    rw [rowWith, rowWith, hothers c.id hne]
  rw [← h.rows, hid] at hupdate
  have hentries := h.put runEntry_fst r rfl
  refine ⟨_, _, hupdate, ⟨hentries.entries, rfl, hentries.keys⟩, forall_mem_put h.naive hr,
    fun id hid => ?_, hzone⟩
  obtain ⟨hne, hget⟩ := Table.of_get?_set_eq_none hid
  rw [hothers id hne]
  exact h.locked id hget

theorem save (hr : r.IsNaive) (hheld : (locks.get? r.id).any (·.holder == owner) = true) :
    ∃ row rows', rows.updateOne (.both (byId r.id) (.is "lock_owner" (.text owner)))
        (r.toFields ++ []) = .ok (some row, rows') ∧
      KeepsRuns (put Run.id r rs) (table.set r.id (.object r.toDocument)) locks rows' := by
  refine h.write hr hheld (fun r' hid => ?_) (fun _ _ => rfl) h.zone
  rw [rowWith, List.append_nil, setAll_run hid, rowWith, hid]

theorem release (hr : r.IsNaive) (hheld : (locks.get? r.id).any (·.holder == owner) = true) :
    ∃ row rows', rows.updateOne (.both (byId r.id) (.is "lock_owner" (.text owner)))
        (r.toFields ++ unlocked) = .ok (some row, rows') ∧
      KeepsRuns (put Run.id r rs) (table.set r.id (.object r.toDocument)) (locks.erase r.id)
        rows' := by
  refine h.write hr hheld (fun r' hid => ?_) (fun id hne => Table.get?_erase_of_ne locks hne)
    fun id lock hget => ?_
  · rw [rowWith, rowWith, Table.get?_erase_self]
    exact setAll_runAndLock hid _ none
  · exact h.zone id lock (Table.of_get?_erase_eq_some hget).2

theorem not_held {id : String} (hheld : (locks.get? id).any (·.holder == owner) = false)
    (updates : Fields) :
    rows.updateOne (.both (byId id) (.is "lock_owner" (.text owner))) updates =
      .ok (none, rows) := by
  rw [h.rows]
  refine updateOne_of_none (not_accepts_byId_both (idOf_rowWith locks) ?_)
  rintro r _ rfl
  rw [rowWith, accepts_heldBy, hheld]

theorem sorted (p : Run → Bool) : ∃ sorted : List Run, sorted.Perm (rs.filter p) ∧
    sortBy "created_at" ((rs.filter p).map (rowWith locks)) =
      .ok (sorted.map (rowWith locks)) := by
  refine sortBy_map fun r hr r' hr' => ?_
  have hnaive := h.naive r (List.mem_of_mem_filter hr)
  have hnaive' := h.naive r' (List.mem_of_mem_filter hr')
  exact Value.canOrder_ofInstant? hnaive.createdAt hnaive'.createdAt

end KeepsRuns

end FunnelFlow
