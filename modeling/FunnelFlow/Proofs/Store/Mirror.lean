import FunnelFlow.Proofs.Store.Definitions
import FunnelFlow.Proofs.Store.Forms
import FunnelFlow.Proofs.Store.Serving

namespace FunnelFlow

open Collection Database StoreM

/-- A store in memory and one on a database hold the same. -/
structure Mirrors (m : MemoryStore) (db : Database) : Prop where
  runTtl : db.runTtl = m.runTtl
  funnelTtl : db.funnelTtl = m.funnelTtl
  steady : db.server.IsSteady
  funnels : ∃ fs, KeepsFunnels fs m.funnels db.server.funnels
  runs : ∃ rs, KeepsRuns rs m.runs m.runLocks db.server.runs
  funnelLocks : KeepsLocks m.funnelLocks db.server.funnelLocks

inductive Refusal where
  | funnelLocked
  | runLocked
  | runNotFound
  deriving DecidableEq, Repr

namespace Fault

def refusal? : Fault → Option Refusal
  | .funnelLocked .. => some .funnelLocked
  | .runLocked _ | .runNotHeld .. => some .runLocked
  | .runNotFound _ => some .runNotFound
  | _ => none

structure Alike (e e' : Fault) : Prop where
  kind : ∃ c, e.refusal? = some c ∧ e'.refusal? = some c
  status : e.status? = e'.status?

theorem report_eq_of_alike {e e' : Fault} (h : e.Alike e') : report e' = e' := by
  obtain ⟨c, -, he'⟩ := h.kind
  cases e' <;> first | rfl | cases he'

end Fault

/-- Two outcomes of one call: answers that are related, or refusals that are alike. -/
inductive Alike {α : Type} (rel : α → α → Prop) : Except Fault α → Except Fault α → Prop
  | answered {a b : α} (h : rel a b) : Alike rel (.ok a) (.ok b)
  | refused {e e' : Fault} (h : e.Alike e') : Alike rel (.error e) (.error e')

/-- Both stores did the same: what they give is alike, and what they hold afterwards is the same. -/
structure Agree {α : Type} (rel : α → α → Prop) (x : Except Fault α × Stored MemoryStore)
    (y : Except Fault α × Stored Database) : Prop where
  alike : Alike rel x.1 y.1
  mirrors : Mirrors x.2.data y.2.data

namespace Agree

variable {α : Type} {rel : α → α → Prop} {m : Stored MemoryStore} {d : Stored Database}

theorem answered {a b : α} (hrel : rel a b) (h : Mirrors m.data d.data) :
    Agree rel (.ok a, m) (.ok b, d) := ⟨.answered hrel, h⟩

theorem refused {e e' : Fault} (halike : e.Alike e') (h : Mirrors m.data d.data) :
    Agree rel (.error e, m) (.error e', d) := ⟨.refused halike, h⟩

end Agree

namespace Mirrors

variable {m : Stored MemoryStore} {d : Stored Database}

theorem connected {m : MemoryStore} {db : Database} (h : Mirrors m db) :
    Mirrors m db.connected := by
  unfold Database.connected
  split
  · exact h
  · exact { h with steady := h.steady.congr rfl rfl rfl }

theorem withFunnels {m : MemoryStore} {db : Database} (h : Mirrors m db) {fs : List Funnel}
    {table : Table Value} {rows : Collection} (hfs : KeepsFunnels fs table rows) :
    Mirrors { m with funnels := table } (db.withServer { db.server with funnels := rows }) :=
  { h with steady := h.steady.congr rfl rfl rfl, funnels := ⟨fs, hfs⟩ }

theorem withRuns {m : MemoryStore} {db : Database} (h : Mirrors m db) {rs : List Run}
    {table : Table Value} {locks : Table Lock} {rows : Collection}
    (hrs : KeepsRuns rs table locks rows) :
    Mirrors { m with runs := table, runLocks := locks }
      (db.withServer { db.server with runs := rows }) :=
  { h with steady := h.steady.congr rfl rfl rfl, runs := ⟨rs, hrs⟩ }

theorem withFunnelLocks {m : MemoryStore} {db : Database} (h : Mirrors m db) {locks : Table Lock}
    {rows : Collection} (hlocks : KeepsLocks locks rows) :
    Mirrors { m with funnelLocks := locks }
      (db.withServer { db.server with funnelLocks := rows }) :=
  { h with steady := h.steady.congr rfl rfl rfl, funnelLocks := hlocks }

/-- That an operation opens a client, and how it reports faults, makes no difference. -/
theorem operation {α : Type} {rel : α → α → Prop} {work : Database.Work α}
    {x : Except Fault α × Stored MemoryStore} (h : Mirrors m.data d.data)
    (hwork : ∀ d : Stored Database, Mirrors m.data d.data → Agree rel x (work.run d)) :
    Agree rel x ((Database.operation work).run d) := by
  have hagree := hwork { d with data := d.data.connected } h.connected
  rw [run_operation (opens_of_isSteady h.steady)]
  revert hagree
  obtain ⟨r, m'⟩ := x
  rcases work.run { d with data := d.data.connected } with ⟨r', d'⟩
  rintro ⟨halike, hmirrors⟩
  cases halike with
  | answered hrel => exact .answered hrel hmirrors
  | refused he =>
    dsimp only
    rw [Fault.report_eq_of_alike he]
    exact .refused he hmirrors

section Funnels

theorem saveFunnel (h : Mirrors m.data d.data) {f : Funnel} (hf : f.IsKeepable) :
    Agree Eq ((MemoryStore.saveFunnel f).run m) ((Database.saveFunnel f).run d) := by
  rw [Database.saveFunnel]
  refine h.operation fun d h => ?_
  obtain ⟨fs, hfs⟩ := h.funnels
  simp only [MemoryStore.saveFunnel, run_data_bind, run_setData_bind, run_call_bind h.steady,
    run_keptRow_bind h.steady, run_current_bind, run_setServer_bind,
    MemoryStore.readDocument_toDocument hf.id, readRow_funnelRow hf]
  exact .answered rfl (h.withFunnels (hfs.save hf))

theorem getFunnel (h : Mirrors m.data d.data) (id : String) :
    Agree Eq ((MemoryStore.getFunnel id).run m) ((Database.getFunnel id).run d) := by
  rw [Database.getFunnel]
  refine h.operation fun d h => ?_
  obtain ⟨fs, hfs⟩ := h.funnels
  simp only [MemoryStore.getFunnel, run_data_bind, run_call_bind h.steady, run_current_bind,
    run_liftExcept_bind]
  rcases hfs.look funnelEntry_fst idOf_funnelRow id with ⟨f, hf, hget, hfind⟩ | ⟨hget, hfind⟩
  · have hkeepable := hfs.keepable f hf
    simp only [hget, hfind, funnelEntry, MemoryStore.readDocument_toDocument hkeepable.id,
      readRow_funnelRow hkeepable]
    exact .answered rfl h
  · simp only [hget, hfind]
    exact .answered rfl h

theorem listFunnels (h : Mirrors m.data d.data) :
    Agree List.Perm (MemoryStore.listFunnels.run m) (Database.listFunnels.run d) := by
  rw [Database.listFunnels]
  refine h.operation fun d h => ?_
  obtain ⟨fs, hfs⟩ := h.funnels
  obtain ⟨sorted, hperm, hsorted⟩ := hfs.sorted
  have hread : (fs.map funnelEntry).mapM (fun e => MemoryStore.readDocument e.2) =
      pure (fs.map Funnel.restored) :=
    mapM_eq_pure fun f hf => MemoryStore.readDocument_toDocument (hfs.keepable f hf).id
  simp only [MemoryStore.listFunnels, run_data_bind, run_call_bind h.steady, run_current_bind,
    run_liftExcept_bind, hsorted, hfs.readRows hperm.subset, hfs.entries, hread]
  exact .answered (hperm.symm.map Funnel.restored) h

theorem deleteFunnel (h : Mirrors m.data d.data) (id : String) :
    Agree Eq ((MemoryStore.deleteFunnel id).run m) ((Database.deleteFunnel id).run d) := by
  rw [Database.deleteFunnel]
  refine h.operation fun d h => ?_
  obtain ⟨fs, hfs⟩ := h.funnels
  obtain ⟨rows, hdelete, hfs'⟩ := hfs.delete id
  obtain ⟨found, lockRows, hunlock, hlocks⟩ := h.funnelLocks.delete id
  simp only [MemoryStore.deleteFunnel, run_data_bind, run_setData_bind, run_call_bind h.steady,
    run_current_bind, run_liftExcept_bind, hdelete, run_setServer_bind]
  rw [run_call_bind, run_current_bind, withServer_server, hunlock]
  · exact .answered rfl ((h.withFunnels hfs').withFunnelLocks hlocks)
  · exact h.steady.congr rfl rfl rfl

theorem activeFunnels (h : Mirrors m.data d.data) (t : Trigger) :
    Agree Eq ((MemoryStore.activeFunnels t.name).run m)
      ((Database.activeFunnels t.name).run d) := by
  rw [Database.activeFunnels]
  refine h.operation fun d h => ?_
  obtain ⟨fs, hfs⟩ := h.funnels
  have hname : Trigger.ofName t.name = .ok t := by cases t <;> rfl
  rw [MemoryStore.activeFunnels_run hfs.entries (fun f hf => (hfs.keepable f hf).id) t]
  simp only [run_call_bind h.steady, run_current_bind, run_liftExcept_bind, hname, hfs.active,
    hfs.readRows (List.filter_subset_self _)]
  exact .answered rfl h

end Funnels

section FunnelLocks

variable {id holder : String} {now expired : Instant} {previous : Lock}

theorem holder_bne (id : String) (previous : Lock) (holder : String) :
    (Fields.get (lockRow (id, previous)) "holder" != .text holder) =
      !(previous.holder == holder) := by
  have hholder : Fields.get (lockRow (id, previous)) "holder" = .text previous.holder := rfl
  rw [hholder, Bool.eq_iff_iff]
  simp

theorem lockFunnel (h : Mirrors m.data d.data) (hnow : now.zone = none)
    (hexpired : now.minus m.data.funnelTtl = .ok expired)
    (hends : ∀ lock, m.data.funnelLocks.get? id = some lock →
      ∃ t, lock.acquiredAt.plus m.data.funnelTtl = .ok t) :
    Agree Eq ((MemoryStore.lockFunnel id holder now).run m)
      ((Database.lockFunnel id holder now).run d) := by
  rw [Database.lockFunnel]
  refine h.operation fun d h => ?_
  have hlocks := h.funnelLocks
  have hzone := Instant.zone_of_minus hnow hexpired
  have hexpiry : expiry now d.data.funnelTtl = .ok expired := by
    rw [h.funnelTtl, expiry_eq_ok hexpired]
  simp only [run_data_bind, hexpiry, run_liftExcept_bind, run_call_bind h.steady,
    run_keptInstant_bind h.steady, run_keptRow_bind h.steady, run_current_bind]
  cases hget : m.data.funnelLocks.get? id with
  | none =>
    -- No row is updated, and the insertion finds the id free.
    obtain ⟨rows, hinsert, hlocks'⟩ := hlocks.insert_of_none hget ⟨holder, now⟩ hnow
    rw [MemoryStore.run_lockFunnel hget (by simp), hlocks.not_take hget hzone (by simp)]
    dsimp only
    rw [show Collection.insert _ [_, _, _] = _ from hinsert]
    exact .answered rfl (h.withFunnelLocks hlocks')
  | some previous =>
    obtain ⟨t, ht⟩ := hends previous hget
    have hprevious := hlocks.zone _ (Table.mem_of_get? hget)
    have hholds := Lock.holds_eq_not_le ht hprevious hnow hexpired
    by_cases hfree : (previous.holder == holder || previous.acquiredAt.le expired) = true
    · obtain ⟨rows, hupdate, hlocks'⟩ := hlocks.take hget hnow hzone hfree
      have hmayTake : ∀ lock ∈ some previous,
          lock.holder = holder ∨ lock.holds m.data.funnelTtl now = .ok false := by
        rintro _ ⟨⟩
        rw [hholds]
        simpa using hfree
      rw [MemoryStore.run_lockFunnel hget hmayTake, hupdate]
      exact .answered (holder_bne id previous holder).symm (h.withFunnelLocks hlocks')
    · -- No row is updated either, but the insertion meets the row of the other holder.
      have hheld : previous.holder ≠ holder ∧ previous.acquiredAt.le expired = false := by
        simpa using hfree
      have hmayNot : ∀ lock ∈ some previous,
          (lock.holder == holder || lock.acquiredAt.le expired) = false := by
        rintro _ ⟨⟩
        simpa using hfree
      have hholds' : previous.holds m.data.funnelTtl now = .ok true := by
        rw [hholds, hheld.2]
        rfl
      rw [MemoryStore.run_lockFunnel_of_held hget hheld.1 hholds' (by simp), MemoryStore.lockFault,
        hlocks.not_take hget hzone hmayNot]
      dsimp only
      rw [show Collection.insert _ [_, _, _] = _ from hlocks.insert_of_some hget ⟨holder, now⟩]
      exact .refused ⟨⟨.funnelLocked, rfl, rfl⟩, rfl⟩ h

theorem unlockFunnel (h : Mirrors m.data d.data) (id holder : String) :
    Agree Eq ((MemoryStore.unlockFunnel id holder).run m)
      ((Database.unlockFunnel id holder).run d) := by
  rw [Database.unlockFunnel]
  refine h.operation fun d h => ?_
  have hlocks := h.funnelLocks
  simp only [MemoryStore.unlockFunnel, run_data_bind, run_call_bind h.steady, run_current_bind,
    run_liftExcept_bind]
  cases hget : m.data.funnelLocks.get? id with
  | none =>
    rw [hlocks.not_unlock hget (by simp)]
    exact .answered rfl h
  | some lock =>
    by_cases hheld : lock.holder = holder
    · obtain ⟨rows, hdelete, hlocks'⟩ := hlocks.unlock hget hheld
      rw [hdelete, Option.any_some, hheld, beq_self_eq_true]
      exact .answered rfl (h.withFunnelLocks hlocks')
    · have hother : ∀ l ∈ some lock, l.holder ≠ holder := by
        rintro _ ⟨⟩
        exact hheld
      rw [hlocks.not_unlock hget hother, Option.any_some, beq_eq_false_iff_ne.mpr hheld]
      exact .answered rfl h

end FunnelLocks

section Runs

variable {r : Run} {owner : String} {now expired : Instant}

theorem createRun (h : Mirrors m.data d.data) (hr : r.IsNaive)
    (hfresh : m.data.runs.get? r.id = none) :
    Agree Eq ((MemoryStore.writeRun r).run m) ((Database.createRun r).run d) := by
  rw [Database.createRun]
  refine h.operation fun d h => ?_
  obtain ⟨rs, hrs⟩ := h.runs
  obtain ⟨rows, hinsert, hrs'⟩ := hrs.create hr hfresh
  have hrow : r.toFields ++ ("_id", .text r.id) :: unlocked = runRow r none := rfl
  simp only [MemoryStore.writeRun_run, hrow, run_call_bind h.steady, run_keptRow_bind h.steady,
    run_current_bind, run_liftExcept_bind, hinsert, run_setServer_bind, readRunRow_runRow]
  exact .answered rfl (h.withRuns hrs')

theorem getRun (h : Mirrors m.data d.data) (id : String) :
    Agree Eq ((MemoryStore.getRun id).run m) ((Database.getRun id).run d) := by
  rw [Database.getRun]
  refine h.operation fun d h => ?_
  obtain ⟨rs, hrs⟩ := h.runs
  simp only [MemoryStore.getRun, run_data_bind, run_call_bind h.steady, run_current_bind,
    run_liftExcept_bind]
  rcases hrs.look runEntry_fst (idOf_rowWith _) id with ⟨r, hr, hget, hfind⟩ | ⟨hget, hfind⟩
  · simp only [hget, hfind, MemoryStore.runEntry, MemoryStore.readRunDocument_toDocument, rowWith,
      readRunRow_runRow]
    exact .answered rfl h
  · simp only [hget, hfind]
    exact .answered rfl h

theorem listRuns (h : Mirrors m.data d.data) {filter : RunFilter}
    (hstatus : ∀ name, filter.status = some name → ∃ s : RunStatus, name = s.name) :
    Agree List.Perm ((MemoryStore.listRuns filter).run m) ((Database.listRuns filter).run d) := by
  rw [Database.listRuns]
  refine h.operation fun d h => ?_
  obtain ⟨rs, hrs⟩ := h.runs
  obtain ⟨q, hq, haccepts⟩ := filterQuery_eq_ok hstatus
  obtain ⟨sorted, hperm, hsorted⟩ := hrs.sorted filter.matchesRun
  have hfind : d.data.server.runs.find q =
      .ok ((rs.filter filter.matchesRun).map (rowWith m.data.runLocks)) := by
    rw [hrs.rows]
    exact find_map fun r _ => haccepts r _
  have hread : (rs.map MemoryStore.runEntry).mapM (fun e => MemoryStore.readRunDocument e.2) =
      pure (rs.map id) :=
    mapM_eq_pure fun r _ => MemoryStore.readRunDocument_toDocument r
  simp only [MemoryStore.listRuns, run_data_bind, run_call_bind h.steady, run_current_bind,
    run_liftExcept_bind, hq, hfind, hsorted, readRunRows, hrs.entries, hread, List.map_id,
    pure_bind]
  exact .answered hperm.symm h

theorem hasPlainLocks (h : Mirrors m.data d.data)
    (hends : ∀ id lock, m.data.runLocks.get? id = some lock →
      ∃ t, lock.acquiredAt.plus m.data.runTtl = .ok t) : m.data.HasPlainLocks := by
  obtain ⟨rs, hrs⟩ := h.runs
  exact ⟨hrs.zone, hends⟩

theorem dueRuns (h : Mirrors m.data d.data) (hlocks : m.data.HasPlainLocks)
    (hnow : now.zone = none) (hexpired : now.minus m.data.runTtl = .ok expired) {limit : Int}
    (hlimit : 1 ≤ limit) :
    Agree Eq ((MemoryStore.dueRuns now limit).run m) ((Database.dueRuns now limit).run d) := by
  rw [Database.dueRuns]
  refine h.operation fun d h => ?_
  obtain ⟨rs, hrs⟩ := h.runs
  have hzone := Instant.zone_of_minus hnow hexpired
  have hexpiry : expiry now d.data.runTtl = .ok expired := by
    rw [h.runTtl, expiry_eq_ok hexpired]
  have hfind : d.data.server.runs.find (.both (unlockedBy expired) (dueQuery now)) =
      .ok ((rs.filter (m.data.isReady now)).map (rowWith m.data.runLocks)) := by
    rw [hrs.rows]
    refine find_map fun r hr => ?_
    have hplain := (hrs.naive r hr).toIsPlain
    obtain ⟨due, hdue⟩ := hplain.exists_isDue hnow
    rw [hlocks.isReady_eq hnow hexpired hdue]
    exact Query.accepts_both (accepts_unlockedBy (hlocks.zone r.id) hzone r)
      (accepts_dueQuery hplain hnow hdue _)
  have hmemory := MemoryStore.answer_dueRuns hlocks hnow hrs.entries
    (fun r hr => (hrs.naive r hr).toIsPlain) hlimit
  have hids (rs : List Run) : (rs.map (rowWith m.data.runLocks)).map
      (fun row => (Fields.get row "_id").display) = rs.map (·.id) := by
    rw [List.map_map]
    rfl
  have hnatAbs : limit.natAbs = limit.toNat := by omega
  rw [show (MemoryStore.dueRuns now limit).run m = _ from hmemory]
  simp only [run_data_bind, hexpiry, run_liftExcept_bind, run_call_bind h.steady,
    run_keptInstant_bind h.steady, run_current_bind, hfind, hids, hnatAbs]
  rw [if_neg (by omega)]
  exact .answered rfl h

theorem acquireRun (h : Mirrors m.data d.data) (hlocks : m.data.HasPlainLocks)
    (hnow : now.zone = none) (hexpired : now.minus m.data.runTtl = .ok expired)
    (id owner : String) :
    Agree Eq ((MemoryStore.acquireRun id owner now).run m)
      ((Database.acquireRun id owner now).run d) := by
  rw [Database.acquireRun]
  refine h.operation fun d h => ?_
  obtain ⟨rs, hrs⟩ := h.runs
  have hzone := Instant.zone_of_minus hnow hexpired
  have hexpiry : expiry now d.data.runTtl = .ok expired := by
    rw [h.runTtl, expiry_eq_ok hexpired]
  have hupdates : [("lock_owner", .text owner), ("lock_acquired_at", .instant now)] =
      lockFields (some ⟨owner, now⟩) := rfl
  simp only [run_data_bind, hexpiry, run_liftExcept_bind, run_call_bind h.steady,
    run_keptInstant_bind h.steady, run_keptRow_bind h.steady, run_current_bind, hupdates]
  rcases hrs.found_or_none runEntry_fst id with ⟨r, hr, rfl⟩ | ⟨hget, hnone⟩
  · have hstores : m.data.Stores r := hrs.get?_of_mem runEntry_fst hr
    have hmemory := MemoryStore.answer_acquireRun hstores owner now
    rw [hlocks.isLocked_eq hnow hexpired] at hmemory
    rw [show (MemoryStore.acquireRun r.id owner now).run m = _ from hmemory]
    cases hfree : (m.data.runLocks.get? r.id).all (·.acquiredAt.le expired) with
    | true =>
      obtain ⟨rows, hupdate, hrs'⟩ := hrs.acquire hr hnow hzone hfree owner
      simp only [hupdate, rowWith, setAll_lock, run_setServer_bind, readRunRow_runRow]
      exact .answered rfl (h.withRuns hrs')
    | false =>
      have htaken := (hrs.hasId_iff r.id).mpr ⟨r, hr, rfl⟩
      simp only [hrs.not_acquire hzone (fun _ => hfree), run_call_bind h.steady, run_current_bind,
        htaken]
      exact .refused ⟨⟨.runLocked, rfl, rfl⟩, rfl⟩ h
  · have hfree : ¬ ∃ r ∈ rs, r.id = id := by
      rintro ⟨r, hr, hid⟩
      exact hnone r hr hid
    have hmissing : ¬ d.data.server.runs.hasId (.text id) = true := by
      rwa [hrs.hasId_iff]
    have hmemory := MemoryStore.answer_acquireRun_of_none hget owner now
    rw [show (MemoryStore.acquireRun id owner now).run m = _ from hmemory]
    simp only [hrs.not_acquire hzone (fun hfound => absurd hfound hfree), run_call_bind h.steady,
      run_current_bind, if_neg hmissing]
    exact .refused ⟨⟨.runNotFound, rfl, rfl⟩, rfl⟩ h

/-- A run is written by the one who holds it, with what becomes of its lock. -/
theorem writeRun (h : Mirrors m.data d.data) {locks : Table Lock} {lockFields : Fields}
    (hwrite : ∀ {rs rows}, KeepsRuns rs m.data.runs m.data.runLocks rows →
      (m.data.runLocks.get? r.id).any (·.holder == owner) = true →
      ∃ row rows', rows.updateOne (.both (byId r.id) (.is "lock_owner" (.text owner)))
          (r.toFields ++ lockFields) = .ok (some row, rows') ∧
        KeepsRuns (put Run.id r rs) (m.data.runs.set r.id (.object r.toDocument)) locks rows') :
    Agree Eq (if m.data.runHolder r.id = some owner
        then (.ok r, { m with data := { m.data.putRun r with runLocks := locks } })
        else (.error (.runNotHeld r.id owner), m))
      ((Database.writeRun r owner lockFields).run d) := by
  rw [Database.writeRun]
  refine h.operation fun d h => ?_
  obtain ⟨rs, hrs⟩ := h.runs
  simp only [run_call_bind h.steady, run_keptRow_bind h.steady, run_current_bind,
    run_liftExcept_bind]
  by_cases hheld : m.data.runHolder r.id = some owner
  · have hany : (m.data.runLocks.get? r.id).any (·.holder == owner) = true := by
      rw [MemoryStore.any_holder_eq, decide_eq_true hheld]
    obtain ⟨row, rows, hupdate, hrs'⟩ := hwrite hrs hany
    rw [if_pos hheld, hupdate]
    exact .answered rfl (h.withRuns hrs')
  · have hany : (m.data.runLocks.get? r.id).any (·.holder == owner) = false := by
      rw [MemoryStore.any_holder_eq, decide_eq_false hheld]
    rw [if_neg hheld, hrs.not_held hany]
    exact .refused ⟨⟨.runLocked, rfl, rfl⟩, rfl⟩ h

theorem saveRun (h : Mirrors m.data d.data) (hr : r.IsNaive) (owner : String) :
    Agree Eq ((MemoryStore.saveRun r owner).run m) ((Database.writeRun r owner []).run d) := by
  rw [show (MemoryStore.saveRun r owner).run m = _ from MemoryStore.answer_saveRun r owner m]
  exact h.writeRun fun hrs hheld => hrs.save hr hheld

theorem releaseRun (h : Mirrors m.data d.data) (hr : r.IsNaive) (owner : String) :
    Agree Eq ((MemoryStore.releaseRun r owner).run m)
      ((Database.writeRun r owner unlocked).run d) := by
  rw [show (MemoryStore.releaseRun r owner).run m = _ from MemoryStore.answer_releaseRun r owner m]
  exact h.writeRun fun hrs hheld => hrs.release hr hheld

end Runs

theorem close (h : Mirrors m.data d.data) : Agree Eq (.ok (), m) (Database.close.run d) := by
  rw [Database.close, run_data_bind]
  cases hopen : d.data.isOpen with
  | false => exact .answered rfl h
  | true =>
    simp only [if_true, run_current_bind, run_setServer_bind]
    rw [run_bind, run_tryCatch, run_call]
    · exact .answered rfl { h with steady := h.steady.congr rfl rfl rfl }
    · exact h.steady.congr rfl rfl rfl

end Mirrors

end FunnelFlow
