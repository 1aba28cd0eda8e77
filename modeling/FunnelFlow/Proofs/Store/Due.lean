import FunnelFlow.Proofs.Run.Timely
import FunnelFlow.Proofs.Store.Calls

namespace FunnelFlow

namespace Run

structure IsPlain (r : Run) : Prop where
  resumeAt : ∀ t, r.resumeAt = some t → t.zone = none
  nextAttemptAt : ∀ t, r.nextAttemptAt = some t → t.zone = none

/-- The times of the run are reckoned without a zone, and it does not wait without end. -/
structure IsPunctual (r : Run) : Prop extends r.IsWellFormed where
  waits : r.status = .waiting → r.resumeAt.isSome = true

variable {r : Run} {now : Instant}

theorem hasPassed_eq (hnow : now.zone = none) {t : Instant} (ht : t.zone = none) :
    isDue.hasPassed now t = .ok (t.le now) := by
  rw [isDue.hasPassed, if_pos (by simp [Instant.comparable, hnow, ht])]

theorem IsPlain.exists_isDue (h : r.IsPlain) (hnow : now.zone = none) :
    ∃ due, r.isDue now = .ok due := by
  unfold isDue
  cases r.status with
  | waiting =>
    cases hresume : r.resumeAt with
    | none => exact ⟨false, rfl⟩
    | some t => exact ⟨_, hasPassed_eq hnow (h.resumeAt t hresume)⟩
  | running =>
    cases hnext : r.nextAttemptAt with
    | none => exact ⟨true, rfl⟩
    | some t => exact ⟨_, hasPassed_eq hnow (h.nextAttemptAt t hnext)⟩
  | completed => exact ⟨false, rfl⟩
  | failed => exact ⟨false, rfl⟩

theorem IsWellFormed.isPlain (h : r.IsWellFormed) : r.IsPlain := ⟨h.resumeAt, h.nextAttemptAt⟩

/-- The store and the step agree on whether the time of a run has come. -/
theorem IsPunctual.isDue_eq (h : r.IsPunctual) (now : Instant) :
    r.isDue now = r.isEligible now := by
  unfold isDue isEligible isTerminal
  cases hstatus : r.status with
  | waiting =>
    obtain ⟨t, ht⟩ := Option.isSome_iff_exists.mp (h.waits hstatus)
    simp [ht, isDue.hasPassed, hasCome]
  | running => cases hnext : r.nextAttemptAt <;> simp [isDue.hasPassed, hasCome]
  | completed => rfl
  | failed => rfl

theorem hasCome_eq_ok_true {t? : Option Instant} (hnow : now.zone = none)
    (hzone : ∀ t, t? = some t → t.zone = none) (hle : ∀ t, t? = some t → t.le now = true) :
    hasCome now t? = .ok true := by
  cases t? with
  | none => rfl
  | some t =>
    have hcomparable : now.comparable t = true := by
      simp [Instant.comparable, hnow, hzone t rfl]
    rw [hasCome, if_pos hcomparable, hle t rfl]

theorem IsWellFormed.isEligible_of_le (h : r.IsWellFormed) (hnow : now.zone = none)
    (hterminal : r.isTerminal = false)
    (hle : ∀ t, r.resumeAt = some t ∨ r.nextAttemptAt = some t → t.le now = true) :
    r.isEligible now = .ok true := by
  rw [isEligible, if_neg (by simp [hterminal])]
  split
  · exact hasCome_eq_ok_true hnow h.resumeAt fun t ht => hle t (.inl ht)
  · exact hasCome_eq_ok_true hnow h.nextAttemptAt fun t ht => hle t (.inr ht)

theorem IsWellFormed.isPunctual (h : r.IsWellFormed) (hstatus : r.status ≠ .waiting) :
    r.IsPunctual :=
  ⟨h, fun hwaiting => absurd hwaiting hstatus⟩

theorem IsWellFormed.progress_isPunctual {policy : RetryPolicy} {f : Funnel} {r' : Run}
    (h : r.IsWellFormed) (hstatus : r.status = .running) (hnow : now.zone = none)
    (hprogress : Progress policy f now r r') : r'.IsPunctual := by
  refine ⟨h.progress hnow hprogress, fun hwaiting => ?_⟩
  have hadvance (r : Run) (target : Option String) : (r.advance target).status ≠ .waiting := by
    cases target <;> simp [Run.advance]
  cases hprogress with
  | dangled => cases hwaiting
  | branched _ _ result => exact absurd hwaiting (hadvance _ _)
  | sent => exact absurd hwaiting (hadvance _ _)
  | delayed _ _ hdelay =>
    rcases delay_eq_ok hdelay with ⟨_, rfl⟩ | ⟨target, resumeAt, _, _, rfl⟩
    · exact absurd hwaiting (hadvance _ _)
    · rfl
  | failed _ _ hfail =>
    rcases failAttempt_eq_ok hfail with ⟨_, rfl⟩ | ⟨_, _, again, _, rfl⟩
    · cases hwaiting
    · cases hstatus.symm.trans hwaiting

theorem IsPunctual.progress {policy : RetryPolicy} {f : Funnel} {r' : Run} (h : r.IsPunctual)
    (hnow : now.zone = none) (heligible : r.isEligible now = .ok true)
    (hprogress : Progress policy f now (r.resume now) r') : r'.IsPunctual :=
  have hterminal := isTerminal_eq_false_of_isEligible heligible
  (h.toIsWellFormed.resume now).progress_isPunctual (resume_status hterminal) hnow hprogress

end Run

namespace MemoryStore

open StoreM

variable {m : MemoryStore} {s : Stored MemoryStore} {now : Instant} {rs : List Run} {r : Run}

def runEntry (r : Run) : String × Value := (r.id, .object r.toDocument)

def isReady (m : MemoryStore) (now : Instant) (r : Run) : Bool :=
  (m.isLocked r.id now).toOption == some false && (r.isDue now).toOption == some true

theorem isReady_iff :
    m.isReady now r = true ↔ m.isLocked r.id now = .ok false ∧ r.isDue now = .ok true := by
  unfold isReady
  cases m.isLocked r.id now <;> cases r.isDue now <;> simp [Except.toOption]

theorem keys_eq (hruns : m.runs = rs.map runEntry) : m.runs.keys = rs.map (·.id) := by
  rw [hruns, Table.keys, List.map_map]
  rfl

theorem ready_sublist (hruns : m.runs = rs.map runEntry) (now : Instant) :
    ((rs.filter (m.isReady now)).map (·.id)).Sublist m.runs.keys := by
  rw [keys_eq hruns]
  exact List.filter_sublist.map _

theorem Stores.mem_ready_iff (hr : m.Stores r) (hruns : m.runs = rs.map runEntry)
    (hrs : ∀ r ∈ rs, m.Stores r) :
    r.id ∈ (rs.filter (m.isReady now)).map (·.id) ↔ m.isReady now r = true := by
  constructor
  · intro hid
    obtain ⟨r', hr', hid'⟩ := List.mem_map.mp hid
    obtain ⟨hin, hready⟩ := List.mem_filter.mp hr'
    rwa [hr.eq (hrs r' hin) hid'] at hready
  · intro hready
    have hin : runEntry r ∈ rs.map runEntry := by
      rw [← hruns]
      exact Table.mem_of_get? hr
    obtain ⟨r', hin', hentry⟩ := List.mem_map.mp hin
    obtain rfl := hr.eq (hrs r' hin') (congrArg Prod.fst hentry)
    exact List.mem_map_of_mem (List.mem_filter.mpr ⟨hin', hready⟩)

/-- Locks are taken out without a zone, and run out inside the calendar. -/
structure HasPlainLocks (m : MemoryStore) : Prop where
  zone (id : String) (lock : Lock) (hlock : m.runLocks.get? id = some lock) :
    lock.acquiredAt.zone = none
  ends (id : String) (lock : Lock) (hlock : m.runLocks.get? id = some lock) :
    ∃ t, lock.acquiredAt.plus m.runTtl = .ok t

theorem HasPlainLocks.exists_isLocked (h : m.HasPlainLocks) (hnow : now.zone = none)
    (id : String) : ∃ locked, m.isLocked id now = .ok locked := by
  rw [isLocked]
  cases hlock : m.runLocks.get? id with
  | none => exact ⟨false, rfl⟩
  | some lock =>
    obtain ⟨t, ht⟩ := h.ends id lock hlock
    have hzone : t.zone = none := by
      rw [Instant.eq_of_plus ht]
      exact h.zone id lock hlock
    have hcomparable : t.comparable now = true := by simp [Instant.comparable, hzone, hnow]
    exact ⟨now.lt t, by simp only [Lock.holds_eq ht, if_pos hcomparable]⟩

/-- The scan stops at the run with which the limit is reached. -/
theorem dueFrom_run (hlocks : m.HasPlainLocks) (hnow : now.zone = none) {limit : Int}
    {found : List String} (hplain : ∀ r ∈ rs, r.IsPlain) (hfound : found.length < limit) :
    (m.dueFrom now limit found (rs.map runEntry)).run s =
      (.ok (found ++ ((rs.filter (m.isReady now)).map (·.id)).take (limit.toNat - found.length)),
        s) := by
  induction rs generalizing found with
  | nil =>
    simp only [List.map_nil, List.filter_nil, List.take_nil, List.append_nil]
    rfl
  | cons r rs ih =>
    have ih' {found : List String} (hfound : found.length < limit) :=
      ih (fun r hr => hplain r (List.mem_cons_of_mem _ hr)) hfound
    obtain ⟨locked, hlocked⟩ := hlocks.exists_isLocked hnow r.id
    obtain ⟨due, hdue⟩ := (hplain r List.mem_cons_self).exists_isDue hnow
    rw [List.map_cons, runEntry, dueFrom, run_liftExcept_bind, hlocked]
    cases locked with
    | true =>
      have hready : ¬ m.isReady now r = true := by simp [isReady_iff, hlocked]
      rw [List.filter_cons_of_neg hready]
      exact ih' hfound
    | false =>
      simp only [Bool.false_eq_true, if_false, readRunDocument_toDocument, pure_bind]
      rw [run_liftExcept_bind, hdue]
      cases due with
      | false =>
        have hready : ¬ m.isReady now r = true := by simp [isReady_iff, hdue]
        rw [List.filter_cons_of_neg hready]
        simp only [Bool.false_eq_true, if_false]
        rw [if_neg (by omega)]
        exact ih' hfound
      | true =>
        have hready : m.isReady now r = true := isReady_iff.mpr ⟨hlocked, hdue⟩
        have hlength : (found ++ [r.id]).length = found.length + 1 := by simp
        rw [List.filter_cons_of_pos hready, List.map_cons]
        dsimp only
        rw [if_pos rfl]
        split
        · next hlimit =>
          have hlast : limit.toNat - found.length = 1 := by omega
          rw [hlast, List.take_succ_cons, List.take_zero]
          rfl
        · next hlimit =>
          have hmore : limit.toNat - found.length =
              limit.toNat - (found ++ [r.id]).length + 1 := by omega
          rw [ih' (by omega), hmore, List.take_succ_cons, List.append_assoc, List.singleton_append]

theorem answer_dueRuns (hlocks : s.data.HasPlainLocks) (hnow : now.zone = none) {limit : Int}
    (hruns : s.data.runs = rs.map runEntry) (hplain : ∀ r ∈ rs, r.IsPlain)
    (hlimit : 1 ≤ limit) :
    (answer (.dueRuns now limit)).run s =
      (.ok (((rs.filter (s.data.isReady now)).map (·.id)).take limit.toNat), s) := by
  have hnone : (([] : List String).length : Int) < limit := by
    rw [List.length_nil]
    omega
  change (dueRuns now limit).run s = _
  rw [dueRuns, run_data_bind, hruns]
  exact dueFrom_run hlocks hnow hplain hnone

end MemoryStore

end FunnelFlow
