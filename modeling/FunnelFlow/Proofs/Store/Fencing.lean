import Mathlib.Data.List.Induction
import FunnelFlow.Proofs.Store.Copying

/-!
The locks of runs, told from the calls alone: who holds the lock of a run is who acquired it last,
unless the run was released since. A lock that has run out still lets its holder write, until
another takes it over; from then on the earlier holder is shut out. So it is as long as the runs
that are written can be copied.
-/

namespace FunnelFlow

structure Deed where
  call : StoreCall
  succeeded : Bool

namespace Deed

def acquired (id owner : String) (since : Instant) : Deed := ⟨.acquireRun id owner since, true⟩

def Creates (id : String) (d : Deed) : Prop := ∃ r : Run, r.id = id ∧ d = ⟨.createRun r, true⟩

def Acquires (id : String) (d : Deed) : Prop := ∃ owner since, d = acquired id owner since

def Releases (id : String) (d : Deed) : Prop :=
  ∃ (r : Run) (owner : String), r.id = id ∧ d = ⟨.releaseRun r owner, true⟩

def Writes (id owner : String) (d : Deed) : Prop :=
  ∃ r : Run, r.id = id ∧ (d = ⟨.saveRun r owner, true⟩ ∨ d = ⟨.releaseRun r owner, true⟩)

theorem acquires_acquired (id owner : String) (since : Instant) :
    (acquired id owner since).Acquires id := ⟨owner, since, rfl⟩

theorem acquired_inj {id owner owner' : String} {since since' : Instant}
    (h : acquired id owner since = acquired id owner' since') : owner = owner' ∧ since = since' := by
  cases h
  exact ⟨rfl, rfl⟩

end Deed

section Last

variable {log rest : List Deed} {stops : Deed → Prop} {d e : Deed}

def Last (stops : Deed → Prop) (log : List Deed) (d : Deed) : Prop :=
  ∃ before after, log = before ++ d :: after ∧ ∀ e ∈ after, ¬ stops e

theorem not_last_nil : ¬ Last stops [] d := by
  rintro ⟨before, after, h, _⟩
  simp at h

theorem last_snoc_iff : Last stops (log ++ [e]) d ↔ d = e ∨ Last stops log d ∧ ¬ stops e := by
  constructor
  · rintro ⟨before, after, h, hafter⟩
    rcases List.eq_nil_or_concat after with rfl | ⟨after, last, rfl⟩
    · have h' : log ++ [e] = before ++ [d] := h
      obtain ⟨_, he⟩ := List.append_inj' h' rfl
      exact .inl (List.singleton_inj.mp he).symm
    · have h' : log ++ [e] = (before ++ d :: after) ++ [last] := by simpa using h
      obtain ⟨rfl, he⟩ := List.append_inj' h' rfl
      obtain rfl := List.singleton_inj.mp he
      exact .inr ⟨⟨before, after, rfl, fun x hx => hafter x (by simp [hx])⟩, hafter e (by simp)⟩
  · rintro (rfl | ⟨⟨before, after, rfl, hafter⟩, he⟩)
    · exact ⟨log, [], rfl, by simp⟩
    · refine ⟨before, after ++ [e], by simp, fun x hx => ?_⟩
      rcases List.mem_append.mp hx with hx | hx
      · exact hafter x hx
      · rwa [List.mem_singleton.mp hx]

theorem Last.append (h : Last stops (log ++ rest) d) : d ∈ rest ∨ Last stops log d := by
  induction rest using List.reverseRecOn with
  | nil => exact .inr (by simpa using h)
  | append_singleton rest e ih =>
    rw [← List.append_assoc] at h
    rcases last_snoc_iff.mp h with rfl | ⟨h, _⟩
    · exact .inl (by simp)
    · exact (ih h).imp_left fun hd => by simp [hd]

theorem Last.unique (hd : Last stops log d) (he : Last stops log e) (hstops : stops d)
    (hstops' : stops e) : d = e := by
  induction log using List.reverseRecOn with
  | nil => exact absurd hd not_last_nil
  | append_singleton log x ih =>
    rcases last_snoc_iff.mp hd with rfl | ⟨hd, hx⟩
    · exact (last_snoc_iff.mp he).elim Eq.symm fun h => absurd hstops h.2
    · rcases last_snoc_iff.mp he with rfl | ⟨he, _⟩
      · exact absurd hstops' hx
      · exact ih hd he

end Last

/-- The run was acquired last by this owner at this instant. -/
def LastAcquired (log : List Deed) (id owner : String) (since : Instant) : Prop :=
  Last (Deed.Acquires id) log (.acquired id owner since)

/-- The run was acquired last by this owner, and not released since. -/
def Held (log : List Deed) (id owner : String) (since : Instant) : Prop :=
  Last (fun d => d.Acquires id ∨ d.Releases id) log (.acquired id owner since)

section Held

variable {log : List Deed} {id owner owner' : String} {since since' : Instant} {d : Deed}

theorem Held.lastAcquired (h : Held log id owner since) : LastAcquired log id owner since := by
  obtain ⟨before, after, hlog, hafter⟩ := h
  exact ⟨before, after, hlog, fun e he hacquires => hafter e he (.inl hacquires)⟩

theorem LastAcquired.unique (h : LastAcquired log id owner since)
    (h' : LastAcquired log id owner' since') : owner = owner' ∧ since = since' :=
  Deed.acquired_inj (Last.unique h h' (Deed.acquires_acquired ..) (Deed.acquires_acquired ..))

theorem held_of_acquired :
    Held (log ++ [.acquired id owner since]) id owner' since' ↔ owner' = owner ∧ since' = since := by
  refine last_snoc_iff.trans ⟨?_, ?_⟩
  · rintro (h | ⟨_, h⟩)
    · exact Deed.acquired_inj h
    · exact absurd (.inl (Deed.acquires_acquired ..)) h
  · rintro ⟨rfl, rfl⟩
    exact .inl rfl

theorem not_held_of_releases (h : d.Releases id) : ¬ Held (log ++ [d]) id owner since := by
  intro hheld
  rcases last_snoc_iff.mp hheld with rfl | ⟨_, hd⟩
  · obtain ⟨r, owner, _, h⟩ := h
    cases h
  · exact hd (.inr h)

theorem held_of_neither (hacquires : ¬ d.Acquires id) (hreleases : ¬ d.Releases id) :
    Held (log ++ [d]) id owner since ↔ Held log id owner since := by
  refine last_snoc_iff.trans ⟨?_, fun h => .inr ⟨h, not_or.mpr ⟨hacquires, hreleases⟩⟩⟩
  rintro (rfl | h)
  · exact absurd (Deed.acquires_acquired ..) hacquires
  · exact h.1

end Held

def StoreCall.IsAside : StoreCall → Prop
  | .createRun _ | .acquireRun .. | .saveRun .. | .releaseRun .. => False
  | _ => True

def Fault.RefusesRun : Fault → Prop
  | .runNotFound _ | .runLocked _ | .runNotHeld .. => True
  | _ => False

namespace MemoryStore

open StoreM

/-- The deeds that were done to a store that was empty before. What they write can be copied, and
locks run out inside the calendar. -/
inductive Records (levels : Nat) (runTtl funnelTtl : Span) :
    List Deed → Stored MemoryStore → Prop
  | empty (ids : IdSupply) : Records levels runTtl funnelTtl [] ⟨ids, .empty runTtl funnelTtl⟩
  | next {log : List Deed} {s s' : Stored MemoryStore} {call : StoreCall}
    {result : Except Fault call.Answer} (h : Records levels runTtl funnelTtl log s)
    (hshallow : call.IsShallow levels) (hanswered : ServedWithin levels (.store call) s result s')
    (hends : ∀ id owner now, call = .acquireRun id owner now → result.isOk = true →
      ∃ t, now.plus runTtl = .ok t) :
    Records levels runTtl funnelTtl (log ++ [⟨call, result.isOk⟩]) s'

section Changes

variable {m m' : MemoryStore} {call : StoreCall}

theorem Changes.aside (h : Changes m call m') (hcall : call.IsAside) :
    m'.runs = m.runs ∧ m'.runLocks = m.runLocks := by
  cases h with
  | createRun => exact hcall.elim
  | acquireRun => exact hcall.elim
  | saveRun => exact hcall.elim
  | releaseRun => exact hcall.elim
  | _ => exact ⟨rfl, rfl⟩

theorem Changes.runTtl_eq (h : Changes m call m') : m'.runTtl = m.runTtl := by
  cases h <;> rfl

end Changes

/-- What the deeds tell about the runs of a store and their locks. -/
structure Agrees (runTtl : Span) (log : List Deed) (m : MemoryStore) : Prop where
  ttl : m.runTtl = runTtl
  created : ∀ id, (∃ d ∈ log, d.Creates id) → ∃ r : Run, r.id = id ∧ m.Stores r
  unknown : ∀ id, (¬ ∃ d ∈ log, d.Creates id) → m.runs.get? id = none
  lock : ∀ id owner since, m.runLocks.get? id = some ⟨owner, since⟩ ↔ Held log id owner since
  known : ∀ id lock, m.runLocks.get? id = some lock → ∃ d ∈ log, d.Creates id
  ends : ∀ id lock, m.runLocks.get? id = some lock → ∃ t, lock.acquiredAt.plus runTtl = .ok t

section Agrees

variable {runTtl : Span} {log : List Deed} {m m' : MemoryStore} {d : Deed} {r : Run}
  {id owner : String} {now : Instant}

theorem exists_creates_snoc_iff (h : ¬ d.Creates id) :
    (∃ e ∈ log ++ [d], e.Creates id) ↔ ∃ e ∈ log, e.Creates id := by
  simp [or_and_right, exists_or, h]

theorem Agrees.idle (h : Agrees runTtl log m) (httl : m'.runTtl = m.runTtl)
    (hruns : m'.runs = m.runs) (hlocks : m'.runLocks = m.runLocks) (hcreates : ∀ id, ¬ d.Creates id)
    (hacquires : ∀ id, ¬ d.Acquires id) (hreleases : ∀ id, ¬ d.Releases id) :
    Agrees runTtl (log ++ [d]) m' where
  ttl := httl.trans h.ttl
  created id hid := by
    simp only [Stores, hruns]
    exact h.created id ((exists_creates_snoc_iff (hcreates id)).mp hid)
  unknown id hid := by
    rw [hruns]
    exact h.unknown id fun hknown => hid ((exists_creates_snoc_iff (hcreates id)).mpr hknown)
  lock id owner since := by
    rw [hlocks, h.lock, held_of_neither (hacquires id) (hreleases id)]
  known id lock hlock := by
    rw [hlocks] at hlock
    exact (exists_creates_snoc_iff (hcreates id)).mpr (h.known id lock hlock)
  ends id lock hlock := by
    rw [hlocks] at hlock
    exact h.ends id lock hlock

theorem Agrees.putRun (h : Agrees runTtl log m) (hr : ∃ d ∈ log, d.Creates r.id) :
    Agrees runTtl log (m.putRun r) where
  ttl := h.ttl
  created id hid := by
    by_cases hrid : id = r.id
    · exact ⟨r, hrid.symm, stores_putRun⟩
    · obtain ⟨r', rfl, hstores⟩ := h.created id hid
      exact ⟨r', rfl, hstores.congr (Table.get?_set_of_ne _ _ hrid)⟩
  unknown id hid := by
    have hrid : id ≠ r.id := by
      rintro rfl
      exact hid hr
    rw [MemoryStore.putRun, Table.get?_set_of_ne _ _ hrid]
    exact h.unknown id hid
  lock := h.lock
  known := h.known
  ends := h.ends

theorem Agrees.create (h : Agrees runTtl log m) (r : Run) :
    Agrees runTtl (log ++ [⟨.createRun r, true⟩]) (m.putRun r) := by
  have hr : ∃ d ∈ log ++ [⟨.createRun r, true⟩], d.Creates r.id := ⟨_, by simp, r, rfl, rfl⟩
  have hacquires (id : String) : ¬ (Deed.mk (.createRun r) true).Acquires id := by
    rintro ⟨_, _, ⟨⟩⟩
  have hreleases (id : String) : ¬ (Deed.mk (.createRun r) true).Releases id := by
    rintro ⟨_, _, _, ⟨⟩⟩
  have hcreates (id : String) (hid : id ≠ r.id) : ¬ (Deed.mk (.createRun r) true).Creates id := by
    rintro ⟨_, rfl, ⟨⟩⟩
    exact hid rfl
  constructor
  · exact h.ttl
  · intro id hid
    by_cases hrid : id = r.id
    · exact ⟨r, hrid.symm, stores_putRun⟩
    · obtain ⟨r', rfl, hstores⟩ :=
        h.created id ((exists_creates_snoc_iff (hcreates id hrid)).mp hid)
      exact ⟨r', rfl, hstores.congr (Table.get?_set_of_ne _ _ hrid)⟩
  · intro id hid
    have hrid : id ≠ r.id := by
      rintro rfl
      exact hid hr
    rw [MemoryStore.putRun, Table.get?_set_of_ne _ _ hrid]
    exact h.unknown id fun hknown => hid ((exists_creates_snoc_iff (hcreates id hrid)).mpr hknown)
  · intro id owner since
    exact (h.lock id owner since).trans (held_of_neither (hacquires id) (hreleases id)).symm
  · intro id lock hlock
    obtain ⟨d, hd, hcreates⟩ := h.known id lock hlock
    exact ⟨d, List.mem_append_left _ hd, hcreates⟩
  · exact h.ends

theorem Agrees.acquire (h : Agrees runTtl log m) (hid : ∃ d ∈ log, d.Creates id)
    (hends : ∃ t, now.plus runTtl = .ok t) :
    Agrees runTtl (log ++ [.acquired id owner now]) (m.lockRun id owner now) := by
  have hcreates (id' : String) : ¬ (Deed.acquired id owner now).Creates id' := by
    rintro ⟨_, _, ⟨⟩⟩
  have hself : (m.lockRun id owner now).runLocks.get? id = some ⟨owner, now⟩ :=
    Table.get?_set_self _ _ _
  have hother {id' : String} (hne : id' ≠ id) :
      (m.lockRun id owner now).runLocks.get? id' = m.runLocks.get? id' :=
    Table.get?_set_of_ne _ _ hne
  constructor
  · exact h.ttl
  · exact fun id' hid' => h.created id' ((exists_creates_snoc_iff (hcreates id')).mp hid')
  · intro id' hid'
    exact h.unknown id' fun hknown => hid' ((exists_creates_snoc_iff (hcreates id')).mpr hknown)
  · intro id' owner' since
    by_cases hne : id' = id
    · subst hne
      rw [hself, held_of_acquired, Option.some.injEq, Lock.mk.injEq]
      exact ⟨fun ⟨ho, hs⟩ => ⟨ho.symm, hs.symm⟩, fun ⟨ho, hs⟩ => ⟨ho.symm, hs.symm⟩⟩
    · have hacquires : ¬ (Deed.acquired id owner now).Acquires id' := by
        rintro ⟨_, _, ⟨⟩⟩
        exact hne rfl
      have hreleases : ¬ (Deed.acquired id owner now).Releases id' := by
        rintro ⟨_, _, _, ⟨⟩⟩
      rw [hother hne, h.lock, held_of_neither hacquires hreleases]
  · intro id' lock hlock
    refine (exists_creates_snoc_iff (hcreates id')).mpr ?_
    by_cases hne : id' = id
    · exact hne ▸ hid
    · exact h.known id' lock (hother hne ▸ hlock)
  · intro id' lock hlock
    by_cases hne : id' = id
    · subst hne
      obtain rfl : ⟨owner, now⟩ = lock := Option.some.inj (hself.symm.trans hlock)
      exact hends
    · exact h.ends id' lock (hother hne ▸ hlock)

theorem Agrees.save (h : Agrees runTtl log m) (hr : ∃ d ∈ log, d.Creates r.id) (owner : String) :
    Agrees runTtl (log ++ [⟨.saveRun r owner, true⟩]) (m.putRun r) :=
  (h.putRun hr).idle rfl rfl rfl (by rintro _ ⟨_, _, ⟨⟩⟩) (by rintro _ ⟨_, _, ⟨⟩⟩)
    (by rintro _ ⟨_, _, _, ⟨⟩⟩)

theorem Agrees.release (h : Agrees runTtl log m) (hr : ∃ d ∈ log, d.Creates r.id) (owner : String) :
    Agrees runTtl (log ++ [⟨.releaseRun r owner, true⟩]) ((m.putRun r).unlockRun r.id) := by
  have hput := h.putRun hr
  have hcreates (id : String) : ¬ (Deed.mk (.releaseRun r owner) true).Creates id := by
    rintro ⟨_, _, ⟨⟩⟩
  have hacquires (id : String) : ¬ (Deed.mk (.releaseRun r owner) true).Acquires id := by
    rintro ⟨_, _, ⟨⟩⟩
  have hself : ((m.putRun r).unlockRun r.id).runLocks.get? r.id = none := Table.get?_erase_self _ _
  have hother {id : String} (hne : id ≠ r.id) :
      ((m.putRun r).unlockRun r.id).runLocks.get? id = m.runLocks.get? id :=
    Table.get?_erase_of_ne _ hne
  constructor
  · exact h.ttl
  · exact fun id hid => hput.created id ((exists_creates_snoc_iff (hcreates id)).mp hid)
  · intro id hid
    exact hput.unknown id fun hknown => hid ((exists_creates_snoc_iff (hcreates id)).mpr hknown)
  · intro id owner' since
    by_cases hne : id = r.id
    · subst hne
      have hreleases : (Deed.mk (.releaseRun r owner) true).Releases r.id := ⟨r, owner, rfl, rfl⟩
      exact iff_of_false (by simp [hself]) (not_held_of_releases hreleases)
    · have hreleases : ¬ (Deed.mk (.releaseRun r owner) true).Releases id := by
        rintro ⟨_, _, rfl, ⟨⟩⟩
        exact hne rfl
      rw [hother hne, h.lock, held_of_neither (hacquires id) hreleases]
  · intro id lock hlock
    refine (exists_creates_snoc_iff (hcreates id)).mpr ?_
    have hne : id ≠ r.id := by
      rintro rfl
      simp [hself] at hlock
    exact h.known id lock (hother hne ▸ hlock)
  · intro id lock hlock
    have hne : id ≠ r.id := by
      rintro rfl
      simp [hself] at hlock
    exact h.ends id lock (hother hne ▸ hlock)

theorem Agrees.isLocked_eq_false_iff (h : Agrees runTtl log m) : m.isLocked id now = .ok false ↔
    ∀ owner since, Held log id owner since → RunsOut runTtl since now := by
  have hends : ∀ lock, m.runLocks.get? id = some lock →
      ∃ t, lock.acquiredAt.plus m.runTtl = .ok t := by
    rw [h.ttl]
    exact h.ends id
  rw [isLocked_eq_false_iff_runsOut hends, h.ttl]
  simp only [← h.lock]
  exact ⟨fun hout owner since hlock => hout ⟨owner, since⟩ hlock,
    fun hout lock hlock => hout lock.holder lock.acquiredAt hlock⟩

end Agrees

section Answers

variable {runTtl : Span} {log : List Deed} {s : Stored MemoryStore} {id owner : String}
  {now : Instant} {r : Run}

theorem runHolder_eq_some_iff (h : Agrees runTtl log s.data) :
    s.data.runHolder id = some owner ↔ ∃ since, Held log id owner since := by
  simp only [← h.lock, runHolder, Option.map_eq_some_iff]
  constructor
  · rintro ⟨lock, hlock, rfl⟩
    exact ⟨lock.acquiredAt, hlock⟩
  · rintro ⟨since, hlock⟩
    exact ⟨⟨owner, since⟩, hlock, rfl⟩

theorem succeeds_acquireRun_iff (h : Agrees runTtl log s.data) :
    Succeeds (.acquireRun id owner now) s ↔ (∃ d ∈ log, d.Creates id) ∧
      ((¬ ∃ owner' since, Held log id owner' since) ∨
        ∃ owner' since, LastAcquired log id owner' since ∧ RunsOut runTtl since now) := by
  by_cases hid : ∃ d ∈ log, d.Creates id
  · obtain ⟨r, rfl, hstores⟩ := h.created id hid
    rw [hstores.succeeds_acquireRun_iff, h.isLocked_eq_false_iff, and_iff_right hid]
    constructor
    · intro hout
      by_cases hheld : ∃ owner' since, Held log r.id owner' since
      · obtain ⟨owner', since, hheld⟩ := hheld
        exact .inr ⟨owner', since, hheld.lastAcquired, hout owner' since hheld⟩
      · exact .inl hheld
    · rintro (hnone | ⟨owner', since, hlast, hout⟩) owner'' since' hheld
      · exact absurd ⟨owner'', since', hheld⟩ hnone
      · obtain ⟨_, rfl⟩ := hheld.lastAcquired.unique hlast
        exact hout
  · have hanswer := answer_acquireRun_of_none (h.unknown id hid) owner now
    exact iff_of_false (not_succeeds_of_run hanswer) fun h' => hid h'.1

theorem succeeds_saveRun_iff (h : Agrees runTtl log s.data) :
    Succeeds (.saveRun r owner) s ↔ ∃ since, Held log r.id owner since := by
  rw [← runHolder_eq_some_iff h]
  have hanswer := answer_saveRun r owner s
  by_cases hholder : s.data.runHolder r.id = some owner
  · rw [if_pos hholder] at hanswer
    exact iff_of_true (succeeds_of_run hanswer) hholder
  · rw [if_neg hholder] at hanswer
    exact iff_of_false (not_succeeds_of_run hanswer) hholder

theorem succeeds_releaseRun_iff (h : Agrees runTtl log s.data) :
    Succeeds (.releaseRun r owner) s ↔ ∃ since, Held log r.id owner since := by
  rw [← runHolder_eq_some_iff h]
  have hanswer := answer_releaseRun r owner s
  by_cases hholder : s.data.runHolder r.id = some owner
  · rw [if_pos hholder] at hanswer
    exact iff_of_true (succeeds_of_run hanswer) hholder
  · rw [if_neg hholder] at hanswer
    exact iff_of_false (not_succeeds_of_run hanswer) hholder

theorem succeeds_createRun (r : Run) (s : Stored MemoryStore) : Succeeds (.createRun r) s := by
  have hwrite : (answer (.createRun r)).run s = _ := writeRun_run r s
  exact succeeds_of_run hwrite

def Incomparable (ttl : Span) (since now : Instant) : Prop :=
  ∃ t, since.plus ttl = .ok t ∧ t.comparable now = false

/-- How a call about a run is refused: it changes nothing. -/
theorem Agrees.refused (h : Agrees runTtl log s.data) {call : StoreCall} (hcall : ¬ call.IsAside)
    {e : Fault} (he : ((answer call).run s).1 = .error e) :
    ((answer call).run s).2 = s ∧ (e.RefusesRun ∨ e = .mixedZones ∧ ∃ id owner now owner' since,
      call = .acquireRun id owner now ∧ Held log id owner' since ∧
        Incomparable runTtl since now) := by
  cases call with
  | createRun r =>
    obtain ⟨a, ha⟩ := succeeds_createRun r s
    rw [ha] at he
    cases he
  | acquireRun id owner now =>
    by_cases hid : ∃ d ∈ log, d.Creates id
    · obtain ⟨r, rfl, hstores⟩ := h.created id hid
      rw [answer_acquireRun hstores] at he ⊢
      cases hlocked : s.data.isLocked r.id now with
      | error e' =>
        obtain rfl : e' = e := by simpa [hlocked] using he
        refine ⟨rfl, .inr ?_⟩
        rw [isLocked] at hlocked
        cases hlock : s.data.runLocks.get? r.id with
        | none => simp [hlock] at hlocked
        | some lock =>
          obtain ⟨owner', since⟩ := lock
          obtain ⟨t, ht⟩ := h.ends r.id _ hlock
          rw [← h.ttl] at ht
          simp only [hlock, Lock.holds_eq ht] at hlocked
          split at hlocked
          · cases hlocked
          · next hcomparable =>
            cases hlocked
            exact ⟨rfl, r.id, owner, now, owner', since, rfl, (h.lock ..).mp hlock, t, h.ttl ▸ ht,
              by simpa using hcomparable⟩
      | ok locked =>
        cases locked with
        | false => simp [hlocked] at he
        | true =>
          obtain rfl : Fault.runLocked r.id = e := by simpa [hlocked] using he
          exact ⟨rfl, .inl trivial⟩
    · rw [answer_acquireRun_of_none (h.unknown id hid)] at he ⊢
      cases he
      exact ⟨rfl, .inl trivial⟩
  | saveRun r owner =>
    rw [answer_saveRun] at he ⊢
    split at he <;> cases he
    next hholder =>
      rw [if_neg hholder]
      exact ⟨rfl, .inl trivial⟩
  | releaseRun r owner =>
    rw [answer_releaseRun] at he ⊢
    split at he <;> cases he
    next hholder =>
      rw [if_neg hholder]
      exact ⟨rfl, .inl trivial⟩
  | _ => exact absurd trivial hcall

end Answers

section Records

variable {levels : Nat} {runTtl funnelTtl : Span} {log : List Deed} {s s' : Stored MemoryStore}

theorem Agrees.aside (h : Agrees runTtl log s.data) {call : StoreCall} (hcall : call.IsAside)
    (succeeded : Bool) :
    Agrees runTtl (log ++ [⟨call, succeeded⟩]) ((answer call).run s).2.data := by
  have hchanges := answer_changes call s
  obtain ⟨hruns, hlocks⟩ := hchanges.aside hcall
  refine h.idle hchanges.runTtl_eq hruns hlocks ?_ ?_ ?_
  · rintro _ ⟨_, _, ⟨⟩⟩
    exact hcall
  · rintro _ ⟨_, _, ⟨⟩⟩
    exact hcall
  · rintro _ ⟨_, _, _, ⟨⟩⟩
    exact hcall

theorem Agrees.failed (h : Agrees runTtl log s.data) (call : StoreCall) :
    Agrees runTtl (log ++ [⟨call, false⟩]) s.data :=
  h.idle rfl rfl rfl (by rintro _ ⟨_, _, ⟨⟩⟩) (by rintro _ ⟨_, _, ⟨⟩⟩) (by rintro _ ⟨_, _, _, ⟨⟩⟩)

theorem Agrees.known_of_held (h : Agrees runTtl log s.data) {id owner : String}
    (hheld : s.data.runHolder id = some owner) : ∃ d ∈ log, d.Creates id := by
  obtain ⟨since, hheld⟩ := (runHolder_eq_some_iff h).mp hheld
  exact h.known id _ ((h.lock ..).mpr hheld)

theorem Records.isShallow (h : Records levels runTtl funnelTtl log s) :
    s.data.IsShallow levels := by
  induction h with
  | empty ids => exact nofun
  | @next log s s' call result _ hshallow hanswered _ ih =>
    obtain ⟨_, rfl⟩ := hanswered.store_eq ih hshallow
    exact ih.changes (answer_changes call s) hshallow

theorem Records.agrees (h : Records levels runTtl funnelTtl log s) :
    Agrees runTtl log s.data := by
  induction h with
  | empty ids =>
    refine ⟨rfl, by simp, fun _ _ => rfl, fun id owner since => ?_, nofun, nofun⟩
    exact iff_of_false nofun not_last_nil
  | @next log s s' call result hrecords hshallow hanswered hends ih =>
    obtain ⟨rfl, rfl⟩ := hanswered.store_eq hrecords.isShallow hshallow
    by_cases hcall : call.IsAside
    · exact ih.aside hcall _
    · by_cases hok : Succeeds call s
      · rw [isOk_eq_true_iff.mpr hok]
        cases call with
        | createRun r =>
          have hwrite : (answer (.createRun r)).run s = _ := writeRun_run r s
          rw [hwrite]
          exact ih.create r
        | acquireRun id owner now =>
          obtain ⟨hid, _⟩ := (succeeds_acquireRun_iff ih).mp hok
          obtain ⟨r, rfl, hstores⟩ := ih.created id hid
          have hanswer := answer_acquireRun hstores owner now
          have hfree : s.data.isLocked r.id now = .ok false := by
            obtain ⟨a, ha⟩ := hok
            rw [hanswer] at ha
            split at ha
            · assumption
            · cases ha
            · cases ha
          rw [hanswer, hfree]
          exact ih.acquire hid (hends r.id owner now rfl (isOk_eq_true_iff.mpr hok))
        | saveRun r owner =>
          have hheld := (runHolder_eq_some_iff ih).mpr ((succeeds_saveRun_iff ih).mp hok)
          rw [answer_saveRun, if_pos hheld]
          exact ih.save (ih.known_of_held hheld) owner
        | releaseRun r owner =>
          have hheld := (runHolder_eq_some_iff ih).mpr ((succeeds_releaseRun_iff ih).mp hok)
          rw [answer_releaseRun, if_pos hheld]
          exact ih.release (ih.known_of_held hheld) owner
        | _ => exact absurd trivial hcall
      · have hfail : ((answer call).run s).1.isOk = false := by
          simpa using mt isOk_eq_true_iff.mp hok
        rw [hfail]
        cases hresult : ((answer call).run s).1 with
        | ok a => exact absurd ⟨a, hresult⟩ hok
        | error e =>
          rw [(ih.refused hcall hresult).1]
          exact ih.failed call

/-- Each deed of a log was done to the store that the deeds before it had led to. -/
theorem Records.deed {before after : List Deed} {d : Deed}
    (h : Records levels runTtl funnelTtl log s) (hlog : log = before ++ d :: after) :
    ∃ s', Records levels runTtl funnelTtl before s' ∧
      d.succeeded = ((answer d.call).run s').1.isOk := by
  induction h generalizing after with
  | empty ids => simp at hlog
  | @next log s s' call result hrecords hshallow hanswered _ ih =>
    obtain ⟨rfl, rfl⟩ := hanswered.store_eq hrecords.isShallow hshallow
    rcases List.eq_nil_or_concat after with rfl | ⟨after, last, rfl⟩
    · have hlog' : log ++ [_] = before ++ [d] := hlog
      obtain ⟨rfl, hd⟩ := List.append_inj' hlog' rfl
      obtain rfl := List.singleton_inj.mp hd
      exact ⟨s, hrecords, rfl⟩
    · rw [List.concat_eq_append, ← List.cons_append, ← List.append_assoc] at hlog
      exact ih (List.append_inj' hlog rfl).1

theorem Records.held_of_writes {before after : List Deed} {d : Deed} {id owner : String}
    (h : Records levels runTtl funnelTtl log s) (hlog : log = before ++ d :: after)
    (hd : d.Writes id owner) : ∃ since, Held before id owner since := by
  obtain ⟨s', hrecords, hsucceeded⟩ := h.deed hlog
  obtain ⟨r, rfl, rfl | rfl⟩ := hd
  · exact (succeeds_saveRun_iff hrecords.agrees).mp (isOk_eq_true_iff.mp hsucceeded.symm)
  · exact (succeeds_releaseRun_iff hrecords.agrees).mp (isOk_eq_true_iff.mp hsucceeded.symm)

theorem Records.writer_eq {before mid after : List Deed} {id owner owner' : String}
    {since : Instant} (h : Records levels runTtl funnelTtl log s)
    (hlog : log = before ++ .acquired id owner since :: (mid ++ after))
    (hmid : ∀ d ∈ mid, ¬ d.Acquires id) {d : Deed} (hd : d ∈ mid) (hwrites : d.Writes id owner') :
    owner' = owner := by
  obtain ⟨mid₁, mid₂, rfl⟩ := List.append_of_mem hd
  have hlog' : log = (before ++ [.acquired id owner since] ++ mid₁) ++ d :: (mid₂ ++ after) := by
    simp [hlog]
  obtain ⟨since', hheld⟩ := h.held_of_writes hlog' hwrites
  rcases hheld.append with hin | hlast
  · exact absurd (Deed.acquires_acquired ..) (hmid _ (List.mem_append_left _ hin))
  · exact (held_of_acquired.mp hlast).1

theorem Records.shut_out {before after : List Deed} {id owner other : String} {since : Instant}
    (h : Records levels runTtl funnelTtl log s) (hlog : log = before ++ .acquired id other since :: after)
    (hother : owner ≠ other) (hafter : ∀ since', .acquired id owner since' ∉ after) {d : Deed}
    (hd : d ∈ after) : ¬ d.Writes id owner := by
  intro hwrites
  obtain ⟨after₁, after₂, rfl⟩ := List.append_of_mem hd
  have hlog' : log = (before ++ [.acquired id other since] ++ after₁) ++ d :: after₂ := by
    simp [hlog]
  obtain ⟨since', hheld⟩ := h.held_of_writes hlog' hwrites
  rcases hheld.append with hin | hlast
  · exact hafter since' (by simp [hin])
  · exact hother (held_of_acquired.mp hlast).1

/-- Who may do what with a run, told from what was done before, and how the store may answer. -/
structure Fenced (levels : Nat) (runTtl : Span) (log : List Deed) (s : Stored MemoryStore) :
    Prop where
  acquire (id owner : String) (now : Instant) (result : Except Fault Run) (s' : Stored MemoryStore)
    (hanswered : ServedWithin levels (.store (.acquireRun id owner now)) s result s') :
    result.isOk = true ↔
      (∃ d ∈ log, d.Creates id) ∧ ((¬ ∃ owner' since, Held log id owner' since) ∨
        ∃ owner' since, LastAcquired log id owner' since ∧ RunsOut runTtl since now)
  save (r : Run) (hr : r.payload.IsShallow levels) (owner : String) (result : Except Fault Run)
    (s' : Stored MemoryStore)
    (hanswered : ServedWithin levels (.store (.saveRun r owner)) s result s') :
    result.isOk = true ↔ ∃ since, Held log r.id owner since
  release (r : Run) (hr : r.payload.IsShallow levels) (owner : String) (result : Except Fault Run)
    (s' : Stored MemoryStore)
    (hanswered : ServedWithin levels (.store (.releaseRun r owner)) s result s') :
    result.isOk = true ↔ ∃ since, Held log r.id owner since
  refused (call : StoreCall) (hcall : ¬ call.IsAside) (hshallow : call.IsShallow levels)
    (e : Fault) (s' : Stored MemoryStore)
    (hanswered : ServedWithin levels (.store call) s (.error e) s') :
    s' = s ∧ (e.RefusesRun ∨ e = .mixedZones ∧ ∃ id owner now owner' since,
      call = .acquireRun id owner now ∧ Held log id owner' since ∧ Incomparable runTtl since now)
  writer (before mid after : List Deed) (id owner : String) (since : Instant)
    (hlog : log = before ++ .acquired id owner since :: (mid ++ after))
    (hmid : ∀ d ∈ mid, ¬ d.Acquires id) (d : Deed) (hd : d ∈ mid) (owner' : String)
    (hwrites : d.Writes id owner') : owner' = owner
  shutOut (before after : List Deed) (id owner other : String) (since : Instant)
    (hlog : log = before ++ .acquired id other since :: after) (hother : owner ≠ other)
    (hafter : ∀ since', .acquired id owner since' ∉ after) (d : Deed) (hd : d ∈ after) :
    ¬ d.Writes id owner

theorem Records.isOk_iff (h : Records levels runTtl funnelTtl log s) {call : StoreCall}
    {result : Except Fault call.Answer} (hshallow : call.IsShallow levels)
    (hanswered : ServedWithin levels (.store call) s result s') :
    result.isOk = true ↔ Succeeds call s := by
  obtain ⟨rfl, _⟩ := hanswered.store_eq h.isShallow hshallow
  exact isOk_eq_true_iff

/-- A run can be acquired exactly if it is free, and written exactly by who acquired it last and did
not release it; whoever is refused leaves nothing behind. So between two acquisitions only the first
owner writes, and one who lost a run to another does not write it before acquiring it again. -/
theorem Records.fenced (h : Records levels runTtl funnelTtl log s) :
    Fenced levels runTtl log s where
  acquire _ _ _ _ _ hanswered :=
    (h.isOk_iff (StoreCall.IsShallow.of_none rfl) hanswered).trans (succeeds_acquireRun_iff h.agrees)
  save r hr _ _ _ hanswered :=
    (h.isOk_iff (StoreCall.IsShallow.of_run rfl hr) hanswered).trans
      (succeeds_saveRun_iff h.agrees)
  release r hr _ _ _ hanswered :=
    (h.isOk_iff (StoreCall.IsShallow.of_run rfl hr) hanswered).trans
      (succeeds_releaseRun_iff h.agrees)
  refused call hcall hshallow e s' hanswered := by
    obtain ⟨he, rfl⟩ := hanswered.store_eq h.isShallow hshallow
    exact h.agrees.refused hcall he.symm
  writer _ _ _ _ _ _ hlog hmid _ hd _ hwrites := h.writer_eq hlog hmid hd hwrites
  shutOut _ _ _ _ _ _ hlog hother hafter _ hd := h.shut_out hlog hother hafter hd

end Records

def contendedRun : Run :=
  { id := "run", funnelId := "f", contactId := "c", currentNodeId := "n", status := .running
    resumeAt := none, attempts := 0, nextAttemptAt := none, payload := [], history := []
    createdAt := none, updatedAt := none }

def grasp : List Deed := [⟨.createRun contendedRun, true⟩, .acquired "run" "ada" ⟨0, none⟩]

/-- One worker takes a run over from another at the instant at which the lock runs out. -/
def takeover : List Deed := grasp ++ [.acquired "run" "bob" ⟨300000000, none⟩]

def held : Stored MemoryStore :=
  ⟨.first, ((MemoryStore.empty ⟨300000000⟩ ⟨300000000⟩).putRun contendedRun).lockRun "run" "ada"
    ⟨0, none⟩⟩

theorem contendedRun_isShallow : contendedRun.payload.IsShallow 500 := by decide

theorem records_held : Records 500 ⟨300000000⟩ ⟨300000000⟩ grasp held := by
  have hempty : Records 500 ⟨300000000⟩ ⟨300000000⟩ [] _ := .empty .first
  have hcreated := hempty.next (.of_run rfl contendedRun_isShallow)
    (.served (.store (.createRun contendedRun) _)) (by rintro _ _ _ ⟨⟩)
  exact hcreated.next (.of_none rfl) (.served (.store (.acquireRun "run" "ada" ⟨0, none⟩) _))
    (by rintro _ _ _ ⟨⟩ _; exact ⟨_, rfl⟩)

def takenOver : Stored MemoryStore :=
  { held with data := held.data.lockRun "run" "bob" ⟨300000000, none⟩ }

theorem takeover_fenced : Records 500 ⟨300000000⟩ ⟨300000000⟩ takeover takenOver ∧
    Fenced 500 ⟨300000000⟩ takeover takenOver ∧ Held takeover "run" "bob" ⟨300000000, none⟩ ∧
    ¬ Succeeds (.saveRun contendedRun "ada") takenOver := by
  have hrecords : Records 500 ⟨300000000⟩ ⟨300000000⟩ takeover takenOver :=
    records_held.next (.of_none rfl)
      (.served (.store (.acquireRun "run" "bob" ⟨300000000, none⟩) _))
      (by rintro _ _ _ ⟨⟩ _; exact ⟨_, rfl⟩)
  have hheld : Held takeover "run" "bob" ⟨300000000, none⟩ := held_of_acquired.mpr ⟨rfl, rfl⟩
  refine ⟨hrecords, hrecords.fenced, hheld, fun hsave => ?_⟩
  obtain ⟨since, hada⟩ := (hrecords.fenced.save _ contendedRun_isShallow "ada" _ _
    (.served (.store _ _))).mp (isOk_eq_true_iff.mpr hsave)
  have howner := (hada.lastAcquired.unique hheld.lastAcquired).1
  exact absurd howner (by decide)

def buriedRun : Run := { contendedRun with id := "deep", payload := .nested 600 }

theorem buriedRun_deep {m : MemoryStore} : m.copiesBeyond 500 (.createRun buriedRun) = true :=
  copiesBeyond_of_deep (List.mem_singleton_self _) (by simp [buriedRun, Fields.height_nested])

/-- An instant with a zone cannot be compared with the end of a lock that was taken without one; and
a run that cannot be copied is stored before its copy fails. -/
theorem not_always_refused : Records 500 ⟨300000000⟩ ⟨300000000⟩ grasp held ∧
    (∃ (call : StoreCall) (e : Fault) (s' : Stored MemoryStore), ¬ call.IsAside ∧
      call.IsShallow 500 ∧ ServedWithin 500 (.store call) held (.error e) s' ∧ ¬ e.RefusesRun) ∧
    ∃ (r : Run) (e : Fault) (s' : Stored MemoryStore), held.data.runs.get? r.id = none ∧
      ServedWithin 500 (.store (.createRun r)) held (.error e) s' ∧ ¬ e.RefusesRun ∧
      s'.data.Stores r := by
  have hzoned : ServedWithin 500 (.store (.acquireRun "run" "bob" ⟨0, some 0⟩)) held
      (.error .mixedZones) held := .served (.store _ _)
  have hburied : ServedWithin 500 (.store (.createRun buriedRun)) held (.error .tooDeep) _ :=
    servedWithin_tooDeep buriedRun_deep (writeRun_run buriedRun held)
  exact ⟨records_held, ⟨_, .mixedZones, held, id, .of_none rfl, hzoned, id⟩,
    buriedRun, .tooDeep, _, rfl, hburied, id, stores_putRun⟩

end MemoryStore

end FunnelFlow
