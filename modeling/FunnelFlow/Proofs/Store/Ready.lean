import FunnelFlow.Store.Backend
import FunnelFlow.Proofs.Store.Collection
import FunnelFlow.Proofs.Store.Due
import FunnelFlow.Proofs.Store.Serving

/-!
The runs that a store gives out as due, whatever it holds: the first that are ready, in the order of
the store. Nothing is assumed of documents, locks and instants: the query is answered exactly if
each run that it looks at can be told to be ready or not. A store in memory is looked through up to
the limit, a collection of the database as a whole.
-/

namespace FunnelFlow

namespace Run

variable {fields : Fields} {id fresh : String} {document : Value} {now : Instant} {r : Run}

theorem readFields_withId (h : readFields fields (.ok id) = .ok r) (id' : String) :
    readFields fields (.ok id') = .ok { r with id := id' } := by
  simp only [readFields, Checked.seq_eq_ok_iff, Checked.map_eq_ok_iff,
    Checked.within_eq_ok_iff] at h
  obtain ⟨_, _, ⟨_, _, ⟨_, _, ⟨_, _, ⟨_, _, ⟨_, _, ⟨_, _, ⟨_, _, ⟨_, _, ⟨_, _, ⟨_, _, ⟨_, _, rfl⟩,
    h₁, rfl⟩, h₂, rfl⟩, h₃, rfl⟩, h₄, rfl⟩, h₅, rfl⟩, h₆, rfl⟩, h₇, rfl⟩, h₈, rfl⟩, h₉, rfl⟩, h₁₀,
    rfl⟩, h₁₁, rfl⟩ := h
  simp [readFields, *]

/-- Whether a document is that of a run whose time has come. It may lack an id. -/
def isDueIn (document : Value) (now : Instant) : Bool :=
  match (ofDocument document).result "" with
  | .ok r => (r.isDue now).toOption == some true
  | .error _ => false

theorem exists_result (h : (ofDocument document).result fresh = .ok r) (fresh' : String) :
    ∃ id, (ofDocument document).result fresh' = .ok { r with id } := by
  cases document with
  | object fields =>
    simp only [ofDocument, Reading.ofChecked] at h ⊢
    split at h
    · next run hfields =>
      obtain rfl : run = r := Except.ok.inj h
      cases hid : Table.get? fields "id" with
      | none =>
        rw [hid] at hfields
        exact ⟨fresh', by simp [readFields_withId hfields]⟩
      | some v =>
        rw [hid] at hfields
        exact ⟨run.id, by simp_all⟩
    · cases h
  | _ => cases h

theorem isDueIn_eq {due : Bool} (h : (ofDocument document).result fresh = .ok r)
    (hdue : r.isDue now = .ok due) : isDueIn document now = due := by
  obtain ⟨id, hread⟩ := exists_result h ""
  -- whether a run is due does not depend on its id
  have hdue' : { r with id }.isDue now = .ok due := hdue
  rw [isDueIn, hread]
  dsimp only
  rw [hdue']
  cases due <;> rfl

/-- There is telling whether a document is that of a run whose time has come. -/
def TellsDue (document : Value) (now : Instant) : Prop :=
  ∃ r due, (ofDocument document).result "" = .ok r ∧ r.isDue now = .ok due

theorem tellsDue_of_result {due : Bool} (h : (ofDocument document).result fresh = .ok r)
    (hdue : r.isDue now = .ok due) : TellsDue document now := by
  obtain ⟨id, hread⟩ := exists_result h ""
  exact ⟨_, due, hread, hdue⟩

theorem TellsDue.exists_isDue (h : TellsDue document now) (fresh : String) :
    ∃ r due, (ofDocument document).result fresh = .ok r ∧ r.isDue now = .ok due := by
  obtain ⟨r, due, hread, hdue⟩ := h
  obtain ⟨id, hread'⟩ := exists_result hread fresh
  exact ⟨_, due, hread', hdue⟩

end Run

namespace MemoryStore

open StoreM

variable {m : MemoryStore} {s s' : Stored MemoryStore} {now : Instant} {limit : Int}
  {found ids : List String} {entry : String × Value} {entries : Table Value}

def isReadyEntry (m : MemoryStore) (now : Instant) (entry : String × Value) : Bool :=
  (m.isLocked entry.1 now).toOption == some false && Run.isDueIn entry.2 now

def readyIds (m : MemoryStore) (now : Instant) : List String :=
  (m.runs.filter (m.isReadyEntry now)).map (·.1)

/-- There is telling whether an entry is ready: its lock can be judged, and, unless that holds, its
document. -/
def Tells (m : MemoryStore) (now : Instant) (entry : String × Value) : Prop :=
  ∃ locked, m.isLocked entry.1 now = .ok locked ∧ (locked = false → Run.TellsDue entry.2 now)

/-- There is telling of each entry that stands behind fewer ready ones than the limit. -/
def TellsUpTo (m : MemoryStore) (now : Instant) (limit : Nat) (entries : Table Value) : Prop :=
  ∀ front entry back, entries = front ++ entry :: back →
    front.countP (m.isReadyEntry now) < limit → m.Tells now entry

theorem tellsUpTo_zero (entries : Table Value) : m.TellsUpTo now 0 entries :=
  fun _ _ _ _ hcount => absurd hcount (Nat.not_lt_zero _)

theorem tellsUpTo_cons {n : Nat} :
    m.TellsUpTo now (n + 1) (entry :: entries) ↔ m.Tells now entry ∧
      m.TellsUpTo now (if m.isReadyEntry now entry then n else n + 1) entries := by
  constructor
  · intro h
    refine ⟨h [] entry entries rfl (Nat.succ_pos n), fun front e back hentries hcount => ?_⟩
    apply h (entry :: front) e back (by rw [hentries, List.cons_append])
    rw [List.countP_cons]
    split at hcount <;> simp_all
  · rintro ⟨hentry, hrest⟩ front e back hentries hcount
    cases front with
    | nil =>
      obtain ⟨rfl, rfl⟩ := List.cons.inj hentries
      exact hentry
    | cons first front =>
      obtain ⟨rfl, rfl⟩ := List.cons.inj hentries
      apply hrest front e back rfl
      rw [List.countP_cons] at hcount
      split <;> simp_all

theorem tells_of_dueFrom (h : (m.dueFrom now limit found (entry :: entries)).run s = (.ok ids, s')) :
    m.Tells now entry := by
  obtain ⟨id, document⟩ := entry
  rw [dueFrom] at h
  obtain ⟨locked, hlocked, h⟩ := run_liftExcept_bind_eq_ok_iff.mp h
  refine ⟨locked, hlocked, ?_⟩
  rintro rfl
  obtain ⟨r, s₁, hread, h⟩ := run_bind_eq_ok h
  obtain ⟨due, hdue, _⟩ := run_liftExcept_bind_eq_ok_iff.mp h
  obtain ⟨fresh, hresult⟩ := run_readRun_eq_ok hread
  exact Run.tellsDue_of_result hresult hdue

/-- One step of the query, at an entry of which there is telling. -/
theorem exists_run_dueFrom_cons (hfound : found.length < limit) (htells : m.Tells now entry)
    (entries : Table Value) (s : Stored MemoryStore) :
    ∃ s₁, (m.dueFrom now limit found (entry :: entries)).run s =
      if m.isReadyEntry now entry then
        if limit ≤ (found ++ [entry.1]).length then (.ok (found ++ [entry.1]), s₁)
        else (m.dueFrom now limit (found ++ [entry.1]) entries).run s₁
      else (m.dueFrom now limit found entries).run s₁ := by
  obtain ⟨id, document⟩ := entry
  obtain ⟨locked, hlocked, htells⟩ := htells
  rw [dueFrom, run_liftExcept_bind, hlocked]
  cases locked with
  | true =>
    have hready : ¬ m.isReadyEntry now (id, document) = true := by
      simp [isReadyEntry, hlocked, Except.toOption]
    exact ⟨s, (if_neg hready).symm⟩
  | false =>
    obtain ⟨fresh, s₁, hrun⟩ := exists_run_readRun (Run.ofDocument document) s
    obtain ⟨r, due, hresult, hdue⟩ := (htells rfl).exists_isDue fresh
    have hread : (readRunDocument document).run s = (.ok r, s₁) := by
      rw [readRunDocument, hrun, hresult]
    have hready : m.isReadyEntry now (id, document) = due := by
      simp [isReadyEntry, hlocked, Except.toOption, Run.isDueIn_eq hresult hdue]
    refine ⟨s₁, ?_⟩
    simp only [Bool.false_eq_true, if_false]
    rw [run_bind, hread]
    dsimp only
    rw [run_liftExcept_bind, hdue, hready]
    cases due with
    | true =>
      simp only [if_true]
      split <;> rfl
    | false =>
      simp only [Bool.false_eq_true, if_false]
      rw [if_neg (by omega)]

theorem dueFrom_eq_ok_iff (hfound : found.length < limit) :
    (∃ s', (m.dueFrom now limit found entries).run s = (.ok ids, s')) ↔
      m.TellsUpTo now (limit.toNat - found.length) entries ∧ ids = found ++
        ((entries.filter (m.isReadyEntry now)).map (·.1)).take (limit.toNat - found.length) := by
  induction entries generalizing found s with
  | nil =>
    have htells : m.TellsUpTo now (limit.toNat - found.length) [] := by simp [TellsUpTo]
    apply exists_ok_eq_iff.trans
    simp [htells]
  | cons entry entries ih =>
    have hmore : limit.toNat - found.length = limit.toNat - (found ++ [entry.1]).length + 1 := by
      rw [List.length_append, List.length_singleton]
      omega
    rw [hmore, tellsUpTo_cons, ← hmore, and_assoc]
    by_cases htells : m.Tells now entry
    · obtain ⟨s₁, hstep⟩ := exists_run_dueFrom_cons hfound htells entries s
      rw [hstep, and_iff_right htells]
      by_cases hready : m.isReadyEntry now entry = true
      · rw [if_pos hready, if_pos hready, List.filter_cons_of_pos hready, List.map_cons, hmore,
          List.take_succ_cons]
        split
        · next hlimit =>
          have hlast : limit.toNat - (found ++ [entry.1]).length = 0 := by omega
          apply exists_ok_eq_iff.trans
          rw [hlast]
          simp [tellsUpTo_zero]
        · next hlimit =>
          rw [ih (by omega), List.append_assoc, List.singleton_append]
      · rw [if_neg hready, if_neg hready, List.filter_cons_of_neg hready]
        exact ih hfound
    · exact iff_of_false (fun ⟨_, h⟩ => htells (tells_of_dueFrom h)) fun h => htells h.1

theorem dueRuns_eq_ok_iff (hlimit : 1 ≤ limit) :
    (∃ s', (dueRuns now limit).run s = (.ok ids, s')) ↔
      s.data.TellsUpTo now limit.toNat s.data.runs ∧
        ids = (s.data.readyIds now).take limit.toNat := by
  have hnone : (([] : List String).length : Int) < limit := by
    rw [List.length_nil]
    omega
  rw [dueRuns, run_data_bind]
  exact dueFrom_eq_ok_iff hnone

end MemoryStore

namespace Collection

theorem find_eq_ok_iff {c rows : Collection} {q : Query} : c.find q = .ok rows ↔
    (∀ row ∈ c, ∃ accepted, q.accepts row = .ok accepted) ∧
      rows = c.filter fun row => (q.accepts row).toOption == some true := by
  have haux (c acc found : Collection)
      (h : List.filterAuxM (fun row => q.accepts row) c acc = .ok found) :
      (∀ row ∈ c, ∃ accepted, q.accepts row = .ok accepted) ∧
        found = (c.filter fun row => (q.accepts row).toOption == some true).reverse ++ acc := by
    induction c generalizing acc with
    | nil =>
      cases h
      exact ⟨by simp, rfl⟩
    | cons row c ih =>
      obtain ⟨accepted, haccepted, h⟩ := except_bind_eq_ok_iff.mp h
      rw [List.forall_mem_cons, and_assoc]
      refine ⟨⟨accepted, haccepted⟩, ?_⟩
      cases accepted with
      | true =>
        rw [List.filter_cons_of_pos (by simp [haccepted, Except.toOption]), List.reverse_cons,
          List.append_assoc]
        exact ih (row :: acc) h
      | false =>
        rw [List.filter_cons_of_neg (by simp [haccepted, Except.toOption])]
        exact ih acc h
  constructor
  · intro h
    rw [find, List.filterM] at h
    obtain ⟨found, hfound, h⟩ := except_bind_eq_ok_iff.mp h
    obtain ⟨hjudged, rfl⟩ := haux c [] found hfound
    refine ⟨hjudged, ?_⟩
    rw [← Except.ok.inj h, List.append_nil, List.reverse_reverse]
  · rintro ⟨hjudged, rfl⟩
    have hfind := @find_map _ id c q fun row => (q.accepts row).toOption == some true
    rw [List.map_id, List.map_id] at hfind
    apply hfind
    intro row hrow
    obtain ⟨accepted, haccepted⟩ := hjudged row hrow
    rw [id, haccepted]
    cases accepted <;> rfl

end Collection

namespace Database

open StoreM

variable {db db' : Database} {d d' : Stored Database} {now : Instant} {limit : Int}
  {ids : List String}

def readyQuery (db : Database) (now : Instant) : Except Fault Query := do
  let expired ← expiry now db.runTtl
  return .both (unlockedBy (← db.server.keeping.instant expired))
    (dueQuery (← db.server.keeping.instant now))

def isReadyRow (db : Database) (now : Instant) (row : Fields) : Bool :=
  ((db.readyQuery now).bind fun q => q.accepts row).toOption == some true

def readyIds (db : Database) (now : Instant) : List String :=
  (db.server.runs.filter (db.isReadyRow now)).map fun row => (Collection.idOf row).display

structure Shows (db db' : Database) : Prop where
  runTtl : db'.runTtl = db.runTtl
  keeping : db'.server.keeping = db.server.keeping
  runs : db'.server.runs = db.server.runs

theorem Shows.refl : db.Shows db := ⟨rfl, rfl, rfl⟩

theorem Shows.trans {db'' : Database} (h : db.Shows db') (h' : db'.Shows db'') : db.Shows db'' :=
  ⟨h'.runTtl.trans h.runTtl, h'.keeping.trans h.keeping, h'.runs.trans h.runs⟩

theorem shows_connected (db : Database) : db.Shows db.connected := by
  unfold connected
  split
  · exact .refl
  · exact ⟨rfl, rfl, rfl⟩

theorem shows_called (db : Database) : db.Shows (db.withServer db.server.called) := ⟨rfl, rfl, rfl⟩

theorem readyQuery_eq_ok_iff {q : Query} : db.readyQuery now = .ok q ↔
    ∃ expired since kept, expiry now db.runTtl = .ok expired ∧
      db.server.keeping.instant expired = .ok since ∧ db.server.keeping.instant now = .ok kept ∧
      q = .both (unlockedBy since) (dueQuery kept) := by
  constructor
  · intro h
    obtain ⟨expired, hexpired, h⟩ := except_bind_eq_ok_iff.mp h
    obtain ⟨since, hsince, h⟩ := except_bind_eq_ok_iff.mp h
    obtain ⟨kept, hkept, h⟩ := except_bind_eq_ok_iff.mp h
    exact ⟨expired, since, kept, hexpired, hsince, hkept, (Except.ok.inj h).symm⟩
  · rintro ⟨expired, since, kept, hexpired, hsince, hkept, rfl⟩
    simp [readyQuery, hexpired, hsince, hkept, bind, Except.bind, pure, Except.pure]

/-- There is telling which runs are ready: the server is reached, and each row can be judged. -/
structure Tells (db : Database) (now : Instant) : Prop where
  opens : db.Opens
  works : db.server.failure? = none
  judges : ∃ q, db.readyQuery now = .ok q ∧
    ∀ row ∈ db.server.runs, ∃ accepted, q.accepts row = .ok accepted

theorem readyIds_eq {q : Query} (h : db.readyQuery now = .ok q) : db.readyIds now =
    (db.server.runs.filter fun row => (q.accepts row).toOption == some true).map fun row =>
      (Collection.idOf row).display := by
  unfold readyIds isReadyRow
  rw [h]
  rfl

theorem dueRuns_eq_ok_iff : (dueRuns now limit).run d = (.ok ids, d') ↔ d.data.Tells now ∧
    ids = (if limit = 0 then d.data.readyIds now else (d.data.readyIds now).take limit.natAbs) ∧
    d' = { d with data := d.data.connected.withServer d.data.connected.server.called } := by
  have hconnected := shows_connected d.data
  have hshows := hconnected.trans (shows_called d.data.connected)
  simp only [dueRuns, run_operation_eq_ok_iff, run_data_bind, run_liftExcept_bind_eq_ok_iff,
    run_call_bind_eq_ok_iff, run_keptInstant_bind_eq_ok_iff, run_current_bind,
    Collection.find_eq_ok_iff, failure?_connected, hconnected.runTtl, hshows.keeping, hshows.runs]
  constructor
  · rintro ⟨hopens, expired, hexpired, hworks, since, hsince, kept, hkept, _, ⟨hjudges, rfl⟩, h⟩
    have hquery : d.data.readyQuery now = .ok (.both (unlockedBy since) (dueQuery kept)) :=
      readyQuery_eq_ok_iff.mpr ⟨expired, since, kept, hexpired, hsince, hkept, rfl⟩
    cases h
    rw [readyIds_eq hquery]
    exact ⟨⟨hopens, hworks, _, hquery, hjudges⟩, rfl, rfl⟩
  · rintro ⟨⟨hopens, hworks, q, hquery, hjudges⟩, rfl, rfl⟩
    rw [readyIds_eq hquery]
    obtain ⟨expired, since, kept, hexpired, hsince, hkept, rfl⟩ := readyQuery_eq_ok_iff.mp hquery
    exact ⟨hopens, expired, hexpired, hworks, since, hsince, kept, hkept, _, ⟨hjudges, rfl⟩, rfl⟩

end Database

namespace Backend

def readyIds (now : Instant) : Backend → List String
  | .memory m => m.data.readyIds now
  | .database d => d.data.readyIds now

def Tells (now : Instant) (limit : Int) : Backend → Prop
  | .memory m => m.data.TellsUpTo now limit.toNat m.data.runs
  | .database d => d.data.Tells now

variable {b : Backend} {now : Instant} {limit : Int} {ids : List String}

theorem answer_database_dueRuns_eq_ok_iff {d : Stored Database} :
    ((database d).answer (.dueRuns now limit)).1 = .ok ids ↔ d.data.Tells now ∧
      ids = if limit = 0 then d.data.readyIds now else (d.data.readyIds now).take limit.natAbs := by
  constructor
  · intro h
    obtain ⟨htells, hids, _⟩ := Database.dueRuns_eq_ok_iff.mp (Prod.ext h rfl)
    exact ⟨htells, hids⟩
  · rintro ⟨htells, hids⟩
    exact congrArg Prod.fst (Database.dueRuns_eq_ok_iff.mpr ⟨htells, hids, rfl⟩)

theorem answer_dueRuns_eq_ok_iff (hlimit : 1 ≤ limit) :
    (b.answer (.dueRuns now limit)).1 = .ok ids ↔
      b.Tells now limit ∧ ids = (b.readyIds now).take limit.toNat := by
  cases b with
  | memory m =>
    refine Iff.trans ⟨fun h => ⟨_, Prod.ext h rfl⟩, ?_⟩ (MemoryStore.dueRuns_eq_ok_iff hlimit)
    rintro ⟨s', h⟩
    exact congrArg Prod.fst h
  | database d =>
    have hsome : ¬ limit = 0 := by omega
    have hnatAbs : limit.natAbs = limit.toNat := by omega
    rw [answer_database_dueRuns_eq_ok_iff, if_neg hsome, hnatAbs]
    exact .rfl

theorem answer_dueRuns_eq_ok (hlimit : 1 ≤ limit)
    (h : (b.answer (.dueRuns now limit)).1 = .ok ids) :
    ids = (b.readyIds now).take limit.toNat :=
  ((answer_dueRuns_eq_ok_iff hlimit).mp h).2

end Backend

end FunnelFlow
