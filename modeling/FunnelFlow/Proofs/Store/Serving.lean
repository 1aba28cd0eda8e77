import FunnelFlow.Store.Database
import FunnelFlow.Proofs.Store.Work

namespace FunnelFlow

structure Server.IsSteady (s : Server) : Prop where
  keeping : s.keeping = .exactly
  outage : s.outage = none
  refusesClients : s.refusesClients = false

theorem Server.IsSteady.congr {s s' : Server} (h : s.IsSteady) (hkeeping : s'.keeping = s.keeping)
    (houtage : s'.outage = s.outage) (hrefuses : s'.refusesClients = s.refusesClients) :
    s'.IsSteady :=
  ⟨hkeeping.trans h.keeping, houtage.trans h.outage, hrefuses.trans h.refusesClients⟩

def Server.failure? (s : Server) : Option OutageKind := s.outage.bind (·.next.1)

def Server.called (s : Server) : Server := { s with outage := s.outage.map (·.next.2) }

namespace Database

open StoreM

variable {α : Type} {d : Stored Database}

def Opens (db : Database) : Prop := db.isOpen = true ∨ db.server.refusesClients = false

def connected (db : Database) : Database :=
  if db.isOpen then db
  else { db with isOpen := true, server.opened := db.server.opened ++ [db.address] }

def withServer (db : Database) (server : Server) : Database := { db with server }

@[simp] theorem withServer_server (db : Database) (server : Server) :
    (db.withServer server).server = server := rfl

theorem failure?_connected (db : Database) :
    db.connected.server.failure? = db.server.failure? := by
  unfold connected
  split <;> rfl

theorem run_current_bind (next : Server → Work α) (d : Stored Database) :
    (current >>= next).run d = (next d.data.server).run d := run_bind current next d

theorem run_setServer_bind (server : Server) (next : Unit → Work α) (d : Stored Database) :
    (setServer server >>= next).run d =
      (next ()).run { d with data := d.data.withServer server } :=
  run_bind (setServer server) next d

theorem run_connect (h : d.data.Opens) :
    connect.run d = (.ok (), { d with data := d.data.connected }) := by
  rw [connect, run_data_bind, connected]
  cases hopen : d.data.isOpen with
  | true => rfl
  | false =>
    have hrefuses : d.data.server.refusesClients = false :=
      h.resolve_left (by rw [hopen]; exact Bool.false_ne_true)
    simp only [Bool.not_false, if_true, run_setData_bind, hrefuses]
    rfl

theorem run_connect_of_refused (h : ¬ d.data.Opens) :
    ∃ d', connect.run d = (.error .noClient, d') := by
  obtain ⟨hopen, hrefuses⟩ := not_or.mp h
  rw [Bool.not_eq_true] at hopen
  rw [Bool.not_eq_false] at hrefuses
  rw [connect, run_data_bind, hopen]
  simp only [Bool.not_false, if_true, run_setData_bind, hrefuses]
  exact ⟨_, rfl⟩

theorem run_operation (h : d.data.Opens) (work : Work α) :
    (operation work).run d = match work.run { d with data := d.data.connected } with
      | (.ok a, d') => (.ok a, d')
      | (.error e, d') => (.error (report e), d') := by
  rw [operation, run_bind, run_connect h]
  dsimp only
  rw [run_tryCatch]
  rcases work.run { d with data := d.data.connected } with ⟨r, d'⟩
  cases r <;> rfl

theorem run_operation_eq_ok_iff {work : Work α} {a : α} {d' : Stored Database} :
    (operation work).run d = (.ok a, d') ↔
      d.data.Opens ∧ work.run { d with data := d.data.connected } = (.ok a, d') := by
  by_cases h : d.data.Opens
  · rw [run_operation h, and_iff_right h]
    rcases work.run { d with data := d.data.connected } with ⟨r, d₁⟩
    cases r with
    | ok a => exact .rfl
    | error e => exact iff_of_false nofun nofun
  · obtain ⟨d₁, hconnect⟩ := run_connect_of_refused h
    rw [operation, run_bind, hconnect]
    exact iff_of_false nofun fun h' => h h'.1

theorem run_call_eq (d : Stored Database) : call.run d =
    (match d.data.server.failure? with
      | none => .ok ()
      | some kind => .error (.outage kind),
      { d with data := d.data.withServer d.data.server.called }) := by
  obtain ⟨ids, runTtl, funnelTtl, address, isOpen,
    ⟨keeping, funnels, runs, funnelLocks, outage, refuses, opened, closed⟩⟩ := d
  rw [call, run_current_bind]
  cases outage with
  | none => rfl
  | some outage =>
    dsimp only
    rw [run_setServer_bind]
    rcases hnext : outage.next with ⟨failure, rest⟩
    cases failure <;> simp [Server.failure?, Server.called, hnext] <;> rfl

theorem run_call_bind_eq (next : Unit → Work α) (d : Stored Database) : (call >>= next).run d =
    match d.data.server.failure? with
    | none => (next ()).run { d with data := d.data.withServer d.data.server.called }
    | some kind =>
      (.error (.outage kind), { d with data := d.data.withServer d.data.server.called }) := by
  rw [run_bind, run_call_eq]
  cases d.data.server.failure? <;> rfl

theorem run_call_bind_eq_ok_iff {next : Unit → Work α} {a : α} {d' : Stored Database} :
    (call >>= next).run d = (.ok a, d') ↔ d.data.server.failure? = none ∧
      (next ()).run { d with data := d.data.withServer d.data.server.called } = (.ok a, d') := by
  rw [run_call_bind_eq]
  cases d.data.server.failure? with
  | none => simp
  | some kind => exact iff_of_false nofun nofun

theorem run_keptInstant_bind_eq (t : Instant) (next : Instant → Work α) (d : Stored Database) :
    (keptInstant t >>= next).run d = match d.data.server.keeping.instant t with
      | .ok kept => (next kept).run d
      | .error e => (.error e, d) := by
  rw [run_bind, keptInstant, run_current_bind]
  cases d.data.server.keeping.instant t <;> rfl

theorem run_keptInstant_bind_eq_ok_iff {t : Instant} {next : Instant → Work α} {a : α}
    {d' : Stored Database} : (keptInstant t >>= next).run d = (.ok a, d') ↔
      ∃ kept, d.data.server.keeping.instant t = .ok kept ∧ (next kept).run d = (.ok a, d') := by
  rw [run_keptInstant_bind_eq]
  cases d.data.server.keeping.instant t with
  | ok kept => simp
  | error e => exact iff_of_false nofun (by rintro ⟨_, ⟨⟩, _⟩)

theorem opens_of_isSteady {db : Database} (h : db.server.IsSteady) : db.Opens := .inr h.refusesClients

section Steady

variable (h : d.data.server.IsSteady)
include h

theorem run_call : call.run d = (.ok (), d) := by
  rw [call, run_current_bind, h.outage]
  rfl

theorem run_call_bind (next : Unit → Work α) : (call >>= next).run d = (next ()).run d := by
  rw [run_bind, run_call h]

theorem run_keptRow_bind (row : Fields) (next : Fields → Work α) :
    (keptRow row >>= next).run d = (next row).run d := by
  have hkept : (keptRow row).run d = (.ok row, d) := by
    rw [keptRow, run_current_bind, h.keeping]
    rfl
  rw [run_bind, hkept]

theorem run_keptInstant_bind (t : Instant) (next : Instant → Work α) :
    (keptInstant t >>= next).run d = (next t).run d := by
  rw [run_keptInstant_bind_eq, h.keeping]
  rfl

end Steady

end Database

end FunnelFlow
