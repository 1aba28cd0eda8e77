import FunnelFlow.Proofs.Activity

namespace FunnelFlow

structure LogEntry where
  request : Request
  answer : request.Answer

abbrev Log := List LogEntry

def Request.isOutbound : Request → Bool
  | .post .. | .read _ => true
  | _ => false

/-- The run that was written while its lock was held on. -/
def LogEntry.saved? : LogEntry → Option Run
  | ⟨.store (.saveRun r _), .ok _⟩ => some r
  | _ => none

def LogEntry.definition? : LogEntry → Option Funnel
  | ⟨.store (.getFunnel _), .ok found⟩ => found
  | _ => none

namespace Log

variable {log log' : Log}

def outbound (log : Log) : List Request := (log.map (·.request)).filter Request.isOutbound

def saved (log : Log) : List Run := log.filterMap LogEntry.saved?

def definition? (log : Log) : Option Funnel := log.findSome? LogEntry.definition?

@[simp] theorem outbound_nil : outbound [] = [] := rfl

@[simp] theorem outbound_append : outbound (log ++ log') = outbound log ++ outbound log' := by
  simp [outbound]

@[simp] theorem saved_nil : saved [] = [] := rfl

@[simp] theorem saved_append : saved (log ++ log') = saved log ++ saved log' := by
  simp [saved]

/-- A run that was written was not written in a part that wrote none. -/
theorem exists_of_append {front before after : Log} {written : LogEntry} {r : Run}
    (hfront : front.saved = []) (hwritten : written.saved? = some r)
    (h : front ++ log = before ++ written :: after) :
    ∃ rest, before = front ++ rest ∧ log = rest ++ written :: after := by
  rcases List.append_eq_append_iff.mp h with ⟨rest, hbefore, hlog⟩ | ⟨rest, hrest, hlog⟩
  · exact ⟨rest, hbefore, hlog⟩
  · cases rest with
    | nil => exact ⟨[], by simpa using hrest.symm, hlog.symm⟩
    | cons e rest =>
      obtain ⟨rfl, _⟩ := List.cons.inj hlog
      simp [hrest, saved, hwritten] at hfront

end Log

namespace Activity

variable {α β : Type} {act : Activity α} {s s' : Stored MemoryStore} {log : Log}

/-- The activity can end with this result and in this store, and leave this log. -/
inductive Logged : Activity α → Stored MemoryStore → Log → Except Fault α → Stored MemoryStore → Prop
  | done (result : Except Fault α) (s : Stored MemoryStore) : Logged (.done result) s [] result s
  | ask {r : Request} {resume : r.Answer → Activity α} {a : r.Answer}
    {s s' s'' : Stored MemoryStore} {log : Log} {result : Except Fault α}
    (hserved : Served r s a s') (hrest : Logged (resume a) s' log result s'') :
    Logged (.ask r resume) s (⟨r, a⟩ :: log) result s''

def logIn (answer : (r : Request) → Stored MemoryStore → r.Answer × Stored MemoryStore) :
    Activity α → Stored MemoryStore → Log
  | .done _, _ => []
  | .ask r resume, s => ⟨r, (answer r s).1⟩ :: (resume (answer r s).1).logIn answer (answer r s).2

theorem logged_run {answer : (r : Request) → Stored MemoryStore → r.Answer × Stored MemoryStore}
    (hanswer : ∀ r s, Served r s (answer r s).1 (answer r s).2) (act : Activity α)
    (s : Stored MemoryStore) :
    act.Logged s (act.logIn answer s) (act.run answer s).1 (act.run answer s).2 := by
  induction act generalizing s with
  | done result => exact .done result s
  | ask r resume ih => exact .ask (hanswer r s) (ih _ _)

namespace Logged

theorem of_finish {r result : Except Fault α} (h : (finish r).Logged s log result s') :
    log = [] ∧ result = r ∧ s' = s := by
  cases h
  exact ⟨rfl, rfl, rfl⟩

theorem of_pure {a : α} {result : Except Fault α} (h : (pure a : Activity α).Logged s log result s') :
    log = [] ∧ result = .ok a ∧ s' = s := of_finish h

theorem of_finish_bind {r : Except Fault α} {next : α → Activity β} {result : Except Fault β}
    (h : (finish r >>= next).Logged s log result s') :
    (∃ a, r = .ok a ∧ (next a).Logged s log result s') ∨
      ∃ e, r = .error e ∧ log = [] ∧ result = .error e ∧ s' = s := by
  cases r with
  | ok a => exact .inl ⟨a, rfl, h⟩
  | error e =>
    cases h
    exact .inr ⟨e, rfl, rfl, rfl, rfl⟩

/-- What is asked of others than the store leaves the store alone. -/
theorem of_request_bind {r : Request} (hr : ∀ call, r ≠ .store call) {next : r.Answer → Activity β}
    {result : Except Fault β} (h : (request r >>= next).Logged s log result s') :
    ∃ a rest, log = ⟨r, a⟩ :: rest ∧ (next a).Logged s rest result s' := by
  cases h with
  | ask hserved hrest =>
    cases hserved with
    | store call => exact absurd rfl (hr call)
    | outside => exact ⟨_, _, rfl, hrest⟩

theorem of_token_bind {next : String → Activity β} {result : Except Fault β}
    (h : (token >>= next).Logged s log result s') :
    ∃ (t : String) (rest : Log), log = ⟨.token, t⟩ :: rest ∧ (next t).Logged s rest result s' :=
  of_request_bind (by rintro _ ⟨⟩) h

theorem of_store {call : StoreCall} {result : Except Fault call.Answer}
    (h : (store call).Logged s log result s') :
    log = [⟨.store call, result⟩] ∧ (MemoryStore.answer call).run s = (result, s') := by
  cases h with
  | ask hserved hrest =>
    cases hrest
    cases hserved with
    | store => exact ⟨rfl, rfl⟩
    | outside hr => exact absurd rfl (hr call)

/-- A part that ends with a fault ends the whole. -/
theorem of_bind {next : α → Activity β} {result : Except Fault β}
    (h : (act >>= next).Logged s log result s') :
    (∃ e, act.Logged s log (.error e) s' ∧ result = .error e) ∨
      ∃ a s₁ log₁ log₂, act.Logged s log₁ (.ok a) s₁ ∧ (next a).Logged s₁ log₂ result s' ∧
        log = log₁ ++ log₂ := by
  induction act generalizing s log with
  | done mid =>
    cases mid with
    | ok a => exact .inr ⟨a, s, [], log, .done _ s, h, rfl⟩
    | error e =>
      cases h
      exact .inl ⟨e, .done _ _, rfl⟩
  | ask r resume ih =>
    cases h with
    | ask hserved hrest =>
      rcases ih _ hrest with ⟨e, hact, hresult⟩ | ⟨a, s₁, log₁, log₂, hact, hnext, rfl⟩
      · exact .inl ⟨e, .ask hserved hact, hresult⟩
      · exact .inr ⟨a, s₁, _, log₂, .ask hserved hact, hnext, rfl⟩

theorem of_store_bind {call : StoreCall} {next : call.Answer → Activity β} {a : call.Answer}
    {s₁ : Stored MemoryStore} {result : Except Fault β}
    (h : (store call >>= next).Logged s log result s')
    (hanswer : (MemoryStore.answer call).run s = (.ok a, s₁)) :
    ∃ rest, log = ⟨.store call, .ok a⟩ :: rest ∧ (next a).Logged s₁ rest result s' := by
  rcases h.of_bind with ⟨e, hstore, _⟩ | ⟨a', s₂, log₁, log₂, hstore, hnext, rfl⟩
  · obtain ⟨_, hfault⟩ := hstore.of_store
    cases hanswer.symm.trans hfault
  · obtain ⟨rfl, hanswer'⟩ := hstore.of_store
    cases hanswer.symm.trans hanswer'
    exact ⟨log₂, rfl, hnext⟩

theorem of_store_bind_error {call : StoreCall} {next : call.Answer → Activity β} {e : Fault}
    {s₁ : Stored MemoryStore} {result : Except Fault β}
    (h : (store call >>= next).Logged s log result s')
    (hanswer : (MemoryStore.answer call).run s = (.error e, s₁)) :
    log = [⟨.store call, .error e⟩] ∧ result = .error e ∧ s' = s₁ := by
  rcases h.of_bind with ⟨e', hstore, rfl⟩ | ⟨a, s₂, log₁, log₂, hstore, _, rfl⟩
  · obtain ⟨rfl, hfault⟩ := hstore.of_store
    cases hanswer.symm.trans hfault
    exact ⟨rfl, rfl, rfl⟩
  · obtain ⟨_, hok⟩ := hstore.of_store
    cases hanswer.symm.trans hok

theorem of_attempt {result : Except Fault (Except Fault α)}
    (h : act.attempt.Logged s log result s') :
    ∃ mid, act.Logged s log mid s' ∧ result = .ok mid := by
  induction act generalizing s log with
  | done mid =>
    cases h
    exact ⟨mid, .done mid _, rfl⟩
  | ask r resume ih =>
    cases h with
    | ask hserved hrest =>
      obtain ⟨mid, hact, hresult⟩ := ih _ hrest
      exact ⟨mid, .ask hserved hact, hresult⟩

/-- An activity that is attempted does not end what comes after it. -/
theorem of_attempt_bind {next : Except Fault α → Activity β} {result : Except Fault β}
    (h : (act.attempt >>= next).Logged s log result s') :
    ∃ mid s₁ log₁ log₂, act.Logged s log₁ mid s₁ ∧ (next mid).Logged s₁ log₂ result s' ∧
      log = log₁ ++ log₂ := by
  rcases h.of_bind with ⟨e, hact, _⟩ | ⟨answer, s₁, log₁, log₂, hact, hnext, rfl⟩
  · obtain ⟨_, _, hfault⟩ := hact.of_attempt
    cases hfault
  · obtain ⟨mid, hact, hmid⟩ := hact.of_attempt
    obtain rfl := Except.ok.inj hmid
    exact ⟨_, s₁, log₁, log₂, hact, hnext, rfl⟩

theorem of_map {f : α → β} {result : Except Fault β}
    (h : (act >>= fun a => pure (f a)).Logged s log result s') :
    ∃ mid, act.Logged s log mid s' ∧ result = mid.map f := by
  rcases h.of_bind with ⟨e, hact, rfl⟩ | ⟨a, s₁, log₁, log₂, hact, hdone, rfl⟩
  · exact ⟨.error e, hact, rfl⟩
  · obtain ⟨rfl, rfl, rfl⟩ := hdone.of_pure
    exact ⟨.ok a, by rwa [List.append_nil], rfl⟩

/-- Wrapping a fault asks for nothing. -/
theorem of_during {task : Undertaking} {result : Except Fault α}
    (h : (during task act).Logged s log result s') :
    ∃ mid, act.Logged s log mid s' ∧
      result = mid.mapError fun e => if e.isRefusal then e else .failedWhile task e := by
  induction act generalizing s log with
  | done mid => cases mid <;> cases h <;> exact ⟨_, .done _ _, rfl⟩
  | ask r resume ih =>
    cases h with
    | ask hserved hrest =>
      obtain ⟨mid, hact, hresult⟩ := ih _ hrest
      exact ⟨mid, .ask hserved hact, hresult⟩

end Logged

end Activity

end FunnelFlow
