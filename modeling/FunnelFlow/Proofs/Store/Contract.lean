import FunnelFlow.Proofs.Store.Fencing
import FunnelFlow.Proofs.Store.Mirror

/-!
The contract that both stores keep. From the same calls on, both give the same answers and refuse
the same calls, as long as the database keeps what it is given as it is and nothing is asked for
that one of the two cannot do: funnels have ids, runs are created under fresh ones and can be
copied, times are without a zone, and the times of locks stay inside the calendar.
-/

namespace FunnelFlow

namespace StoreCall

/-- The same answer. Lists of funnels and of runs may differ in their order. -/
def SameAnswer : (call : StoreCall) → call.Answer → call.Answer → Prop
  | .listFunnels => fun fs gs : List Funnel => fs.Perm gs
  | .listRuns _ => fun rs rs' : List Run => rs.Perm rs'
  | _ => Eq

/-- What is asked for can be done by both stores, the one in memory being as it is. Triggers and
statuses are asked for by their names. -/
def IsFair (m : MemoryStore) : StoreCall → Prop
  | .saveFunnel f => f.IsKeepable
  | .activeFunnels trigger => ∃ t : Trigger, trigger = t.name
  | .lockFunnel _ _ now => now.zone = none ∧ ∃ expired, now.minus m.funnelTtl = .ok expired
  | .createRun r => r.IsNaive ∧ m.runs.get? r.id = none
  | .listRuns filter => ∀ name, filter.status = some name → ∃ s : RunStatus, name = s.name
  | .dueRuns now limit =>
    now.zone = none ∧ (∃ expired, now.minus m.runTtl = .ok expired) ∧ 1 ≤ limit
  | .acquireRun _ _ now => now.zone = none ∧ ∃ expired, now.minus m.runTtl = .ok expired
  | .saveRun r _ | .releaseRun r _ => r.IsNaive
  | _ => True

end StoreCall

/-- The locks that are taken out run out inside the calendar. -/
structure MemoryStore.LocksEnd (m : MemoryStore) : Prop where
  runs : ∀ id lock, m.runLocks.get? id = some lock →
    ∃ t, lock.acquiredAt.plus m.runTtl = .ok t
  funnels : ∀ id lock, m.funnelLocks.get? id = some lock →
    ∃ t, lock.acquiredAt.plus m.funnelTtl = .ok t

/-- The two stores after the same fair calls; both were empty before the first. What is written can
be copied. -/
inductive InStep (levels : Nat) (runTtl funnelTtl : Span) :
    Stored MemoryStore → Stored Database → Prop
  | empty (ids ids' : IdSupply) (address : String) :
    InStep levels runTtl funnelTtl ⟨ids, .empty runTtl funnelTtl⟩
      ⟨ids', ⟨runTtl, funnelTtl, address, false, .empty .exactly⟩⟩
  | next {m m' : Stored MemoryStore} {d : Stored Database} {call : StoreCall}
    {result : Except Fault call.Answer} (h : InStep levels runTtl funnelTtl m d)
    (hanswered : ServedWithin levels (.store call) m result m') (hfair : call.IsFair m.data)
    (hshallow : call.IsShallow levels) (hends : m'.data.LocksEnd) :
    InStep levels runTtl funnelTtl m' ((Database.answer call).run d).2

theorem Alike.of_ok {α : Type} {x y : Except Fault α} {a : α} (h : Alike Eq x y) (hx : x = .ok a) :
    y = .ok a := by
  cases h with
  | answered h => exact h ▸ hx
  | refused => cases hx

section InStep

variable {levels : Nat} {runTtl funnelTtl : Span} {m m' : Stored MemoryStore}
  {d : Stored Database} {call : StoreCall} {result : Except Fault call.Answer}

theorem Mirrors.empty (runTtl funnelTtl : Span) (address : String) :
    Mirrors (.empty runTtl funnelTtl) ⟨runTtl, funnelTtl, address, false, .empty .exactly⟩ where
  runTtl := rfl
  funnelTtl := rfl
  steady := ⟨rfl, rfl, rfl⟩
  funnels := ⟨[], ⟨rfl, rfl, .nil⟩, by simp⟩
  runs := ⟨[], ⟨rfl, rfl, .nil⟩, by simp, fun _ _ => rfl, by rintro _ _ ⟨⟩⟩
  funnelLocks := ⟨rfl, .nil, by rintro _ ⟨⟩⟩

/-- Asked for the same, two stores that hold the same do the same. -/
theorem Mirrors.answer (h : Mirrors m.data d.data) (hends : m.data.LocksEnd)
    (hfair : call.IsFair m.data) :
    Agree call.SameAnswer ((MemoryStore.answer call).run m) ((Database.answer call).run d) := by
  cases call with
  | saveFunnel f => exact h.saveFunnel hfair
  | getFunnel id => exact h.getFunnel id
  | listFunnels => exact h.listFunnels
  | deleteFunnel id => exact h.deleteFunnel id
  | activeFunnels trigger =>
    obtain ⟨t, rfl⟩ := hfair
    exact h.activeFunnels t
  | lockFunnel id holder now =>
    obtain ⟨hnow, expired, hexpired⟩ := hfair
    exact h.lockFunnel hnow hexpired (hends.funnels id)
  | unlockFunnel id holder => exact h.unlockFunnel id holder
  | createRun r => exact h.createRun hfair.1 hfair.2
  | getRun id => exact h.getRun id
  | listRuns filter => exact h.listRuns hfair
  | dueRuns now limit =>
    obtain ⟨hnow, ⟨expired, hexpired⟩, hlimit⟩ := hfair
    exact h.dueRuns (h.hasPlainLocks hends.runs) hnow hexpired hlimit
  | acquireRun id owner now =>
    obtain ⟨hnow, expired, hexpired⟩ := hfair
    exact h.acquireRun (h.hasPlainLocks hends.runs) hnow hexpired id owner
  | saveRun r owner => exact h.saveRun hfair owner
  | releaseRun r owner => exact h.releaseRun hfair owner
  | close => exact h.close

theorem InStep.isShallow (h : InStep levels runTtl funnelTtl m d) : m.data.IsShallow levels := by
  induction h with
  | empty ids ids' address => exact nofun
  | @next m m' d call result _ hanswered _ hshallow _ ih =>
    obtain ⟨_, rfl⟩ := hanswered.store_eq ih hshallow
    exact ih.changes (MemoryStore.answer_changes call m) hshallow

theorem InStep.mirrors (h : InStep levels runTtl funnelTtl m d) :
    Mirrors m.data d.data ∧ m.data.LocksEnd := by
  induction h with
  | empty ids ids' address =>
    exact ⟨.empty runTtl funnelTtl address, by rintro _ _ ⟨⟩, by rintro _ _ ⟨⟩⟩
  | next h hanswered hfair hshallow hends ih =>
    obtain ⟨_, rfl⟩ := hanswered.store_eq h.isShallow hshallow
    exact ⟨(ih.1.answer ih.2 hfair).mirrors, hends⟩

/-- After any calls, the next one is answered the same by both stores, or it is refused by both with
the same kind of refusal and the same status. -/
theorem InStep.answered_alike (h : InStep levels runTtl funnelTtl m d)
    (hanswered : ServedWithin levels (.store call) m result m') (hfair : call.IsFair m.data)
    (hshallow : call.IsShallow levels) :
    Alike call.SameAnswer result ((Database.answer call).run d).1 := by
  obtain ⟨rfl, _⟩ := hanswered.store_eq h.isShallow hshallow
  exact (h.mirrors.1.answer h.mirrors.2 hfair).alike

end InStep

/-- Two workers want one run: the second is refused by both stores. -/
theorem contended_answered_alike : ∃ m d, InStep 500 ⟨300000000⟩ ⟨900000000⟩ m d ∧
    StoreCall.IsFair m.data (.acquireRun "run" "bob" ⟨1000000001, none⟩) ∧
    (StoreCall.acquireRun "run" "bob" ⟨1000000001, none⟩).IsShallow 500 ∧
    ServedWithin 500 (.store (.acquireRun "run" "bob" ⟨1000000001, none⟩)) m
      (.error (.runLocked "run")) m ∧
    Alike (StoreCall.SameAnswer (.acquireRun "run" "bob" ⟨1000000001, none⟩))
      (.error (.runLocked "run"))
      ((Database.answer (.acquireRun "run" "bob" ⟨1000000001, none⟩)).run d).1 := by
  have hempty : InStep 500 ⟨300000000⟩ ⟨900000000⟩ _ _ := .empty .first .first ""
  have hcreated := hempty.next (.served (.store (.createRun MemoryStore.contendedRun) _))
    ⟨⟨⟨by rintro _ ⟨⟩, by rintro _ ⟨⟩⟩, by rintro _ ⟨⟩⟩, rfl⟩
    (.of_run rfl MemoryStore.contendedRun_isShallow)
    ⟨by rintro _ _ ⟨⟩, by rintro _ _ ⟨⟩⟩
  have hacquired := hcreated.next
    (.served (.store (.acquireRun "run" "ada" ⟨1000000000, none⟩) _)) ⟨rfl, _, rfl⟩
    (.of_none rfl) <| by
      refine ⟨fun id lock hlock => ?_, by rintro _ _ ⟨⟩⟩
      have hada : ("run", (⟨"ada", ⟨1000000000, none⟩⟩ : Lock)) = (id, lock) :=
        (List.mem_singleton.mp (Table.mem_of_get? hlock)).symm
      cases hada
      exact ⟨_, rfl⟩
  refine ⟨_, _, hacquired, ⟨rfl, _, rfl⟩, .of_none rfl, .served (.store _ _), ?_⟩
  exact hacquired.answered_alike (.served (.store _ _)) ⟨rfl, _, rfl⟩ (.of_none rfl)

/-- A run that cannot be copied is created in both stores, but only the database says so. -/
theorem not_always_answered_alike : ∃ m d, InStep 500 ⟨300000000⟩ ⟨900000000⟩ m d ∧
    StoreCall.IsFair m.data (.createRun MemoryStore.buriedRun) ∧
    (∃ m', ServedWithin 500 (.store (.createRun MemoryStore.buriedRun)) m (.error .tooDeep) m' ∧
      m'.data.Stores MemoryStore.buriedRun) ∧
    ((Database.answer (.createRun MemoryStore.buriedRun)).run d).1 =
      .ok MemoryStore.buriedRun ∧
    ¬ Alike (StoreCall.SameAnswer (.createRun MemoryStore.buriedRun)) (.error .tooDeep)
      ((Database.answer (.createRun MemoryStore.buriedRun)).run d).1 := by
  have hempty : InStep 500 ⟨300000000⟩ ⟨900000000⟩ _ _ := .empty .first .first ""
  have hfair : StoreCall.IsFair (.empty ⟨300000000⟩ ⟨900000000⟩)
      (.createRun MemoryStore.buriedRun) :=
    ⟨⟨⟨by rintro _ ⟨⟩, by rintro _ ⟨⟩⟩, by rintro _ ⟨⟩⟩, rfl⟩
  have hwrite := MemoryStore.writeRun_run MemoryStore.buriedRun
    ⟨.first, .empty ⟨300000000⟩ ⟨900000000⟩⟩
  have hdatabase := (hempty.mirrors.1.answer hempty.mirrors.2 hfair).alike
  have hkept : ((Database.answer (.createRun MemoryStore.buriedRun)).run _).1 =
      .ok MemoryStore.buriedRun := hdatabase.of_ok (congrArg Prod.fst hwrite)
  refine ⟨_, _, hempty, hfair, ⟨_, servedWithin_tooDeep MemoryStore.buriedRun_deep hwrite,
    MemoryStore.stores_putRun⟩, hkept, ?_⟩
  rw [hkept]
  exact nofun

end FunnelFlow
