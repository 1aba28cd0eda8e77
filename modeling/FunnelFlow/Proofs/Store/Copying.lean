import FunnelFlow.Store.Copying
import FunnelFlow.Proofs.Activity
import FunnelFlow.Proofs.Store.Calls

/-!
The store in memory when copies can fail. Runs of at most so many levels are copied; nothing is said
of deeper ones. Where no deeper run is copied the store answers as if every copy succeeded.
-/

namespace FunnelFlow

theorem Served.changes {q : Request} {s s' : Stored MemoryStore} {a : q.Answer}
    (h : Served q s a s') :
    s'.data = s.data ∨ ∃ call, q = .store call ∧ s.data.Changes call s'.data := by
  cases h with
  | store call => exact .inr ⟨call, rfl, MemoryStore.answer_changes call s⟩
  | outside => exact .inl rfl

inductive ServedWithin (levels : Nat) :
    (r : Request) → Stored MemoryStore → r.Answer → Stored MemoryStore → Prop
  | served {r : Request} {s s' : Stored MemoryStore} {a : r.Answer} (h : Served r s a s') :
    ServedWithin levels r s a s'
  | uncopied (call : StoreCall) (s : Stored MemoryStore)
    (hdeep : s.data.copiesBeyond levels call = true) :
    ServedWithin levels (.store call) s ((MemoryStore.answerUncopied call).run s).1
      ((MemoryStore.answerUncopied call).run s).2

/-- A run with this payload has few enough levels to be copied. Its history has three of them. -/
def Fields.IsShallow (levels : Nat) (payload : Fields) : Prop :=
  max 3 (Value.object payload).height < levels

instance (levels : Nat) (payload : Fields) : Decidable (payload.IsShallow levels) :=
  inferInstanceAs (Decidable (_ < _))

theorem HistoryEntry.height_toValue (e : HistoryEntry) : e.toValue.height = 2 := by
  obtain ⟨nodeId, enteredAt, outcome, reason⟩ := e
  cases nodeId <;> cases reason <;> rfl

theorem HistoryEntry.itemsHeight_le (entries : List HistoryEntry) :
    Value.itemsHeight (entries.map toValue) ≤ 2 := by
  induction entries with
  | nil => exact Nat.zero_le 2
  | cons e entries ih =>
    rw [List.map_cons, Value.itemsHeight, height_toValue]
    exact Nat.max_le.mpr ⟨Nat.le_refl 2, ih⟩

namespace Run

theorem height_toDocument_le (r : Run) :
    (Value.object r.toDocument).height ≤ max 3 (Value.object r.payload).height + 1 := by
  have hhistory := HistoryEntry.itemsHeight_le r.history
  have hinstant (t? : Option Instant) : (Value.ofInstant? t?).height = 1 := by cases t? <;> rfl
  simp only [toDocument, toFields, Value.height, Value.fieldsHeight, hinstant]
  omega

theorem height_le_of_isShallow {levels : Nat} {r : Run} (h : r.payload.IsShallow levels) :
    (Value.object r.toDocument).height ≤ levels :=
  Nat.le_trans r.height_toDocument_le h

theorem height_payload_lt (r : Run) :
    (Value.object r.payload).height < (Value.object r.toDocument).height := by
  simp only [toDocument, toFields, Value.height, Value.fieldsHeight]
  omega

end Run

def Value.nested : Nat → Value
  | 0 => .null
  | depth + 1 => .list [nested depth]

theorem Value.height_nested (depth : Nat) : (nested depth).height = depth + 1 := by
  induction depth with
  | zero => rfl
  | succ depth ih => simp [nested, height, itemsHeight, ih]

def Fields.nested (depth : Nat) : Fields := [("deep", .nested depth)]

theorem Fields.height_nested (depth : Nat) : (Value.object (nested depth)).height = depth + 2 := by
  simp [nested, Value.height, Value.fieldsHeight, Value.height_nested]

namespace StoreCall

def IsShallow (levels : Nat) (call : StoreCall) : Prop :=
  ∀ r, call.run? = some r → r.payload.IsShallow levels

theorem IsShallow.of_none {levels : Nat} {call : StoreCall} (h : call.run? = none) :
    call.IsShallow levels := by
  intro r hr
  cases h.symm.trans hr

theorem IsShallow.of_run {levels : Nat} {call : StoreCall} {r : Run} (hr : call.run? = some r)
    (h : r.payload.IsShallow levels) : call.IsShallow levels := by
  intro r' hr'
  obtain rfl := Option.some.inj (hr.symm.trans hr')
  exact h

end StoreCall

namespace MemoryStore

variable {m m' : MemoryStore} {s : Stored MemoryStore} {levels : Nat} {call : StoreCall}

def IsShallow (levels : Nat) (m : MemoryStore) : Prop :=
  ∀ entry ∈ m.runs, entry.2.height ≤ levels

theorem IsShallow.changes (h : m.IsShallow levels) (hchanges : m.Changes call m')
    (hcall : call.IsShallow levels) : m'.IsShallow levels := by
  rcases hchanges.runs_eq with hsame | ⟨r, hr, hwritten⟩
  · rwa [IsShallow, hsame]
  · rw [IsShallow, hwritten]
    intro entry hentry
    rcases Table.mem_set hentry with rfl | hentry
    · exact Run.height_le_of_isShallow (hcall r hr)
    · exact h entry hentry

theorem copiesBeyond_eq_false_iff :
    m.copiesBeyond levels call = false ↔ ∀ v ∈ m.copied call, v.height ≤ levels := by
  simp [copiesBeyond]

theorem copiesBeyond_of_deep {r : Run} (hcopied : .object r.toDocument ∈ m.copied call)
    (hdeep : levels ≤ (Value.object r.payload).height) : m.copiesBeyond levels call = true :=
  List.any_eq_true.mpr
    ⟨_, hcopied, decide_eq_true (Nat.lt_of_le_of_lt hdeep r.height_payload_lt)⟩

theorem copiesBeyond_of_writes {r : Run} (hr : call.run? = some r)
    (hshallow : r.payload.IsShallow levels) : m.copiesBeyond levels call = false := by
  rw [copiesBeyond_eq_false_iff]
  have hheight := Run.height_le_of_isShallow hshallow
  cases call with
  | createRun | saveRun | releaseRun =>
    cases hr
    simpa [copied] using hheight
  | _ => cases hr

theorem Stores.mem_copied {r : Run} (h : m.Stores r) (owner : String) (now : Instant) :
    .object r.toDocument ∈ m.copied (.acquireRun r.id owner now) := by
  rw [copied, h]
  exact List.mem_singleton_self _

theorem Stores.copiesBeyond_acquireRun {r : Run} (h : m.Stores r)
    (hshallow : r.payload.IsShallow levels) (owner : String) (now : Instant) :
    m.copiesBeyond levels (.acquireRun r.id owner now) = false := by
  rw [copiesBeyond_eq_false_iff]
  intro v hv
  rw [copied, h] at hv
  obtain rfl := List.mem_singleton.mp hv
  exact Run.height_le_of_isShallow hshallow

theorem Stores.copiesBeyond_getRun {r : Run} (h : m.Stores r)
    (hshallow : r.payload.IsShallow levels) : m.copiesBeyond levels (.getRun r.id) = false :=
  h.copiesBeyond_acquireRun hshallow "" default

theorem IsShallow.copiesBeyond_eq (h : m.IsShallow levels) (hcall : call.IsShallow levels) :
    m.copiesBeyond levels call = false := by
  have hstored (id : String) : ∀ v ∈ (m.runs.get? id).toList, v.height ≤ levels :=
    fun v hv => h _ (Table.mem_of_get? (Option.mem_toList.mp hv))
  cases call with
  | createRun r => exact copiesBeyond_of_writes rfl (hcall r rfl)
  | saveRun r | releaseRun r => exact copiesBeyond_of_writes rfl (hcall r rfl)
  | getRun id => exact copiesBeyond_eq_false_iff.mpr (hstored id)
  | acquireRun id => exact copiesBeyond_eq_false_iff.mpr (hstored id)
  | listRuns filter =>
    rw [copiesBeyond_eq_false_iff]
    intro v hv
    obtain ⟨entry, hentry, rfl⟩ := List.mem_map.mp hv
    exact h entry hentry
  | _ => rfl

/-- A call whose copy fails ends with a fault, after the changes that come before the copy. -/
theorem answerUncopied_run (call : StoreCall) (s : Stored MemoryStore) :
    ∃ e, (answerUncopied call).run s = (.error e, ((answer call.beforeCopy).run s).2) := by
  rw [answerUncopied, StoreM.run_bind]
  rcases (answer call.beforeCopy).run s with ⟨e | a, s'⟩
  · exact ⟨e, rfl⟩
  · exact ⟨.tooDeep, rfl⟩

theorem answerUncopied_of_ok {a : call.beforeCopy.Answer} {s' : Stored MemoryStore}
    (h : (answer call.beforeCopy).run s = (.ok a, s')) :
    (answerUncopied call).run s = (.error .tooDeep, s') := by
  rw [answerUncopied, StoreM.run_bind, h]
  rfl

theorem answerWithin_run (levels : Nat) (call : StoreCall) (s : Stored MemoryStore) :
    (answerWithin levels call).run s =
      if s.data.copiesBeyond levels call then (answerUncopied call).run s
      else (answer call).run s := by
  rw [answerWithin, StoreM.run_data_bind]
  split <;> rfl

end MemoryStore

section ServedWithin

variable {levels : Nat} {q : Request} {s s' : Stored MemoryStore} {a : q.Answer}

/-- A store that copies runs of at most so many levels is one of those that are spoken of here. -/
theorem servedWithin_answerWithin {levels' : Nat} (hlevels : levels ≤ levels') (call : StoreCall)
    (s : Stored MemoryStore) : ServedWithin levels (.store call) s
      ((MemoryStore.answerWithin levels' call).run s).1
      ((MemoryStore.answerWithin levels' call).run s).2 := by
  rw [MemoryStore.answerWithin_run]
  split
  · next hdeep =>
    refine .uncopied call s ?_
    obtain ⟨v, hv, hheight⟩ := List.any_eq_true.mp hdeep
    have hlower : levels < v.height := Nat.lt_of_le_of_lt hlevels (of_decide_eq_true hheight)
    exact List.any_eq_true.mpr ⟨v, hv, decide_eq_true hlower⟩
  · exact .served (.store call s)

/-- Where no deep run is copied the store answers as if every copy succeeded. -/
theorem ServedWithin.served_of (h : ServedWithin levels q s a s')
    (hcopied : ∀ call, q = .store call → s.data.copiesBeyond levels call = false) :
    Served q s a s' := by
  cases h with
  | served h => exact h
  | uncopied call s hdeep => cases hdeep.symm.trans (hcopied call rfl)

theorem servedWithin_tooDeep {call : StoreCall} {a : call.beforeCopy.Answer}
    (hdeep : s.data.copiesBeyond levels call = true)
    (h : (MemoryStore.answer call.beforeCopy).run s = (.ok a, s')) :
    ServedWithin levels (.store call) s (.error .tooDeep) s' := by
  have huncopied := ServedWithin.uncopied call s hdeep
  rwa [MemoryStore.answerUncopied_of_ok h] at huncopied

theorem ServedWithin.store_eq {call : StoreCall} {result : Except Fault call.Answer}
    (h : ServedWithin levels (.store call) s result s') (hstored : s.data.IsShallow levels)
    (hcall : call.IsShallow levels) : result = ((MemoryStore.answer call).run s).1 ∧
      s' = ((MemoryStore.answer call).run s).2 := by
  have hserved : Served (.store call) s result s' := h.served_of fun call' hcall' => by
    cases hcall'
    exact hstored.copiesBeyond_eq hcall
  cases hserved with
  | store => exact ⟨rfl, rfl⟩
  | outside hr => exact absurd rfl (hr call)

theorem MemoryStore.Stores.acquired_iff {r : Run} {owner : String} {now : Instant}
    {result : Except Fault Run} (h : s.data.Stores r) (hshallow : r.payload.IsShallow levels)
    (hanswered : ServedWithin levels (.store (.acquireRun r.id owner now)) s result s') :
    result.isOk = true ↔ s.data.isLocked r.id now = .ok false := by
  have hserved : Served (.store (.acquireRun r.id owner now)) s result s' :=
    hanswered.served_of fun call hcall => by
      cases hcall
      exact h.copiesBeyond_acquireRun hshallow owner now
  cases hserved with
  | outside hr => exact absurd rfl (hr _)
  | store => exact isOk_eq_true_iff.trans h.succeeds_acquireRun_iff

theorem ServedWithin.changes (h : ServedWithin levels q s a s') : s'.data = s.data ∨
    ∃ call, q = .store call ∧ (s.data.Changes call s'.data ∨ s.data.Changes call.beforeCopy s'.data) := by
  cases h with
  | served h => exact h.changes.imp_right (Exists.imp fun _ => And.imp_right .inl)
  | uncopied call s hdeep =>
    obtain ⟨e, hrun⟩ := MemoryStore.answerUncopied_run call s
    rw [hrun]
    exact .inr ⟨call, rfl, .inr (MemoryStore.answer_changes call.beforeCopy s)⟩

end ServedWithin

end FunnelFlow
