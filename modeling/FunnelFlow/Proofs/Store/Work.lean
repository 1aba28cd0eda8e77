import Mathlib.Data.List.Forall2
import FunnelFlow.Store.Contract

namespace FunnelFlow.StoreM

variable {σ α β : Type}

theorem run_bind (w : StoreM σ α) (next : α → StoreM σ β) (s : Stored σ) :
    (w >>= next).run s = match w.run s with
      | (.ok a, s') => (next a).run s'
      | (.error e, s') => (.error e, s') := by
  rw [ExceptT.run_bind]
  change StateT.bind w.run _ s = _
  unfold StateT.bind
  cases w.run s with
  | mk r s' => cases r <;> rfl

theorem run_tryCatch (w : StoreM σ α) (handle : Fault → StoreM σ α) (s : Stored σ) :
    (tryCatch w handle).run s = match w.run s with
      | (.ok a, s') => (.ok a, s')
      | (.error e, s') => (handle e).run s' := by
  rw [ExceptT.run_tryCatch]
  change StateT.bind w.run _ s = _
  unfold StateT.bind
  cases w.run s with
  | mk r s' => cases r <;> rfl

theorem run_data_bind (next : σ → StoreM σ β) (s : Stored σ) :
    (data >>= next).run s = (next s.data).run s := run_bind data next s

theorem run_setData_bind (d : σ) (next : Unit → StoreM σ β) (s : Stored σ) :
    (setData d >>= next).run s = (next ()).run { s with data := d } := run_bind (setData d) next s

theorem run_liftExcept_bind (r : Except Fault α) (next : α → StoreM σ β) (s : Stored σ) :
    (liftExcept r >>= next).run s = match r with
      | .ok a => (next a).run s
      | .error e => (.error e, s) := by
  rw [run_bind]
  cases r <;> rfl

theorem readRun_eq (r : Reading Run) :
    (readRun r : StoreM σ Run) =
      (if r.needsId then takeRunId else pure "") >>= fun fresh => liftExcept (r.result fresh) := by
  unfold readRun
  split <;> rfl

theorem readFunnel_eq (r : Reading Funnel) :
    (readFunnel r : StoreM σ Funnel) =
      (if r.needsId then takeFunnelId else pure "") >>= fun fresh =>
        liftExcept (r.result fresh) := by
  unfold readFunnel
  split <;> rfl

theorem run_take_bind {take : StoreM σ String} {fresh : String} {s s' : Stored σ}
    (htake : take.run s = (.ok fresh, s')) (needsId : Bool) (result : String → Except Fault α) :
    ((if needsId then take else pure "") >>= fun fresh => liftExcept (result fresh)).run s =
      if needsId then (result fresh, s') else (result "", s) := by
  cases needsId with
  | true =>
    simp only [if_true]
    rw [run_bind, htake]
    dsimp only
    cases result fresh <;> rfl
  | false =>
    simp only [Bool.false_eq_true, if_false, pure_bind]
    cases result "" <;> rfl

theorem run_readFunnel (r : Reading Funnel) (s : Stored σ) :
    (readFunnel r : StoreM σ Funnel).run s = if r.needsId
      then (r.result s.ids.takeFunnel.1, { s with ids := s.ids.takeFunnel.2 })
      else (r.result "", s) := by
  have htake : (takeFunnelId : StoreM σ String).run s =
    (.ok s.ids.takeFunnel.1, { s with ids := s.ids.takeFunnel.2 }) := rfl
  rw [readFunnel_eq]
  exact run_take_bind htake r.needsId r.result

theorem run_readRun (r : Reading Run) (s : Stored σ) :
    (readRun r : StoreM σ Run).run s = if r.needsId
      then (r.result s.ids.takeRun.1, { s with ids := s.ids.takeRun.2 })
      else (r.result "", s) := by
  have htake : (takeRunId : StoreM σ String).run s =
    (.ok s.ids.takeRun.1, { s with ids := s.ids.takeRun.2 }) := rfl
  rw [readRun_eq]
  exact run_take_bind htake r.needsId r.result

theorem exists_run_readRun (r : Reading Run) (s : Stored σ) :
    ∃ fresh s', (readRun r : StoreM σ Run).run s = (r.result fresh, s') := by
  rw [run_readRun]
  split
  · exact ⟨_, _, rfl⟩
  · exact ⟨_, _, rfl⟩

section Success

variable {w : StoreM σ α} {s s' : Stored σ}

theorem run_bind_eq_ok {next : α → StoreM σ β} {b : β} (h : (w >>= next).run s = (.ok b, s')) :
    ∃ a s₁, w.run s = (.ok a, s₁) ∧ (next a).run s₁ = (.ok b, s') := by
  rw [run_bind] at h
  split at h
  · next a s₁ hw => exact ⟨a, s₁, hw, h⟩
  · cases h

theorem exists_ok_eq_iff {a b : α} :
    (∃ s', ((.ok a, s) : Except Fault α × Stored σ) = (.ok b, s')) ↔ b = a := by
  simp [eq_comm]

theorem run_liftExcept_bind_eq_ok_iff {r : Except Fault α} {next : α → StoreM σ β} {b : β} :
    (liftExcept r >>= next).run s = (.ok b, s') ↔ ∃ a, r = .ok a ∧ (next a).run s = (.ok b, s') := by
  rw [run_liftExcept_bind]
  cases r with
  | ok a => simp
  | error e => exact iff_of_false nofun (by rintro ⟨_, ⟨⟩, _⟩)

theorem run_readRun_eq_ok {r : Reading Run} {run : Run}
    (h : (readRun r : StoreM σ Run).run s = (.ok run, s')) : ∃ fresh, r.result fresh = .ok run := by
  obtain ⟨fresh, s₁, hrun⟩ := exists_run_readRun r s
  exact ⟨fresh, congrArg Prod.fst (hrun.symm.trans h)⟩

end Success

theorem mapM_eq_pure {ι : Type} {is : List ι} {item : ι → α} {w : α → StoreM σ β} {f : ι → β}
    (h : ∀ i ∈ is, w (item i) = pure (f i)) : (is.map item).mapM w = pure (is.map f) := by
  induction is with
  | nil => rfl
  | cons i is ih =>
    rw [List.map_cons, List.mapM_cons, h i List.mem_cons_self, pure_bind,
      ih fun j hj => h j (List.mem_cons_of_mem _ hj), pure_bind]
    rfl

/-- The work succeeds and leaves the data alone; it may use up ids. -/
def Reads (w : StoreM σ α) (s : Stored σ) (p : α → Prop) : Prop :=
  ∃ a ids, w.run s = (.ok a, { s with ids }) ∧ p a

section Reads

variable {s : Stored σ} {p : α → Prop} {q : β → Prop}

theorem Reads.pure {a : α} (h : p a) : Reads (pure a : StoreM σ α) s p :=
  ⟨a, s.ids, rfl, h⟩

theorem Reads.data {p : σ → Prop} (h : p s.data) : Reads (data : StoreM σ σ) s p :=
  ⟨s.data, s.ids, rfl, h⟩

theorem Reads.liftExcept {r : Except Fault α} {a : α} (hr : r = .ok a) (h : p a) :
    Reads (liftExcept r : StoreM σ α) s p := by
  subst hr
  exact ⟨a, s.ids, rfl, h⟩

theorem Reads.bind {w : StoreM σ α} {next : α → StoreM σ β} (h : w.Reads s p)
    (hnext : ∀ a ids, p a → (next a).Reads { s with ids } q) : (w >>= next).Reads s q := by
  obtain ⟨a, ids, hw, ha⟩ := h
  obtain ⟨b, ids', hb, hq⟩ := hnext a ids ha
  refine ⟨b, ids', ?_, hq⟩
  rw [run_bind, hw]
  exact hb

theorem Reads.mono {q : α → Prop} {w : StoreM σ α} (h : w.Reads s p) (hpq : ∀ a, p a → q a) :
    w.Reads s q := by
  obtain ⟨a, ids, hw, ha⟩ := h
  exact ⟨a, ids, hw, hpq a ha⟩

theorem Reads.mapM {w : α → StoreM σ β} {rel : α → β → Prop} (as : List α)
    (h : ∀ a ∈ as, ∀ ids, (w a).Reads { s with ids } (rel a)) :
    (as.mapM w).Reads s (List.Forall₂ rel as) := by
  induction as generalizing s with
  | nil => exact .pure .nil
  | cons a as ih =>
    rw [List.mapM_cons]
    apply Reads.bind (h a List.mem_cons_self s.ids)
    intro b ids hb
    have hrest := ih (s := { s with ids }) fun a' ha' => h a' (List.mem_cons_of_mem _ ha')
    exact hrest.bind fun bs _ hbs => .pure (.cons hb hbs)

theorem Reads.readFunnel {r : Reading Funnel} {p : Funnel → Prop}
    (h : ∀ fresh, ∃ f, r.result fresh = .ok f ∧ p f) : (readFunnel r).Reads s p := by
  have hid : Reads (if r.needsId then takeFunnelId else Pure.pure "" : StoreM σ String) s
      fun _ => True := by
    split
    · exact ⟨_, _, rfl, trivial⟩
    · exact .pure trivial
  rw [readFunnel_eq]
  apply hid.bind
  intro fresh _ _
  obtain ⟨f, hf, hp⟩ := h fresh
  exact .liftExcept hf hp

theorem Reads.of_run {w : StoreM σ α} (h : w.Reads s p) {a : α} (ha : (w.run s).1 = .ok a) :
    p a := by
  obtain ⟨a', _, hw, hp⟩ := h
  rw [hw] at ha
  cases ha
  exact hp

end Reads

/-- The work keeps a property of the data, also when it fails. -/
def Keeps (w : StoreM σ α) (inv : σ → Prop) : Prop :=
  ∀ s : Stored σ, inv s.data → inv (w.run s).2.data

section Keeps

variable {inv : σ → Prop}

theorem Keeps.pure (a : α) : Keeps (pure a : StoreM σ α) inv := fun _ hs => hs

theorem Keeps.liftExcept (r : Except Fault α) : Keeps (liftExcept r : StoreM σ α) inv := by
  intro s hs
  cases r <;> exact hs

theorem Keeps.takeFunnelId : Keeps (takeFunnelId : StoreM σ String) inv := fun _ hs => hs

theorem Keeps.takeRunId : Keeps (takeRunId : StoreM σ String) inv := fun _ hs => hs

theorem Keeps.bind {w : StoreM σ α} {next : α → StoreM σ β} (hw : w.Keeps inv)
    (hnext : ∀ a, (next a).Keeps inv) : (w >>= next).Keeps inv := by
  intro s hs
  have hs' := hw s hs
  rw [run_bind]
  split
  · next a s' hrun => exact hnext a s' (by rwa [hrun] at hs')
  · next e s' hrun => rwa [hrun] at hs'

theorem Keeps.data_bind {next : σ → StoreM σ β} (h : ∀ d, inv d → (next d).Keeps inv) :
    (data >>= next).Keeps inv := by
  intro s hs
  rw [run_bind]
  exact h s.data hs s hs

theorem Keeps.mapM {w : α → StoreM σ β} (as : List α) (h : ∀ a, (w a).Keeps inv) :
    (as.mapM w).Keeps inv := by
  induction as with
  | nil => exact .pure []
  | cons a as ih =>
    rw [List.mapM_cons]
    exact .bind (h a) fun b => .bind ih fun bs => .pure (b :: bs)

theorem Keeps.readRun (r : Reading Run) : (readRun r : StoreM σ Run).Keeps inv := by
  rw [readRun_eq]
  refine Keeps.bind ?_ fun _ => .liftExcept _
  split
  · exact .takeRunId
  · exact .pure ""

theorem Keeps.readFunnel (r : Reading Funnel) : (readFunnel r : StoreM σ Funnel).Keeps inv := by
  rw [readFunnel_eq]
  refine Keeps.bind ?_ fun _ => .liftExcept _
  split
  · exact .takeFunnelId
  · exact .pure ""

end Keeps

end FunnelFlow.StoreM
