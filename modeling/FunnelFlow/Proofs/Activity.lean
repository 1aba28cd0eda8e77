import FunnelFlow.Activity
import FunnelFlow.Store.Memory

/-!
Activities carried out on a store in memory, in a world that answers everything but the calls of
the store as it likes; and terms between an activity and its world: what the activity asks for at
most, and which replies it counts on.
-/

namespace FunnelFlow

/-- How requests are answered: a call as the store answers it, anything else in any way. -/
inductive Served : (r : Request) → Stored MemoryStore → r.Answer → Stored MemoryStore → Prop
  | store (call : StoreCall) (s : Stored MemoryStore) :
    Served (.store call) s ((MemoryStore.answer call).run s).1 ((MemoryStore.answer call).run s).2
  | outside {r : Request} (hr : ∀ call, r ≠ .store call) (a : r.Answer) (s : Stored MemoryStore) :
    Served r s a s

structure Terms where
  asks : Request → Prop
  replies : (r : Request) → r.Answer → Prop

/-- Whoever keeps to the terms keeps the stores in `inv`, and gets the replies of the terms. -/
def Terms.Preserve (t : Terms) (inv : Stored MemoryStore → Prop) : Prop :=
  ∀ (r : Request) (s s' : Stored MemoryStore) (a : r.Answer),
    inv s → t.asks r → Served r s a s' → inv s' ∧ t.replies r a

namespace Activity

variable {α β : Type} {t : Terms}

/-- The activity can end with this result and in this store. -/
inductive CarriedOut : Activity α → Stored MemoryStore → Except Fault α → Stored MemoryStore → Prop
  | done (result : Except Fault α) (s : Stored MemoryStore) : CarriedOut (.done result) s result s
  | ask {r : Request} {resume : r.Answer → Activity α} {a : r.Answer}
    {s s' s'' : Stored MemoryStore} {result : Except Fault α} (hserved : Served r s a s')
    (hrest : CarriedOut (resume a) s' result s'') : CarriedOut (.ask r resume) s result s''

theorem carriedOut_run {answer : (r : Request) → Stored MemoryStore → r.Answer × Stored MemoryStore}
    (hanswer : ∀ r s, Served r s (answer r s).1 (answer r s).2) (act : Activity α)
    (s : Stored MemoryStore) : CarriedOut act s (act.run answer s).1 (act.run answer s).2 := by
  induction act generalizing s with
  | done result => exact .done result s
  | ask r resume ih => exact .ask (hanswer r s) (ih _ _)

section Run

variable {σ : Type} {answer : (r : Request) → σ → r.Answer × σ}

theorem run_bind_ok {act : Activity α} {next : α → Activity β} {a : α} {world world' : σ}
    (h : act.run answer world = (.ok a, world')) :
    (act >>= next).run answer world = (next a).run answer world' := by
  rw [run_bind, h]

theorem run_bind_error {act : Activity α} {next : α → Activity β} {e : Fault} {world world' : σ}
    (h : act.run answer world = (.error e, world')) :
    (act >>= next).run answer world = (.error e, world') := by
  rw [run_bind, h]

theorem run_attempt (act : Activity α) (world : σ) :
    act.attempt.run answer world = (.ok (act.run answer world).1, (act.run answer world).2) := by
  induction act generalizing world with
  | done result => rfl
  | ask request resume ih => exact ih _ _

theorem run_attempt_bind {act : Activity α} {next : Except Fault α → Activity β}
    {result : Except Fault α} {world world' : σ} (h : act.run answer world = (result, world')) :
    (act.attempt >>= next).run answer world = (next result).run answer world' := by
  rw [run_bind, run_attempt, h]

theorem run_tryCatch (act : Activity α) (handle : Fault → Activity α) (world : σ) :
    (act.tryCatch handle).run answer world = match act.run answer world with
      | (.ok a, world) => (.ok a, world)
      | (.error e, world) => (handle e).run answer world := by
  induction act generalizing world with
  | done result => cases result <;> rfl
  | ask request resume ih => exact ih _ _

end Run

/-- A world with a clock that stands still, a single id and no peers. -/
def still (now : Instant) (id : String) :
    (r : Request) → Stored MemoryStore → r.Answer × Stored MemoryStore
  | .store call, s => (MemoryStore.answer call).run s
  | .clock, s => (now, s)
  | .funnelId, s | .runId, s | .token, s => (id, s)
  | .post .., s | .read _, s => (.broken "", s)
  | .enqueue _, s => ((), s)
  | .drain, s => ([], s)

theorem still_served (now : Instant) (id : String) (r : Request) (s : Stored MemoryStore) :
    Served r s (still now id r s).1 (still now id r s).2 := by
  cases r with
  | store call => exact .store call s
  | _ =>
    refine .outside ?_ _ s
    rintro _ ⟨⟩

/-- The same with peers that accept every message and give no attributes. -/
def obliging (now : Instant) (id : String) :
    (r : Request) → Stored MemoryStore → r.Answer × Stored MemoryStore
  | .post .., s => (.answer 200 "", s)
  | .read _, s => (.answer 404 "", s)
  | r, s => still now id r s

theorem obliging_served (now : Instant) (id : String) (r : Request) (s : Stored MemoryStore) :
    Served r s (obliging now id r s).1 (obliging now id r s).2 := by
  cases r with
  | store call => exact .store call s
  | _ =>
    refine .outside ?_ _ s
    rintro _ ⟨⟩

/-- The activity keeps to the terms, and its result satisfies `post`, whatever it is answered
within the terms. -/
def Abides (t : Terms) (post : Except Fault α → Prop) : Activity α → Prop
  | .done result => post result
  | .ask r resume => t.asks r ∧ ∀ a, t.replies r a → (resume a).Abides t post

theorem Abides.preserves {inv : Stored MemoryStore → Prop} {post : Except Fault α → Prop}
    {act : Activity α} {s s' : Stored MemoryStore} {result : Except Fault α}
    (h : act.Abides t post) (ht : t.Preserve inv) (hrun : act.CarriedOut s result s')
    (hs : inv s) : inv s' ∧ post result := by
  induction hrun with
  | done result s => exact ⟨hs, h⟩
  | ask hserved _ ih =>
    obtain ⟨hinv, hreply⟩ := ht _ _ _ _ hs h.1 hserved
    exact ih (h.2 _ hreply) hinv

theorem Abides.bind {mid : Except Fault α → Prop} {post : Except Fault β → Prop}
    {act : Activity α} {next : α → Activity β} (h : act.Abides t mid)
    (hok : ∀ a, mid (.ok a) → (next a).Abides t post)
    (herror : ∀ e, mid (.error e) → post (.error e)) : (act >>= next).Abides t post := by
  induction act with
  | done result =>
    cases result with
    | ok a => exact hok a h
    | error e => exact herror e h
  | ask r resume ih => exact ⟨h.1, fun a ha => ih a (h.2 a ha)⟩

theorem Abides.tryCatch {mid post : Except Fault α → Prop} {act : Activity α}
    {handle : Fault → Activity α} (h : act.Abides t mid)
    (hok : ∀ a, mid (.ok a) → post (.ok a))
    (herror : ∀ e, mid (.error e) → (handle e).Abides t post) :
    (act.tryCatch handle).Abides t post := by
  induction act with
  | done result =>
    cases result with
    | ok a => exact hok a h
    | error e => exact herror e h
  | ask r resume ih => exact ⟨h.1, fun a ha => ih a (h.2 a ha)⟩

theorem Abides.attempt {post : Except Fault α → Prop} {act : Activity α} (h : act.Abides t post) :
    act.attempt.Abides t (fun result => ∃ r, result = .ok r ∧ post r) := by
  induction act with
  | done result => exact ⟨result, rfl, h⟩
  | ask r resume ih => exact ⟨h.1, fun a ha => ih a (h.2 a ha)⟩

theorem Abides.store {call : StoreCall} {post : Except Fault call.Answer → Prop}
    (hasks : t.asks (.store call)) (hpost : ∀ a, t.replies (.store call) a → post a) :
    (Activity.store call).Abides t post :=
  ⟨hasks, hpost⟩

theorem Abides.request {r : Request} {post : Except Fault r.Answer → Prop} (hasks : t.asks r)
    (hpost : ∀ a, t.replies r a → post (.ok a)) : (Activity.request r).Abides t post :=
  ⟨hasks, hpost⟩

/-- Terms that ask for less leave more to be asked, and may be answered with less. -/
theorem Abides.mono {t' : Terms} {post : Except Fault α → Prop} {act : Activity α}
    (h : act.Abides t post) (hasks : ∀ r, t.asks r → t'.asks r)
    (hreplies : ∀ r a, t'.replies r a → t.replies r a) : act.Abides t' post := by
  induction act with
  | done result => exact h
  | ask r resume ih => exact ⟨hasks r h.1, fun a ha => ih a (h.2 a (hreplies r a ha))⟩

def OnSuccess (p : α → Prop) (result : Except Fault α) : Prop := ∀ a, result = .ok a → p a

theorem OnSuccess.ok {p : α → Prop} {a : α} (h : p a) : OnSuccess p (.ok a) := by
  rintro _ ⟨⟩
  exact h

theorem OnSuccess.error {p : α → Prop} (e : Fault) : OnSuccess p (.error e) := nofun

theorem Abides.ofStore {call : StoreCall} (h : t.asks (.store call)) :
    (Activity.store call).Abides t (OnSuccess fun _ => True) :=
  Abides.store h fun _ _ _ _ => trivial

theorem Abides.ofRequest {r : Request} (h : t.asks r) :
    (Activity.request r).Abides t (OnSuccess fun _ => True) :=
  Abides.request h fun _ _ => .ok trivial

theorem Abides.during {p : α → Prop} {act : Activity α} (task : Undertaking)
    (h : act.Abides t (OnSuccess p)) : (Activity.during task act).Abides t (OnSuccess p) :=
  h.tryCatch (fun _ ha => ha) fun _ _ => .error _

theorem Abides.andThen {p : α → Prop} {q : β → Prop} {act : Activity α} {next : α → Activity β}
    (h : act.Abides t (OnSuccess p)) (hnext : ∀ a, p a → (next a).Abides t (OnSuccess q)) :
    (act >>= next).Abides t (OnSuccess q) :=
  h.bind (fun a ha => hnext a (ha a rfl)) fun e _ => .error e

theorem Abides.attemptThen {p : Except Fault α → Prop} {q : β → Prop} {act : Activity α}
    {next : Except Fault α → Activity β} (h : act.Abides t p)
    (hnext : ∀ r, p r → (next r).Abides t (OnSuccess q)) :
    (act.attempt >>= next).Abides t (OnSuccess q) := by
  refine h.attempt.bind (fun result hresult => ?_) fun e _ => .error e
  obtain ⟨r, hr, hp⟩ := hresult
  obtain rfl := Except.ok.inj hr
  exact hnext result hp

section CarriedOut

variable {act : Activity α} {s s' : Stored MemoryStore}

theorem CarriedOut.of_bind {next : α → Activity β} {result : Except Fault β}
    (h : (act >>= next).CarriedOut s result s') : ∃ mid s₁, act.CarriedOut s mid s₁ ∧
      match mid with
      | .ok a => (next a).CarriedOut s₁ result s'
      | .error _ => s' = s₁ := by
  induction act generalizing s with
  | done mid =>
    refine ⟨mid, s, .done mid s, ?_⟩
    cases mid with
    | ok a => exact h
    | error e =>
      cases h
      rfl
  | ask r resume ih =>
    cases h with
    | ask hserved hrest =>
      obtain ⟨mid, s₁, hact, hnext⟩ := ih _ hrest
      exact ⟨mid, s₁, .ask hserved hact, hnext⟩

theorem CarriedOut.of_attempt {result : Except Fault (Except Fault α)}
    (h : act.attempt.CarriedOut s result s') : ∃ mid, act.CarriedOut s mid s' := by
  induction act generalizing s with
  | done mid =>
    cases h
    exact ⟨mid, .done mid _⟩
  | ask r resume ih =>
    cases h with
    | ask hserved hrest => exact (ih _ hrest).imp fun _ hact => .ask hserved hact

theorem CarriedOut.of_tryCatch {handle : Fault → Activity α} {result : Except Fault α}
    (h : (act.tryCatch handle).CarriedOut s result s') : ∃ mid s₁, act.CarriedOut s mid s₁ ∧
      match mid with
      | .ok _ => s' = s₁
      | .error e => (handle e).CarriedOut s₁ result s' := by
  induction act generalizing s with
  | done mid =>
    refine ⟨mid, s, .done mid s, ?_⟩
    cases mid with
    | ok a =>
      cases h
      rfl
    | error e => exact h
  | ask r resume ih =>
    cases h with
    | ask hserved hrest =>
      obtain ⟨mid, s₁, hact, hnext⟩ := ih _ hrest
      exact ⟨mid, s₁, .ask hserved hact, hnext⟩

end CarriedOut

def Maintains (inv : MemoryStore → Prop) (act : Activity α) : Prop :=
  ∀ s result s', inv s.data → act.CarriedOut s result s' → inv s'.data

section Maintains

variable {inv : MemoryStore → Prop} {act : Activity α}

theorem Maintains.done (result : Except Fault α) : (Activity.done result).Maintains inv := by
  intro s _ s' hs hrun
  cases hrun
  exact hs

theorem Maintains.request {r : Request} (hr : ∀ call, r ≠ .store call) :
    (Activity.request r).Maintains inv := by
  intro s _ s' hs hrun
  cases hrun with
  | ask hserved hrest =>
    cases hrest
    cases hserved with
    | store call => exact absurd rfl (hr call)
    | outside => exact hs

theorem Maintains.store {call : StoreCall}
    (h : ∀ s, inv s.data → inv ((MemoryStore.answer call).run s).2.data) :
    (Activity.store call).Maintains inv := by
  intro s _ s' hs hrun
  cases hrun with
  | ask hserved hrest =>
    cases hrest
    cases hserved with
    | store call => exact h s hs
    | outside hr => exact absurd rfl (hr call)

theorem Maintains.bind {next : α → Activity β} (h : act.Maintains inv)
    (hnext : ∀ a, (next a).Maintains inv) : (act >>= next).Maintains inv := by
  intro s result s' hs hrun
  obtain ⟨mid, s₁, hact, hrest⟩ := hrun.of_bind
  have hs₁ := h s mid s₁ hs hact
  cases mid with
  | ok a => exact hnext a s₁ result s' hs₁ hrest
  | error e => rwa [hrest]

theorem Maintains.attempt (h : act.Maintains inv) : act.attempt.Maintains inv := by
  intro s result s' hs hrun
  obtain ⟨mid, hact⟩ := hrun.of_attempt
  exact h s mid s' hs hact

theorem Maintains.during (task : Undertaking) (h : act.Maintains inv) :
    (Activity.during task act).Maintains inv := by
  intro s result s' hs hrun
  obtain ⟨mid, s₁, hact, hrest⟩ := hrun.of_tryCatch
  have hs₁ := h s mid s₁ hs hact
  cases mid with
  | ok a => rwa [hrest]
  | error e => exact Maintains.done _ s₁ result s' hs₁ hrest

end Maintains

end Activity

end FunnelFlow
