import Mathlib.Logic.Relation
import FunnelFlow.Proofs.Activity

/-!
Protocols: what an activity may ask for depends on what it was answered before. A protocol has
states; each request is allowed in some of them, and each answer leads to another. An activity that
follows a protocol can be watched request by request, while others change the store in between.
-/

namespace FunnelFlow

open Relation

structure Protocol (σ : Type) where
  asks : σ → Request → Prop
  replies : σ → (r : Request) → r.Answer → σ → Prop

variable {σ α β : Type} {p : Protocol σ} {admits : (r : Request) → r.Answer → Prop}

def Protocol.Moves (p : Protocol σ) (g g' : σ) : Prop :=
  ∃ (r : Request) (a : r.Answer), p.asks g r ∧ p.replies g r a g'

abbrev Moment (α : Type) := Activity α × Stored MemoryStore

inductive Advances (admits : (r : Request) → r.Answer → Prop) : Moment α → Moment α → Prop
  | answered {r : Request} {resume : r.Answer → Activity α} {a : r.Answer}
    {s s' : Stored MemoryStore} (hserved : Served r s a s') (hadmits : admits r a) :
    Advances admits (.ask r resume, s) (resume a, s')

def Terms.PreserveUnder (t : Terms) (admits : (r : Request) → r.Answer → Prop)
    (inv : Stored MemoryStore → Prop) : Prop :=
  ∀ (r : Request) (s s' : Stored MemoryStore) (a : r.Answer),
    inv s → t.asks r → Served r s a s' → admits r a → inv s' ∧ t.replies r a

theorem Activity.Abides.advance {t : Terms} {inv : Stored MemoryStore → Prop}
    {post : Except Fault α → Prop} (ht : t.PreserveUnder admits inv) {act act' : Activity α}
    {s s' : Stored MemoryStore} (h : act.Abides t post) (hs : inv s)
    (hadvances : Advances admits (act, s) (act', s')) : inv s' ∧ act'.Abides t post := by
  cases hadvances with
  | answered hserved hadmits =>
    obtain ⟨hs', hreply⟩ := ht _ _ _ _ hs h.1 hserved hadmits
    exact ⟨hs', h.2 _ hreply⟩

/-- The protocol tells of the store what `rel` says, whatever the store is asked for in its
terms. -/
def Protocol.Tracks (p : Protocol σ) (admits : (r : Request) → r.Answer → Prop)
    (rel : σ → MemoryStore → Prop) : Prop :=
  ∀ (g : σ) (r : Request) (a : r.Answer) (s s' : Stored MemoryStore), rel g s.data → p.asks g r →
    Served r s a s' → admits r a → ∃ g', p.replies g r a g' ∧ rel g' s'.data

namespace Activity

/-- The activity keeps to the protocol, from the state that is given to one in which its result
satisfies `post`. -/
def Follows (p : Protocol σ) (post : σ → Except Fault α → Prop) : Activity α → σ → Prop
  | .done result, g => post g result
  | .ask r resume, g => p.asks g r ∧ ∀ a g', p.replies g r a g' → (resume a).Follows p post g'

section Follows

variable {mid : σ → Except Fault α → Prop} {act : Activity α} {g : σ}

theorem Follows.mono {post : σ → Except Fault α → Prop} (h : act.Follows p mid g)
    (hpost : ∀ g result, mid g result → post g result) : act.Follows p post g := by
  induction act generalizing g with
  | done result => exact hpost g result h
  | ask r resume ih => exact ⟨h.1, fun a g' ha => ih a (h.2 a g' ha)⟩

theorem Follows.bind {post : σ → Except Fault β → Prop} {next : α → Activity β}
    (h : act.Follows p mid g) (hok : ∀ g a, mid g (.ok a) → (next a).Follows p post g)
    (herror : ∀ g e, mid g (.error e) → post g (.error e)) : (act >>= next).Follows p post g := by
  induction act generalizing g with
  | done result =>
    cases result with
    | ok a => exact hok g a h
    | error e => exact herror g e h
  | ask r resume ih => exact ⟨h.1, fun a g' ha => ih a (h.2 a g' ha)⟩

theorem Follows.tryCatch {post : σ → Except Fault α → Prop} {handle : Fault → Activity α}
    (h : act.Follows p mid g) (hok : ∀ g a, mid g (.ok a) → post g (.ok a))
    (herror : ∀ g e, mid g (.error e) → (handle e).Follows p post g) :
    (act.tryCatch handle).Follows p post g := by
  induction act generalizing g with
  | done result =>
    cases result with
    | ok a => exact hok g a h
    | error e => exact herror g e h
  | ask r resume ih => exact ⟨h.1, fun a g' ha => ih a (h.2 a g' ha)⟩

theorem Follows.attempt (h : act.Follows p mid g) :
    act.attempt.Follows p (fun g result => ∃ r, result = .ok r ∧ mid g r) g := by
  induction act generalizing g with
  | done result => exact ⟨result, rfl, h⟩
  | ask r resume ih => exact ⟨h.1, fun a g' ha => ih a (h.2 a g' ha)⟩

theorem Follows.request {r : Request} {post : σ → Except Fault r.Answer → Prop}
    (hasks : p.asks g r) (hpost : ∀ a g', p.replies g r a g' → post g' (.ok a)) :
    (Activity.request r).Follows p post g :=
  ⟨hasks, hpost⟩

theorem Follows.store {call : StoreCall} {post : σ → Except Fault call.Answer → Prop}
    (hasks : p.asks g (.store call)) (hpost : ∀ a g', p.replies g (.store call) a g' → post g' a) :
    (Activity.store call).Follows p post g :=
  ⟨hasks, hpost⟩

end Follows

theorem Follows.advance {post : σ → Except Fault α → Prop} {rel : σ → MemoryStore → Prop}
    (htracks : p.Tracks admits rel) {act act' : Activity α} {s s' : Stored MemoryStore} {g : σ}
    (h : act.Follows p post g) (hrel : rel g s.data)
    (hadvances : Advances admits (act, s) (act', s')) :
    ∃ g', p.Moves g g' ∧ rel g' s'.data ∧ act'.Follows p post g' := by
  cases hadvances with
  | answered hserved hadmits =>
    obtain ⟨g', hreply, hrel'⟩ := htracks _ _ _ _ _ hrel h.1 hserved hadmits
    exact ⟨g', ⟨_, _, h.1, hreply⟩, hrel', h.2 _ _ hreply⟩

theorem Follows.reaches {post : σ → Except Fault α → Prop} {rel : σ → MemoryStore → Prop}
    (htracks : p.Tracks admits rel) {x y : Moment α} {g : σ} (h : x.1.Follows p post g)
    (hrel : rel g x.2.data) (hreaches : ReflTransGen (Advances admits) x y) :
    ∃ g', ReflTransGen p.Moves g g' ∧ rel g' y.2.data ∧ y.1.Follows p post g' := by
  induction hreaches with
  | refl => exact ⟨g, .refl, hrel, h⟩
  | tail _ hstep ih =>
    obtain ⟨g', hpath, hrel', h'⟩ := ih
    obtain ⟨g'', hmove, hrel'', h''⟩ := h'.advance htracks hrel' hstep
    exact ⟨g'', hpath.tail hmove, hrel'', h''⟩

theorem CarriedOut.reaches {act : Activity α} {s s' : Stored MemoryStore}
    {result : Except Fault α} (h : act.CarriedOut s result s') :
    ReflTransGen (Advances fun _ _ => True) (act, s) (.done result, s') := by
  induction h with
  | done result s => exact .refl
  | ask hserved _ ih => exact .head (.answered hserved trivial) ih

/-- In a world whose answers are admitted an activity comes to its end. -/
theorem run_reaches {answer : (r : Request) → Stored MemoryStore → r.Answer × Stored MemoryStore}
    (hserved : ∀ r s, Served r s (answer r s).1 (answer r s).2)
    (hadmits : ∀ r s, admits r (answer r s).1) (act : Activity α) (s : Stored MemoryStore) :
    ReflTransGen (Advances admits) (act, s) (.done (act.run answer s).1, (act.run answer s).2) := by
  induction act generalizing s with
  | done result => exact .refl
  | ask r resume ih => exact .head (.answered (hserved r s) (hadmits r s)) (ih _ _)

end Activity

end FunnelFlow
