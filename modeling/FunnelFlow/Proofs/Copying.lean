import FunnelFlow.Rehearsal.Play
import FunnelFlow.Proofs.Log
import FunnelFlow.Proofs.Protocol
import FunnelFlow.Proofs.Store.Copying

/-!
Activities on a store whose copies can fail. As long as an activity copies nothing deep, it is carried
out as on a store that always succeeds; the protocol that it follows tells what it copies.
-/

namespace FunnelFlow

open Relation

variable {σ α β : Type} {levels : Nat}

/-- The store that the program is rehearsed on. -/
theorem Rehearsal.answerStore_memory (call : StoreCall) (s : Stored MemoryStore) :
    ∃ result s', answerStore call (.memory s) = (result, .memory s') ∧
      ServedWithin mostLevels (.store call) s result s' :=
  ⟨_, _, rfl, servedWithin_answerWithin (Nat.le_refl mostLevels) call s⟩

inductive AdvancesWithin (levels : Nat) (admits : (r : Request) → r.Answer → Prop) :
    Moment α → Moment α → Prop
  | answered {r : Request} {resume : r.Answer → Activity α} {a : r.Answer}
    {s s' : Stored MemoryStore} (hserved : ServedWithin levels r s a s') (hadmits : admits r a) :
    AdvancesWithin levels admits (.ask r resume, s) (resume a, s')

theorem Advances.within {admits : (r : Request) → r.Answer → Prop} {x y : Moment α}
    (h : Advances admits x y) (levels : Nat) : AdvancesWithin levels admits x y := by
  cases h with
  | answered hserved hadmits => exact .answered (.served hserved) hadmits

theorem reaches_within {admits : (r : Request) → r.Answer → Prop} (levels : Nat) {x y : Moment α}
    (h : ReflTransGen (Advances admits) x y) : ReflTransGen (AdvancesWithin levels admits) x y :=
  h.lift id fun _ _ hstep => hstep.within levels

/-- Nothing deep is copied in the states of the protocol that go with the store. -/
def Protocol.CopiesWithin (p : Protocol σ) (levels : Nat) (rel : σ → MemoryStore → Prop) : Prop :=
  ∀ g call m, rel g m → p.asks g (.store call) → m.copiesBeyond levels call = false

namespace Activity

inductive LoggedWithin (levels : Nat) :
    Activity α → Stored MemoryStore → Log → Except Fault α → Stored MemoryStore → Prop
  | done (result : Except Fault α) (s : Stored MemoryStore) :
    LoggedWithin levels (.done result) s [] result s
  | ask {r : Request} {resume : r.Answer → Activity α} {a : r.Answer}
    {s s' s'' : Stored MemoryStore} {log : Log} {result : Except Fault α}
    (hserved : ServedWithin levels r s a s') (hrest : LoggedWithin levels (resume a) s' log result s'') :
    LoggedWithin levels (.ask r resume) s (⟨r, a⟩ :: log) result s''

variable {act act' : Activity α} {s s' : Stored MemoryStore} {log : Log} {result : Except Fault α}

theorem Logged.within (h : act.Logged s log result s') (levels : Nat) :
    act.LoggedWithin levels s log result s' := by
  induction h with
  | done result s => exact .done result s
  | ask hserved _ ih => exact .ask (.served hserved) ih

/-- A part that ends with a fault ends the whole. -/
theorem LoggedWithin.bind_error {next : α → Activity β} {e : Fault}
    (h : act.LoggedWithin levels s log (.error e) s') :
    (act >>= next).LoggedWithin levels s log (.error e) s' := by
  generalize hresult : (.error e : Except Fault α) = result at h
  induction h with
  | done result s =>
    subst hresult
    exact .done _ s
  | ask hserved _ ih => exact .ask hserved (ih hresult)

theorem LoggedWithin.reaches {admits : (r : Request) → r.Answer → Prop}
    (h : act.LoggedWithin levels s log result s')
    (hadmits : ∀ entry ∈ log, admits entry.request entry.answer) :
    ReflTransGen (AdvancesWithin levels admits) (act, s) (.done result, s') := by
  induction h with
  | done => exact .refl
  | ask hserved _ ih =>
    obtain ⟨hfirst, hothers⟩ := List.forall_mem_cons.mp hadmits
    exact .head (.answered hserved hfirst) (ih hothers)

section Follows

variable {p : Protocol σ} {admits : (r : Request) → r.Answer → Prop} {rel : σ → MemoryStore → Prop}
  {g : σ} {post : σ → Except Fault α → Prop}

theorem Follows.advance_within (hcopies : p.CopiesWithin levels rel)
    (h : act.Follows p post g) (hrel : rel g s.data)
    (hadvances : AdvancesWithin levels admits (act, s) (act', s')) :
    Advances admits (act, s) (act', s') := by
  cases hadvances with
  | answered hserved hadmits =>
    refine .answered (hserved.served_of fun call hcall => ?_) hadmits
    subst hcall
    exact hcopies g call s.data hrel h.1

theorem Follows.reaches_within (htracks : p.Tracks admits rel) (hcopies : p.CopiesWithin levels rel)
    {x y : Moment α} (h : x.1.Follows p post g) (hrel : rel g x.2.data)
    (hreaches : ReflTransGen (AdvancesWithin levels admits) x y) :
    ReflTransGen (Advances admits) x y := by
  induction hreaches with
  | refl => exact .refl
  | tail _ hstep ih =>
    obtain ⟨g', _, hrel', h'⟩ := h.reaches htracks hrel ih
    exact ih.tail (h'.advance_within hcopies hrel' hstep)

theorem Follows.logged_within (htracks : p.Tracks (fun _ _ => True) rel)
    (hcopies : p.CopiesWithin levels rel) (h : act.Follows p post g) (hrel : rel g s.data)
    (hrun : act.LoggedWithin levels s log result s') : act.Logged s log result s' := by
  induction hrun generalizing g with
  | done result s => exact .done result s
  | ask hserved _ ih =>
    have hplain := hserved.served_of fun call hcall => by
      subst hcall
      exact hcopies g call _ hrel h.1
    obtain ⟨g', hreply, hrel'⟩ := htracks _ _ _ _ _ hrel h.1 hplain trivial
    exact .ask hplain (ih (h.2 _ _ hreply) hrel')

end Follows

/-- The terms stay in force when copies fail: only on a success is anything counted on. -/
structure AllowsUncopied (t : Terms) : Prop where
  asks (call : StoreCall) (hcall : t.asks (.store call)) : t.asks (.store call.beforeCopy)
  replies (call : StoreCall) (e : Fault) : t.replies (.store call) (.error e)

theorem Abides.advance_within {t : Terms} {inv : Stored MemoryStore → Prop}
    {admits : (r : Request) → r.Answer → Prop} {post : Except Fault α → Prop}
    (ht : t.PreserveUnder admits inv) (hallows : AllowsUncopied t)
    (hadmits : ∀ call a, admits (.store call) a) (h : act.Abides t post) (hs : inv s)
    (hadvances : AdvancesWithin levels admits (act, s) (act', s')) :
    inv s' ∧ act'.Abides t post := by
  cases hadvances with
  | answered hserved hadm =>
    cases hserved with
    | served hserved => exact h.advance ht hs (.answered hserved hadm)
    | uncopied call s hdeep =>
      obtain ⟨e, hrun⟩ := MemoryStore.answerUncopied_run call s
      have hbefore := ht _ _ _ _ hs (hallows.asks call h.1) (.store call.beforeCopy s)
        (hadmits _ _)
      rw [hrun]
      exact ⟨hbefore.1, h.2 _ (hallows.replies call e)⟩

theorem Abides.preserves_within {t : Terms} {inv : Stored MemoryStore → Prop}
    {post : Except Fault α → Prop} (h : act.Abides t post) (ht : t.Preserve inv)
    (hallows : AllowsUncopied t) (hrun : act.LoggedWithin levels s log result s') (hs : inv s) :
    inv s' := by
  have hpreserve : t.PreserveUnder (fun _ _ => True) inv :=
    fun r s s' a hs hasks hserved _ => ht r s s' a hs hasks hserved
  induction hrun with
  | done => exact hs
  | ask hserved _ ih =>
    obtain ⟨hs', hrest⟩ := h.advance_within hpreserve hallows (fun _ _ => trivial) hs
      (.answered hserved trivial)
    exact ih hrest hs'

/-- An activity whose calls write nothing deep, and read no run, is carried out as on a store that
always succeeds. -/
theorem Abides.logged_within {t : Terms} {post : Except Fault α → Prop}
    (hreplies : ∀ r a, t.replies r a)
    (hcopies : ∀ call m, t.asks (.store call) → MemoryStore.copiesBeyond m levels call = false)
    (h : act.Abides t post) (hrun : act.LoggedWithin levels s log result s') :
    act.Logged s log result s' := by
  induction hrun with
  | done result s => exact .done result s
  | ask hserved _ ih =>
    have hplain := hserved.served_of fun call hcall => by
      subst hcall
      exact hcopies call _ h.1
    exact .ask hplain (ih (h.2 _ (hreplies _ _)))

end Activity

end FunnelFlow
