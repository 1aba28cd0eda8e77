import Mathlib.Logic.Function.Basic
import FunnelFlow.Proofs.Service.EditProtocol

/-!
Editors who work at the same time. Any number of edits are under way and move from one answer to the
next at their own pace, all of them while locks hold. Edits of one editor share the lock of a
funnel. As long as none is granted a lock that another is going to give back, or to delete with the
funnel, every write of a funnel is made under the lock of its editor, and a lock that was taken for
a session stays. Otherwise the lock is lost to an edit of the editor's own.
-/

namespace FunnelFlow

open Relation

namespace Editing

open Activity

/-- The store, and the edits that have been started, each under a number of its own. -/
structure Office where
  store : Stored MemoryStore
  edits : Nat → Option Edit

/-- An edit is started, or one that is under way makes its next request and gets the answer. -/
inductive Step (within : Instant → Prop) : Option (Nat × Request) → Office → Office → Prop
  | start {o : Office} {n : Nat} (hnew : o.edits n = none) (op : Operation) (editor target : String)
    {fresh : String} (hfresh : fresh ≠ "") (hop : op.IsAbout fresh target) :
    Step within none o { o with
      edits := Function.update o.edits n (some ⟨op, editor, target, fresh, none, op.by editor⟩) }
  | proceed {o : Office} {n : Nat} {e : Edit} (he : o.edits n = some e) {q : Request}
    {resume : q.Answer → Activity Unit} (hq : e.rest = .ask q resume) {a : q.Answer}
    {s' : Stored MemoryStore} (hserved : Served q o.store a s') (hadmits : e.admits within q a) :
    Step within (some (n, q)) o
      ⟨s', Function.update o.edits n (some (e.answered q a (resume a)))⟩

namespace Office

variable {within : Instant → Prop} {o o' : Office}

/-- An edit asks for a lock that another edit of its editor has only if neither of them deletes the
funnel, and if the other one was not the first to take the lock. -/
def Permits (o : Office) : Option (Nat × Request) → Prop
  | some (n, .store (.lockFunnel ..)) => ∀ e n' e', o.edits n = some e → o.edits n' = some e' →
    n' ≠ n → e'.HasLock → e'.editor = e.editor → e'.target = e.target → e.Spares ∧ e'.Spares
  | _ => True

/-- Every edit that is under way goes by its protocol, and the store is as the edit sees it. Edits
that share a lock leave it in place. -/
structure IsSound (within : Instant → Prop) (o : Office) : Prop where
  filed : o.store.data.IsFiled
  window : IsWindow o.store.data.funnelTtl within
  shared (n : Nat) (e : Edit) (n' : Nat) (e' : Edit) (he : o.edits n = some e)
    (he' : o.edits n' = some e') (hn : n' ≠ n) (hlock : e.HasLock) (hlock' : e'.HasLock)
    (heditor : e'.editor = e.editor) (htarget : e'.target = e.target) : e.Spares ∧ e'.Spares
  edits (n : Nat) (e : Edit) (he : o.edits n = some e) : ∃ g,
    e.rest.Follows (e.protocol within) e.Ends g ∧ e.Notes g ∧
      (e.IsUnderWay → e.Sees within g o.store.data)

/-- The editor has the lock, and no edit that is under way will give it back. -/
structure IsSession (within : Instant → Prop) (editor id : String) (o : Office) : Prop where
  lock : ∃ since, within since ∧ o.store.data.funnelLocks.get? id = some ⟨editor, since⟩
  edits (n : Nat) (e : Edit) (he : o.edits n = some e) (hway : e.IsUnderWay)
    (heditor : e.editor = editor) (htarget : e.target = id) :
    ∃ g, (g = .away ∨ g = .holds false) ∧ e.rest.Follows (e.protocol within) e.Ends g

theorem edit_of_update {edits : Nat → Option Edit} {n n' : Nat} {e e' : Edit}
    (h : Function.update edits n (some e) n' = some e') :
    n' = n ∧ e' = e ∨ n' ≠ n ∧ edits n' = some e' := by
  by_cases hn : n' = n
  · subst hn
    rw [Function.update_self] at h
    exact .inl ⟨rfl, (Option.some.inj h).symm⟩
  · rw [Function.update_of_ne hn] at h
    exact .inr ⟨hn, h⟩

theorem IsSound.lock_of_hasLock {n : Nat} {e : Edit} (h : o.IsSound within)
    (he : o.edits n = some e) (hlock : e.HasLock) (hspares : e.Spares) :
    ∃ since, within since ∧ o.store.data.funnelLocks.get? e.target = some ⟨e.editor, since⟩ := by
  obtain ⟨g, hfollows, hnotes, hsees⟩ := h.edits n e he
  obtain ⟨⟨q, resume, hq⟩, hgranted⟩ := hlock
  have hsees' := hsees ⟨q, resume, hq⟩
  rw [hq] at hfollows
  rcases hnotes.away_or_holds hfollows.1 fun _ => hspares with rfl | rfl
  · cases hnotes with
    | away hnone => exact absurd hnone hgranted
  · exact hsees' false rfl

section Step

variable {label : Option (Nat × Request)} {editor id : String}

section Proceed

variable {n n' : Nat} {e e' : Edit} {q : Request} {resume : q.Answer → Activity Unit} {a : q.Answer}
  {s' : Stored MemoryStore} (h : o.IsSound within) (he : o.edits n = some e)
  (hq : e.rest = .ask q resume) (hserved : Served q o.store a s') (he' : o.edits n' = some e')
  (hn : n' ≠ n)
include h he hq hserved he' hn

/-- Whoever has the lock after an answer shares it with edits only that leave it in place. -/
theorem IsSound.spares_answered (heditor : e'.editor = e.editor) (htarget : e'.target = e.target)
    (hpermits : o.Permits (some (n, q))) (hgranted : e.notes q a ≠ none) (hlock' : e'.HasLock)
    (rest : Activity Unit) : (e.answered q a rest).Spares ∧ e'.Spares := by
  by_cases hasked : ∃ id holder now, q = .store (.lockFunnel id holder now)
  · obtain ⟨id, holder, now, rfl⟩ := hasked
    obtain ⟨hspares, hspares'⟩ := hpermits e n' e' he he' hn hlock' heditor htarget
    -- the other edit has the lock, so the answer is that it is not new
    obtain ⟨since, _, hheld⟩ := h.lock_of_hasLock he' hlock' hspares'
    obtain ⟨g, hfollows, _, _⟩ := h.edits n e he
    rw [hq] at hfollows
    refine ⟨⟨?_, hspares.2⟩, hspares'⟩
    cases hserved with
    | outside hother => exact absurd rfl (hother _)
    | store =>
      obtain ⟨rfl, rfl⟩ : id = e.target ∧ holder = e.editor := by
        cases g with
        | away => exact ⟨hfollows.1.1, hfollows.1.2.1⟩
        | _ => exact hfollows.1.elim
      rw [htarget, heditor] at hheld
      change e.notes _ _ ≠ some true
      rw [MemoryStore.answer_lockFunnel_of_lock hheld rfl]
      exact nofun
  · have hnotes : e.notes q a = e.granted :=
      Edit.notes_eq fun id holder now hasked' => hasked ⟨id, holder, now, hasked'⟩
    obtain ⟨hspares, hspares'⟩ :=
      h.shared n e n' e' he he' hn ⟨⟨q, resume, hq⟩, hnotes ▸ hgranted⟩ hlock' heditor htarget
    refine ⟨⟨?_, hspares.2⟩, hspares'⟩
    rw [Edit.answered, hnotes]
    exact hspares.1

theorem IsSound.bystander (hadmits : e.admits within q a) {g : Phase} (hnotes : e'.Notes g)
    (hway : e'.IsUnderWay) (hsees : e'.Sees within g o.store.data) :
    e'.Sees within g s'.data := by
  rintro isNew rfl
  obtain ⟨since, hsince, hlock⟩ := hsees isNew rfl
  obtain ⟨g, hfollows, hnotes₁, hsees₁⟩ := h.edits n e he
  rw [hq] at hfollows
  by_cases hsame : e'.target = e.target ∧ e'.editor = e.editor
  -- the two edits share the lock, and the one that moves does not take it away
  · obtain ⟨htarget, heditor⟩ := hsame
    have hlock' : e'.HasLock := by
      cases hnotes with
      | holds hgranted => exact ⟨hway, by simp [hgranted]⟩
    have hspares (hgranted : e.granted ≠ none) : e.Spares :=
      (h.shared n e n' e' he he' hn ⟨⟨q, resume, hq⟩, hgranted⟩ hlock' heditor htarget).1
    have hkept := hnotes₁.ne_deleteFunnel hfollows.1 hspares
    rw [htarget, heditor] at hlock ⊢
    obtain ⟨_, _, _, hheld⟩ := Edit.Sees.session_answered h.filed
      (hnotes₁.away_or_holds hfollows.1 hspares) hsince hlock hfollows.1 hkept hserved hadmits
    exact hheld
  · exact ⟨since, hsince,
      (hsees₁ ⟨q, resume, hq⟩).lock_eq hfollows.1 hserved h.window hlock hsince hsame⟩

end Proceed

theorem IsSound.step (h : o.IsSound within) (hpermits : o.Permits label)
    (hstep : Step within label o o') : o'.IsSound within := by
  cases hstep with
  | start hnew op editor target hfresh hop =>
    refine ⟨h.filed, h.window, fun n₁ e₁ n₂ e₂ he₁ he₂ hn hlock₁ hlock₂ => ?_, fun n' e' he' => ?_⟩
    · rcases edit_of_update he₁ with ⟨_, rfl⟩ | ⟨_, he₁⟩
      · exact absurd rfl hlock₁.2
      · rcases edit_of_update he₂ with ⟨_, rfl⟩ | ⟨_, he₂⟩
        · exact absurd rfl hlock₂.2
        · exact h.shared n₁ e₁ n₂ e₂ he₁ he₂ hn hlock₁ hlock₂
    · rcases edit_of_update he' with ⟨rfl, rfl⟩ | ⟨_, he'⟩
      · exact ⟨.away, Edit.start_follows hfresh hop, .away rfl, fun _ => nofun⟩
      · exact h.edits n' e' he'
  | @proceed _ n e he q resume hq a s' hserved hadmits =>
    obtain ⟨g, hfollows, hnotes, hsees⟩ := h.edits n e he
    have hway : e.IsUnderWay := ⟨q, resume, hq⟩
    rw [hq] at hfollows
    obtain ⟨g', hreplies, hsees'⟩ := (hsees hway).answered h.filed hfollows.1 hserved hadmits
    have hwindow : IsWindow s'.data.funnelTtl within := by
      rw [hserved.funnelTtl_eq]
      exact h.window
    refine ⟨Edit.filed_of_asks h.filed hfollows.1 hserved, hwindow,
      fun n₁ e₁ n₂ e₂ he₁ he₂ hn hlock₁ hlock₂ heditor htarget => ?_, fun n' e' he' => ?_⟩
    · rcases edit_of_update he₁ with ⟨rfl, rfl⟩ | ⟨hn₁, hold₁⟩
      · rcases edit_of_update he₂ with ⟨rfl, rfl⟩ | ⟨_, hold₂⟩
        · exact absurd rfl hn
        · exact h.spares_answered he hq hserved hold₂ hn heditor htarget hpermits hlock₁.2 hlock₂ _
      · rcases edit_of_update he₂ with ⟨rfl, rfl⟩ | ⟨_, hold₂⟩
        · exact (h.spares_answered he hq hserved hold₁ hn₁ heditor.symm htarget.symm hpermits
            hlock₂.2 hlock₁ _).symm
        · exact h.shared n₁ e₁ n₂ e₂ hold₁ hold₂ hn hlock₁ hlock₂ heditor htarget
    · rcases edit_of_update he' with ⟨rfl, rfl⟩ | ⟨hn, he'⟩
      · exact ⟨g', hfollows.2 a g' hreplies, hnotes.answered hfollows.1 hreplies _, fun _ => hsees'⟩
      · obtain ⟨g₁, hfollows₁, hnotes₁, hsees₁⟩ := h.edits n' e' he'
        exact ⟨g₁, hfollows₁, hnotes₁, fun hway' =>
          h.bystander he hq hserved he' hn hadmits hnotes₁ hway' (hsees₁ hway')⟩

theorem IsSession.step (hsound : o.IsSound within) (h : o.IsSession within editor id)
    (hstep : Step within label o o') (hkept : ∀ n, label ≠ some (n, .store (.deleteFunnel id))) :
    o'.IsSession within editor id := by
  obtain ⟨since, hsince, hlock⟩ := h.lock
  cases hstep with
  | start hnew op editor' target hfresh hop =>
    refine ⟨h.lock, fun n' e' he' hway' heditor htarget => ?_⟩
    rcases edit_of_update he' with ⟨rfl, rfl⟩ | ⟨_, he'⟩
    · exact ⟨.away, .inl rfl, Edit.start_follows hfresh hop⟩
    · exact h.edits n' e' he' hway' heditor htarget
  | @proceed _ n e he q resume hq a s' hserved hadmits =>
    have hway : e.IsUnderWay := ⟨q, resume, hq⟩
    by_cases hsame : id = e.target ∧ editor = e.editor
    · obtain ⟨rfl, rfl⟩ := hsame
      obtain ⟨g, hg, hfollows⟩ := h.edits n e he hway rfl rfl
      rw [hq] at hfollows
      have hq' : q ≠ .store (.deleteFunnel e.target) := by
        rintro rfl
        exact hkept n rfl
      obtain ⟨g', hreplies, hg', hheld⟩ := Edit.Sees.session_answered hsound.filed hg hsince hlock
        hfollows.1 hq' hserved hadmits
      refine ⟨hheld, fun n' e' he' hway' heditor htarget => ?_⟩
      rcases edit_of_update he' with ⟨rfl, rfl⟩ | ⟨_, he'⟩
      · exact ⟨g', hg', hfollows.2 a g' hreplies⟩
      · exact h.edits n' e' he' hway' heditor htarget
    · obtain ⟨g, hfollows, _, hsees⟩ := hsound.edits n e he
      rw [hq] at hfollows
      have hlock' := (hsees hway).lock_eq hfollows.1 hserved hsound.window hlock hsince hsame
      refine ⟨⟨since, hsince, hlock'⟩, fun n' e' he' hway' heditor htarget => ?_⟩
      rcases edit_of_update he' with ⟨rfl, rfl⟩ | ⟨_, he'⟩
      · exact absurd ⟨htarget.symm, heditor.symm⟩ hsame
      · exact h.edits n' e' he' hway' heditor htarget

theorem IsSound.session {n : Nat} {q : Request} {e e₁ : Edit} (h : o.IsSound within)
    (he : o.edits n = some e) (hlock : e.op.IsLock) (hpermits : o.Permits (some (n, q)))
    (hstep : Step within (some (n, q)) o o') (he₁ : o'.edits n = some e₁)
    (hdone : e₁.rest = .done (.ok ())) : o'.IsSession within e.editor e.target := by
  cases hstep with
  | @proceed _ _ e' he' _ resume hq a s' hserved hadmits =>
    obtain rfl : e' = e := Option.some.inj (he'.symm.trans he)
    obtain rfl : e'.answered q a (resume a) = e₁ := by
      rcases edit_of_update he₁ with ⟨_, hanswered⟩ | ⟨hne, _⟩
      · exact hanswered.symm
      · exact absurd rfl hne
    obtain ⟨g, hfollows, hnotes, hsees⟩ := h.edits n e' he
    have hway : e'.IsUnderWay := ⟨q, resume, hq⟩
    rw [hq] at hfollows
    obtain ⟨g', hreplies, hsees'⟩ := (hsees hway).answered h.filed hfollows.1 hserved hadmits
    have hends := hfollows.2 a g' hreplies
    rw [show resume a = .done (.ok ()) from hdone] at hends
    obtain ⟨isNew, rfl⟩ := hends hlock rfl
    have hgranted : e'.notes q a ≠ none := by
      cases hnotes.answered hfollows.1 hreplies (resume a) with
      | holds hnoted =>
        intro hnone
        cases hnoted.symm.trans hnone
    refine ⟨hsees' isNew rfl, fun n₂ e₂ he₂ hway₂ heditor htarget => ?_⟩
    rcases edit_of_update he₂ with ⟨rfl, rfl⟩ | ⟨hn, he₂⟩
    · obtain ⟨_, _, hrest⟩ := hway₂
      cases hdone.symm.trans hrest
    · obtain ⟨g₂, hfollows₂, hnotes₂, _⟩ := h.edits n₂ e₂ he₂
      refine ⟨g₂, ?_, hfollows₂⟩
      have hspares (hgranted₂ : e₂.granted ≠ none) : e₂.Spares :=
        (h.spares_answered he hq hserved he₂ hn heditor htarget hpermits hgranted
          ⟨hway₂, hgranted₂⟩ (resume a)).2
      obtain ⟨q₂, resume₂, hq₂⟩ := hway₂
      rw [hq₂] at hfollows₂
      exact hnotes₂.away_or_holds hfollows₂.1 hspares

end Step

def Reaches (within : Instant → Prop) (allowed : Office → Option (Nat × Request) → Prop) :
    Office → Office → Prop :=
  ReflTransGen fun o o' => ∃ label, allowed o label ∧ Step within label o o'

def PermitsKeeping (id : String) (o : Office) (label : Option (Nat × Request)) : Prop :=
  o.Permits label ∧ ∀ n, label ≠ some (n, .store (.deleteFunnel id))

theorem Reaches.mono {allowed allowed' : Office → Option (Nat × Request) → Prop}
    (hallowed : ∀ o label, allowed o label → allowed' o label) (h : Reaches within allowed o o') :
    Reaches within allowed' o o' :=
  ReflTransGen.mono (fun _ _ ⟨label, hlabel, hstep⟩ => ⟨label, hallowed _ _ hlabel, hstep⟩) _ _ h

theorem IsSound.reaches (h : o.IsSound within) (hreaches : Reaches within Permits o o') :
    o'.IsSound within := by
  induction hreaches with
  | refl => exact h
  | tail _ hstep ih =>
    obtain ⟨label, hpermits, hstep⟩ := hstep
    exact ih.step hpermits hstep

theorem IsSession.reaches {editor id : String} (hsound : o.IsSound within)
    (h : o.IsSession within editor id) (hreaches : Reaches within (PermitsKeeping id) o o') :
    o'.IsSession within editor id := by
  induction hreaches with
  | refl => exact h
  | tail hreaches hstep ih =>
    obtain ⟨label, ⟨_, hkept⟩, hstep⟩ := hstep
    have hsound' := hsound.reaches (Reaches.mono (fun _ _ => And.left) hreaches)
    exact ih.step hsound' hstep hkept

theorem IsSound.holder_of_written {n : Nat} {q : Request} {e : Edit} {id : String}
    (h : o.IsSound within) (he : o.edits n = some e) (hstep : Step within (some (n, q)) o o')
    (hwritten : Edit.written q = some id) : o.store.data.funnelHolder id = some e.editor := by
  cases hstep with
  | @proceed _ _ e₁ he₁ _ resume hq a s' hserved hadmits =>
    obtain rfl : e₁ = e := Option.some.inj (he₁.symm.trans he)
    obtain ⟨g, hfollows, _, hsees⟩ := h.edits n e₁ he
    rw [hq] at hfollows
    obtain ⟨isNew, rfl, rfl⟩ := Edit.holds_of_written hfollows.1 hwritten
    obtain ⟨since, _, hlock⟩ := hsees ⟨q, resume, hq⟩ isNew rfl
    exact MemoryStore.funnelHolder_eq_some_iff.mpr ⟨_, hlock, rfl⟩

/-- As long as no edit asks for a lock that another edit of its editor is going to give back or to
delete, every write and every deletion of a funnel is made by the holder of its lock; and an editor
who was granted the lock for a session has it until the store is asked to delete the funnel. -/
theorem edits_under_lock (hfiled : o.store.data.IsFiled)
    (hwindow : IsWindow o.store.data.funnelTtl within) (hfresh : ∀ n, o.edits n = none)
    (h : Reaches within Permits o o') :
    (∀ n q e id o₁, o'.edits n = some e → Step within (some (n, q)) o' o₁ →
      Edit.written q = some id → o'.store.data.funnelHolder id = some e.editor) ∧
    ∀ n q e e₁ o₁ o₂, o'.edits n = some e → e.op.IsLock → o'.Permits (some (n, q)) →
      Step within (some (n, q)) o' o₁ → o₁.edits n = some e₁ → e₁.rest = .done (.ok ()) →
      Reaches within (PermitsKeeping e.target) o₁ o₂ →
      o₂.store.data.funnelHolder e.target = some e.editor := by
  have hstart : o.IsSound within := by
    refine ⟨hfiled, hwindow, ?_, ?_⟩
    · intro n e _ _ he
      rw [hfresh n] at he
      cases he
    · intro n e he
      rw [hfresh n] at he
      cases he
  have hsound := hstart.reaches h
  refine ⟨fun n q e id o₁ he hstep hwritten => hsound.holder_of_written he hstep hwritten, ?_⟩
  intro n q e e₁ o₁ o₂ he hlock hpermits hstep he₁ hdone hreaches
  have hsession := hsound.session he hlock hpermits hstep he₁ hdone
  obtain ⟨since, _, hheld⟩ := (hsession.reaches (hsound.step hpermits hstep) hreaches).lock
  exact MemoryStore.funnelHolder_eq_some_iff.mpr ⟨_, hheld, rfl⟩

section Example

def opened : Office :=
  let saved := { draft with createdAt := some ⟨0, none⟩, updatedAt := some ⟨0, none⟩ }
  { store := ⟨.first, (MemoryStore.empty ⟨0⟩ ⟨900000000⟩).putFunnel saved⟩
    edits := fun _ => none }

def begin (o : Office) (n : Nat) (editor : String) (op : Operation) : Office :=
  { o with
    edits := Function.update o.edits n (some ⟨op, editor, "draft", "fresh", none, op.by editor⟩) }

def next (o : Office) (n : Nat) : Office :=
  match o.edits n with
  | some ⟨op, editor, target, fresh, granted, .ask q resume⟩ =>
    let e : Edit := ⟨op, editor, target, fresh, granted, .ask q resume⟩
    let (a, s') := still ⟨0, none⟩ fresh q o.store
    ⟨s', Function.update o.edits n (some (e.answered q a (resume a)))⟩
  | _ => o

theorem step_next {n : Nat} {e : Edit} {q : Request} {resume : q.Answer → Activity Unit}
    (he : o.edits n = some e) (hq : e.rest = .ask q resume) :
    Step (· = ⟨0, none⟩) (some (n, q)) o (o.next n) := by
  have hadmits : e.admits (· = ⟨0, none⟩) q (still ⟨0, none⟩ e.fresh q o.store).1 := by
    cases q <;> trivial
  obtain ⟨op, editor, target, fresh, granted, rest⟩ := e
  obtain rfl : rest = .ask q resume := hq
  have hstep := Step.proceed he rfl (still_served ⟨0, none⟩ fresh q o.store) hadmits
  rwa [next, he]

theorem filed_opened : opened.store.data.IsFiled := by
  have hempty : (MemoryStore.empty ⟨0⟩ ⟨900000000⟩).IsFiled := nofun
  refine hempty.changes (.saveFunnel _) ?_
  rintro _ ⟨⟩
  decide

theorem window_opened : IsWindow opened.store.data.funnelTtl (· = ⟨0, none⟩) := by
  rintro _ _ rfl rfl
  exact ⟨⟨900000000, none⟩, rfl, rfl, rfl⟩

section Reaches

variable {allowed : Office → Option (Nat × Request) → Prop} {o₀ : Office} {n : Nat} {e : Edit}
  {q : Request} {resume : q.Answer → Activity Unit}

theorem Reaches.next (h : Reaches (· = ⟨0, none⟩) allowed o₀ o) (n : Nat)
    (he : o.edits n = some e) (hq : e.rest = .ask q resume) (hallowed : allowed o (some (n, q))) :
    Reaches (· = ⟨0, none⟩) allowed o₀ (o.next n) :=
  h.tail ⟨_, hallowed, step_next he hq⟩

theorem Reaches.begin {editor : String} {op : Operation}
    (h : Reaches (· = ⟨0, none⟩) allowed o₀ o) (hnew : o.edits n = none)
    (hop : op.IsAbout "fresh" "draft") (hallowed : allowed o none) :
    Reaches (· = ⟨0, none⟩) allowed o₀ (o.begin n editor op) :=
  h.tail ⟨none, hallowed, .start hnew op editor "draft" (by decide) hop⟩

def isPlain : Request → Bool
  | .store (.lockFunnel ..) | .store (.deleteFunnel _) => false
  | _ => true

theorem permitsKeeping_of_isPlain (h : isPlain q = true) (id : String) :
    PermitsKeeping id o (some (n, q)) := by
  refine ⟨?_, ?_⟩
  · unfold Permits
    split
    · next heq =>
      cases heq
      cases h
    · trivial
  · rintro _ ⟨⟩
    cases h

theorem permits_of_spares (h : ∀ e n' e', o.edits n = some e → o.edits n' = some e' → n' ≠ n →
    e'.HasLock → e.Spares ∧ e'.Spares) (q : Request) : o.Permits (some (n, q)) := by
  unfold Permits
  split
  · next heq =>
    cases heq
    exact fun e n' e' he he' hn hlock _ _ => h e n' e' he he' hn hlock
  · trivial

theorem not_hasLock_of_done {result : Except Fault Unit} (h : e.rest = .done result) :
    ¬ e.HasLock := by
  rintro ⟨⟨_, _, hrest⟩, _⟩
  cases h.symm.trans hrest

abbrev ReachesKeeping : Office → Office → Prop :=
  Reaches (· = ⟨0, none⟩) (PermitsKeeping "draft")

theorem ReachesKeeping.plain (h : ReachesKeeping o₀ o) (n : Nat) (he : o.edits n = some e)
    (hq : e.rest = .ask q resume) (hplain : isPlain q = true) : ReachesKeeping o₀ (o.next n) :=
  h.next n he hq (permitsKeeping_of_isPlain hplain _)

theorem ReachesKeeping.begin {editor : String} {op : Operation} (h : ReachesKeeping o₀ o)
    (hnew : o.edits n = none) (hop : op.IsAbout "fresh" "draft") :
    ReachesKeeping o₀ (o.begin n editor op) :=
  Reaches.begin h hnew hop ⟨trivial, nofun⟩

theorem ReachesKeeping.lock (h : ReachesKeeping o₀ o) (n : Nat) {id holder : String} {now : Instant}
    {resume : Except Fault Bool → Activity Unit} (he : o.edits n = some e)
    (hq : e.rest = .ask (.store (.lockFunnel id holder now)) resume)
    (hpermits : ∀ q, o.Permits (some (n, q))) : ReachesKeeping o₀ (o.next n) := by
  refine h.next n he hq ⟨hpermits _, ?_⟩
  rintro _ ⟨⟩

end Reaches

/-- The first editor is about to be granted the lock for a session. -/
def granting : Office := ((opened.begin 0 "ada" (.lock "draft")).next 0).next 0

/-- In the session the editor has begun two edits, which are about to ask for the lock. -/
def entering : Office :=
  ((((granting.next 0).begin 1 "ada" (.setActive "draft" false)).begin 2 "ada"
    (.setActive "draft" false)).next 1).next 2

/-- Both have been granted the lock, and the first is about to write. -/
def working : Office := ((entering.next 1).next 2).next 1

/-- The edits are done, and another editor is about to ask for the lock. -/
def knocking : Office :=
  ((((working.next 1).next 2).next 2).begin 3 "bob" (.delete "draft")).next 3

theorem reaches_granting : ReachesKeeping opened granting := by
  have hlock : ReachesKeeping opened (opened.begin 0 "ada" (.lock "draft")) :=
    ReachesKeeping.begin .refl rfl rfl
  exact (hlock.plain 0 rfl rfl rfl).plain 0 rfl rfl rfl

theorem permits_granting (q : Request) : granting.Permits (some (0, q)) := by
  refine permits_of_spares ?_ q
  rintro _ (_ | n) _ ⟨⟩ ⟨⟩ hn
  exact absurd rfl hn

theorem reaches_working : ReachesKeeping (granting.next 0) working := by
  have hfirst : ReachesKeeping (granting.next 0)
      ((granting.next 0).begin 1 "ada" (.setActive "draft" false)) :=
    ReachesKeeping.begin .refl rfl rfl
  have hsecond : ReachesKeeping (granting.next 0)
      (((granting.next 0).begin 1 "ada" (.setActive "draft" false)).begin 2 "ada"
        (.setActive "draft" false)) := hfirst.begin rfl rfl
  have hentering : ReachesKeeping (granting.next 0) entering :=
    (hsecond.plain 1 rfl rfl rfl).plain 2 rfl rfl rfl
  have hpermits : ∀ q, entering.Permits (some (1, q)) := by
    refine permits_of_spares ?_
    rintro _ (_ | _ | _ | n) _ ⟨⟩ ⟨⟩ hn hlock
    · exact absurd hlock (not_hasLock_of_done rfl)
    · exact absurd rfl hn
    · exact absurd rfl hlock.2
  have hpermits' : ∀ q, (entering.next 1).Permits (some (2, q)) := by
    refine permits_of_spares ?_
    rintro _ (_ | _ | _ | n) _ ⟨⟩ ⟨⟩ hn hlock
    · exact absurd hlock (not_hasLock_of_done rfl)
    · exact ⟨⟨nofun, rfl⟩, nofun, rfl⟩
    · exact absurd rfl hn
  exact ((hentering.lock 1 rfl rfl hpermits).lock 2 rfl rfl hpermits').plain 1 rfl rfl rfl

theorem reaches_refusing : ReachesKeeping (granting.next 0) (knocking.next 3) := by
  have hdone : ReachesKeeping (granting.next 0) (((working.next 1).next 2).next 2) :=
    ((reaches_working.plain 1 rfl rfl rfl).plain 2 rfl rfl rfl).plain 2 rfl rfl rfl
  have hbegun : ReachesKeeping (granting.next 0) ((((working.next 1).next 2).next 2).begin 3 "bob"
    (.delete "draft")) := hdone.begin rfl rfl
  refine (hbegun.plain 3 rfl rfl rfl).lock 3 rfl rfl ?_
  refine permits_of_spares ?_
  rintro _ (_ | _ | _ | _ | n) _ ⟨⟩ ⟨⟩ hn hlock
  · exact absurd hlock (not_hasLock_of_done rfl)
  · exact absurd hlock (not_hasLock_of_done rfl)
  · exact absurd hlock (not_hasLock_of_done rfl)
  · exact absurd rfl hn

/-- In a session two edits of its editor write the draft, and nobody else gets in. -/
theorem crossing_edits_under_lock :
    opened.store.data.IsFiled ∧ IsWindow opened.store.data.funnelTtl (· = ⟨0, none⟩) ∧
    Reaches (· = ⟨0, none⟩) Permits opened granting ∧
    Reaches (· = ⟨0, none⟩) Permits opened working ∧
    working.store.data.funnelHolder "draft" = some "ada" ∧
    ReachesKeeping (granting.next 0) (knocking.next 3) ∧
    (knocking.next 3).store.data.funnelHolder "draft" = some "ada" := by
  have hgranting := Reaches.mono (fun _ _ => And.left) reaches_granting
  have hworking : Reaches (· = ⟨0, none⟩) Permits opened working :=
    (hgranting.next 0 rfl rfl (permits_granting _)).trans
      (Reaches.mono (fun _ _ => And.left) reaches_working)
  have hwriting := (edits_under_lock filed_opened window_opened (fun _ => rfl) hworking).1
  have hsession := (edits_under_lock filed_opened window_opened (fun _ => rfl) hgranting).2
  refine ⟨filed_opened, window_opened, hgranting, hworking, ?_, reaches_refusing, ?_⟩
  · exact hwriting 1 _ _ "draft" _ rfl (step_next rfl rfl) rfl
  · exact hsession 0 _ _ _ _ _ rfl trivial (permits_granting _) (step_next rfl rfl) rfl rfl
      reaches_refusing

/-- While an edit of the draft goes on under the lock that it took, its editor is about to be
granted the lock for a session. -/
def sharing : Office :=
  ((((((opened.begin 0 "ada" (.setActive "draft" false)).next 0).next 0).begin 1 "ada"
    (.lock "draft")).next 1).next 1)

def released : Office := ((((sharing.next 1).next 0).next 0).next 0)

theorem reaches_sharing : Reaches (· = ⟨0, none⟩) (fun _ _ => True) opened sharing := by
  have hstatus : Reaches (· = ⟨0, none⟩) (fun _ _ => True) opened
      (opened.begin 0 "ada" (.setActive "draft" false)) := .begin .refl rfl rfl trivial
  have hlock : Reaches (· = ⟨0, none⟩) (fun _ _ => True) opened
      ((((opened.begin 0 "ada" (.setActive "draft" false)).next 0).next 0).begin 1 "ada"
        (.lock "draft")) :=
    ((hstatus.next 0 rfl rfl trivial).next 0 rfl rfl trivial).begin rfl rfl trivial
  exact (hlock.next 1 rfl rfl trivial).next 1 rfl rfl trivial

/-- An edit that took the lock gives it back, though its editor has been granted it since. -/
theorem lock_lost_to_own_edit :
    ¬ ∀ (within : Instant → Prop) (o o' o₁ o₂ : Office) (n : Nat) (q : Request) (e e₁ : Edit),
      o.store.data.IsFiled → IsWindow o.store.data.funnelTtl within → (∀ n, o.edits n = none) →
      Reaches within (fun _ _ => True) o o' → o'.edits n = some e → e.op.IsLock →
      Step within (some (n, q)) o' o₁ → o₁.edits n = some e₁ → e₁.rest = .done (.ok ()) →
      Reaches within (fun _ label => ∀ n, label ≠ some (n, .store (.deleteFunnel e.target))) o₁ o₂ →
      o₂.store.data.funnelHolder e.target = some e.editor := by
  intro h
  have hgranted : Reaches (· = ⟨0, none⟩)
      (fun _ label => ∀ n, label ≠ some (n, .store (.deleteFunnel "draft"))) (sharing.next 1)
      (sharing.next 1) := .refl
  have hreleased := ((hgranted.next 0 rfl rfl nofun).next 0 rfl rfl nofun).next 0 rfl rfl nofun
  have hheld := h _ _ _ _ _ 1 _ _ _ filed_opened window_opened (fun _ => rfl) reaches_sharing rfl
    trivial (step_next rfl rfl) rfl rfl hreleased
  cases hheld

end Example

end Office

end Editing

end FunnelFlow
