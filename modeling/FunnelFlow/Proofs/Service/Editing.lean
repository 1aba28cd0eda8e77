import FunnelFlow.Service.Editing
import FunnelFlow.Proofs.Activity
import FunnelFlow.Proofs.Funnel.Forward
import FunnelFlow.Proofs.Store.Memory

namespace FunnelFlow.Editing

open Activity

def terms : Terms where
  asks
    | .store (.saveFunnel f) => f.IsSound
    | .store (.getFunnel _) | .store .listFunnels | .store (.deleteFunnel _)
    | .store (.lockFunnel ..) | .store (.unlockFunnel ..) => True
    | .store _ => False
    | _ => True
  replies
    | .store (.getFunnel _) => OnSuccess fun (found : Option Funnel) => ∀ f ∈ found, f.IsSound
    | _ => fun _ => True

theorem terms_preserve : terms.Preserve fun s => s.data.KeepsSound := by
  intro r s s' a hs hasks hserved
  cases hserved with
  | outside hr =>
    refine ⟨hs, ?_⟩
    cases r with
    | store call => exact absurd rfl (hr call)
    | _ => trivial
  | store call =>
    have hsaved : ∀ f, call = .saveFunnel f → f.IsSound := by
      rintro f rfl
      exact hasks
    refine ⟨hs.changes (MemoryStore.answer_changes call s) hsaved, ?_⟩
    cases call with
    | getFunnel id =>
      intro found hfound f hf
      obtain rfl : found = some f := hf
      have hback := (MemoryStore.getFunnel_reads hs id).of_run hfound
      generalize s.data.funnels.get? id = document at hback
      cases hback with
      | some hback => exact hback.toIsSound
    | _ => trivial

theorem ensureActivatable_abides (f : Funnel) :
    (ensureActivatable f).Abides terms
      (OnSuccess fun _ => f.isActive = true → f.violations = []) := by
  unfold ensureActivatable
  split
  · exact OnSuccess.error _
  · next h => exact OnSuccess.ok fun hactive => by simpa [hactive] using h

theorem withLock_abides {α : Type} {p : α → Prop} (id editor : String) (now : Instant)
    {act : Activity α} (h : act.Abides terms (OnSuccess p)) :
    (withLock id editor now act).Abides terms (OnSuccess p) := by
  have hlock : (store (.lockFunnel id editor now)).Abides terms (OnSuccess fun _ => True) :=
    .ofStore trivial
  have hunlock : (store (.unlockFunnel id editor)).Abides terms (OnSuccess fun _ => True) :=
    .ofStore trivial
  refine hlock.andThen fun isNew _ => h.attempt.bind ?_ nofun
  rintro r ⟨_, ⟨⟩, hr⟩
  dsimp only
  split
  · exact hunlock.andThen fun _ _ => hr
  · exact hr

theorem readFunnel_abides (document : Value) :
    (readFunnel (ofDocument document)).Abides terms (OnSuccess Funnel.HasNoEmptyReference) := by
  have hfinish (fresh : String) : (finish ((ofDocument document).result fresh)).Abides terms
      (OnSuccess Funnel.HasNoEmptyReference) := by
    intro f hf
    dsimp only [ofDocument] at hf
    split at hf
    · next g hg =>
      obtain rfl : g.inferStart = f := by simpa using hf
      -- the start may be inferred, but the nodes stay what they are
      have hnodes : g.inferStart.nodes = g.nodes := by
        unfold Funnel.inferStart
        split <;> rfl
      rw [Funnel.HasNoEmptyReference, hnodes]
      exact Funnel.hasNoEmptyReference_of_ofDocument hg
    · cases hf
  have hid : (request .funnelId).Abides terms (OnSuccess fun _ => True) := .ofRequest trivial
  unfold readFunnel
  dsimp only
  split
  · exact hid.andThen fun fresh _ => hfinish fresh
  · exact hfinish ""

theorem clock_abides : clock.Abides terms (OnSuccess fun _ => True) := .ofRequest trivial

theorem getFunnel_abides (id : String) :
    (store (.getFunnel id)).Abides terms
      (OnSuccess fun (found : Option Funnel) => ∀ f ∈ found, f.IsSound) :=
  Abides.store trivial fun _ h => h

theorem write_abides {f : Funnel} (h : f.HasNoEmptyReference) (now : Instant) :
    (write f now).Abides terms (OnSuccess fun _ => True) := by
  apply (ensureActivatable_abides f).andThen
  intro _ hactive
  apply (getFunnel_abides f.id).andThen
  intro existing _
  exact .ofStore (Funnel.isSound_of_skeleton (f := f) rfl h hactive)

theorem save_abides (document : Value) (editor : String) :
    (save document editor).Abides terms (OnSuccess fun _ => True) := by
  apply (readFunnel_abides document).andThen
  intro f hf
  apply clock_abides.andThen
  intro now _
  apply withLock_abides f.id editor now
  apply Abides.during .savingFunnel
  exact (write_abides hf now).andThen fun _ _ => .ok trivial

theorem detail_abides (id : String) : (detail id).Abides terms (OnSuccess Funnel.IsSound) := by
  apply (getFunnel_abides id).andThen
  intro found hfound
  split
  · next f => exact OnSuccess.ok (hfound f rfl)
  · exact OnSuccess.error _

theorem setActive_abides (id : String) (active : Bool) (editor : String) :
    (setActive id active editor).Abides terms (OnSuccess fun _ => True) := by
  apply clock_abides.andThen
  intro now _
  apply withLock_abides id editor now
  apply (detail_abides id).andThen
  intro f hf
  let g := { f with isActive := active }
  apply (ensureActivatable_abides g).andThen
  intro _ hactive
  exact .ofStore (Funnel.isSound_of_skeleton (f := g) rfl hf.references hactive)

theorem delete_abides (id editor : String) :
    (delete id editor).Abides terms (OnSuccess fun _ => True) := by
  apply clock_abides.andThen
  intro now _
  have hdelete : (store (.deleteFunnel id)).Abides terms (OnSuccess fun _ => True) :=
    .ofStore trivial
  apply (withLock_abides id editor now hdelete).andThen
  intro deleted _
  split
  · exact OnSuccess.error _
  · exact OnSuccess.ok trivial

theorem lock_abides (id editor : String) :
    (lock id editor).Abides terms (OnSuccess fun _ => True) := by
  apply (detail_abides id).andThen
  intro _ _
  apply clock_abides.andThen
  intro now _
  have hlock : (store (.lockFunnel id editor now)).Abides terms (OnSuccess fun _ => True) :=
    .ofStore trivial
  exact hlock.andThen fun _ _ => .ok trivial

theorem unlock_abides (id editor : String) :
    (unlock id editor).Abides terms (OnSuccess fun _ => True) :=
  .ofStore trivial

theorem list_abides : list.Abides terms (OnSuccess fun _ => True) :=
  .during .listingFunnels (.ofStore trivial)

theorem ensurePostFunnel_abides (editor : String) :
    (ensurePostFunnel editor).Abides terms (OnSuccess fun _ => True) := by
  have hid : (request .funnelId).Abides terms (OnSuccess fun _ => True) := .ofRequest trivial
  apply list_abides.andThen
  intro found _
  split
  · exact OnSuccess.ok trivial
  · apply hid.andThen
    intro id _
    exact (save_abides _ editor).andThen fun _ _ => .ok trivial

inductive Operation where
  | save (document : Value)
  | setActive (id : String) (active : Bool)
  | delete (id : String)
  | lock (id : String)
  | unlock (id : String)
  | ensurePostFunnel

def Operation.by (editor : String) : Operation → Activity Unit
  | .save document => discard (Editing.save document editor)
  | .setActive id active => discard (Editing.setActive id active editor)
  | .delete id => Editing.delete id editor
  | .lock id => Editing.lock id editor
  | .unlock id => discard (Editing.unlock id editor)
  | .ensurePostFunnel => discard (Editing.ensurePostFunnel editor)

theorem Operation.by_abides (editor : String) (op : Operation) :
    (op.by editor).Abides terms (OnSuccess fun _ => True) := by
  have hdiscard {α : Type} {act : Activity α} (h : act.Abides terms (OnSuccess fun _ => True)) :
      (discard act).Abides terms (OnSuccess fun _ => True) :=
    h.andThen fun _ _ => .ok trivial
  cases op with
  | save document => exact hdiscard (save_abides document editor)
  | setActive id active => exact hdiscard (setActive_abides id active editor)
  | delete id => exact delete_abides id editor
  | lock id => exact lock_abides id editor
  | unlock id => exact hdiscard (unlock_abides id editor)
  | ensurePostFunnel => exact hdiscard (ensurePostFunnel_abides editor)

/-- The stores that editors can leave behind: from an empty one, by operations one after another,
with any answers to what is asked outside the store, each with whatever result. -/
inductive Reachable (runTtl funnelTtl : Span) : Stored MemoryStore → Prop
  | empty (ids : IdSupply) : Reachable runTtl funnelTtl ⟨ids, .empty runTtl funnelTtl⟩
  | next {s s' : Stored MemoryStore} (h : Reachable runTtl funnelTtl s) (editor : String)
    (op : Operation) (result : Except Fault Unit) (hrun : (op.by editor).CarriedOut s result s') :
    Reachable runTtl funnelTtl s'

variable {runTtl funnelTtl : Span} {s : Stored MemoryStore}

theorem Reachable.keepsSound (h : Reachable runTtl funnelTtl s) : s.data.KeepsSound := by
  induction h with
  | empty ids => exact nofun
  | next _ editor op result hrun ih =>
    exact ((op.by_abides editor).preserves terms_preserve hrun ih).1

/-- What is read back from a document is as active as the document says, and without violations if
it is active. -/
structure ReadsValid (document : Value) (f : Funnel) : Prop where
  isActive : f.isActive = MemoryStore.isMarkedActive document
  valid : f.isActive = true → f.violations = []

theorem readsValid_of_readsBack {document : Value} {f : Funnel}
    (h : MemoryStore.ReadsBack document f) : ReadsValid document f :=
  ⟨h.isActive, h.active⟩

/-- However editors got there, every funnel is read back from the store as active as it was stored,
and those that are active have no violations. -/
theorem active_without_violations (h : Reachable runTtl funnelTtl s) :
    (∀ id, (MemoryStore.getFunnel id).Reads s (Option.Rel ReadsValid (s.data.funnels.get? id))) ∧
    MemoryStore.listFunnels.Reads s (List.Forall₂ (fun e f => ReadsValid e.2 f) s.data.funnels) ∧
    ∀ trigger : Trigger, (MemoryStore.activeFunnels trigger.name).Reads s (List.Forall₂
      (fun e f => ReadsValid e.2 f ∧ f.isActive = true ∧ f.trigger = trigger)
      (s.data.funnels.filter fun e =>
        MemoryStore.isMarkedActive e.2 && MemoryStore.isMarkedFor trigger e.2)) := by
  have hs := h.keepsSound
  refine ⟨fun id => ?_, ?_, fun trigger => ?_⟩
  · apply (MemoryStore.getFunnel_reads hs id).mono
    generalize s.data.funnels.get? id = document
    intro found hfound
    cases hfound with
    | some hback => exact .some (readsValid_of_readsBack hback)
    | none => exact .none
  · apply (MemoryStore.listFunnels_reads hs).mono
    intro found hfound
    exact hfound.imp fun e f hback => readsValid_of_readsBack hback
  · apply (MemoryStore.activeFunnels_reads hs trigger).mono
    intro found hfound
    exact hfound.imp fun e f hback => ⟨readsValid_of_readsBack hback.1, hback.2⟩

theorem readFunnel_welcome :
    readFunnel (ofDocument (.object Funnel.welcome.toDocument)) = pure Funnel.welcome := by
  rfl

theorem welcome_active_without_violations :
    ∃ s, Reachable ⟨0⟩ ⟨0⟩ s ∧ s.data.funnels.has "welcome" = true ∧
      (∀ id, (MemoryStore.getFunnel id).Reads s
        (Option.Rel ReadsValid (s.data.funnels.get? id))) ∧
      MemoryStore.listFunnels.Reads s
        (List.Forall₂ (fun e f => ReadsValid e.2 f) s.data.funnels) ∧
      ∀ trigger : Trigger, (MemoryStore.activeFunnels trigger.name).Reads s (List.Forall₂
        (fun e f => ReadsValid e.2 f ∧ f.isActive = true ∧ f.trigger = trigger)
        (s.data.funnels.filter fun e =>
          MemoryStore.isMarkedActive e.2 && MemoryStore.isMarkedFor trigger e.2)) := by
  let act := Operation.by "ada" (.save (.object Funnel.welcome.toDocument))
  have hrun := carriedOut_run (still_served ⟨0, none⟩ "") act ⟨.first, .empty ⟨0⟩ ⟨0⟩⟩
  have hreachable := (Reachable.empty .first).next "ada" _ _ hrun
  refine ⟨_, hreachable, ?_, active_without_violations hreachable⟩
  have hcheck : ensureActivatable Funnel.welcome = pure () := by
    simp [ensureActivatable, Funnel.welcome_violations]
  simp only [act, Operation.by, save, readFunnel_welcome, pure_bind, write, hcheck]
  rfl

end FunnelFlow.Editing
