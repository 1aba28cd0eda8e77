import FunnelFlow.Proofs.Funnel.Document
import FunnelFlow.Proofs.Store.Calls

namespace FunnelFlow

structure Funnel.IsSound (f : Funnel) : Prop where
  references : f.HasNoEmptyReference
  active : f.isActive = true → f.violations = []

theorem Funnel.isSound_of_skeleton {f g : Funnel} (h : f.skeleton = g.skeleton)
    (hf : f.HasNoEmptyReference) (hactive : g.isActive = true → f.violations = []) : g.IsSound := by
  refine ⟨hf.congr h, fun hg => ?_⟩
  rw [← violations_congr h]
  exact hactive hg

theorem Funnel.IsSound.reread {f : Funnel} (h : f.IsSound) (fresh : String) :
    (f.reread fresh).IsSound :=
  isSound_of_skeleton (skeleton_reread h.references fresh).symm h.references h.active

namespace MemoryStore

open StoreM

def KeepsSound (m : MemoryStore) : Prop :=
  ∀ e ∈ m.funnels, ∃ f : Funnel, f.IsSound ∧ e.2 = .object f.toDocument

def isMarkedActive : Value → Bool
  | .object fields => (Fields.get fields "isActive").isFilled
  | _ => false

def isMarkedFor (trigger : Trigger) : Value → Bool
  | .object fields => Fields.get fields "trigger" == .text trigger.name
  | _ => false

theorem isMarkedActive_toDocument (f : Funnel) :
    isMarkedActive (.object f.toDocument) = f.isActive := rfl

theorem isMarkedFor_toDocument (f : Funnel) (trigger : Trigger) :
    isMarkedFor trigger (.object f.toDocument) = (f.trigger == trigger) := by
  obtain ⟨id, name, t, isActive, start, nodes, createdAt, updatedAt⟩ := f
  cases t <;> cases trigger <;> rfl

theorem isActiveFor_toDocument (f : Funnel) (trigger : Trigger) :
    isActiveFor trigger.name (.object f.toDocument) =
      .ok (f.isActive && f.trigger == trigger) := by
  obtain ⟨id, name, t, isActive, start, nodes, createdAt, updatedAt⟩ := f
  cases isActive <;> cases t <;> cases trigger <;> rfl

structure ReadsBack (document : Value) (f : Funnel) : Prop extends f.IsSound where
  isActive : f.isActive = isMarkedActive document

theorem readDocument_reads {s : Stored MemoryStore} {f : Funnel} (hf : f.IsSound) :
    (readDocument (.object f.toDocument)).Reads s fun g =>
      ReadsBack (.object f.toDocument) g ∧ g.trigger = f.trigger :=
  .readFunnel fun fresh =>
    ⟨f.reread fresh, Funnel.ofDocument_toDocument f fresh, ⟨hf.reread fresh, rfl⟩, rfl⟩

theorem getFunnel_reads_none {s : Stored MemoryStore} {id : String}
    (h : s.data.funnels.get? id = none) : (getFunnel id).Reads s (· = none) := by
  apply Reads.bind (Reads.data rfl)
  intro m ids hm
  rw [← hm, h]
  exact .pure rfl

theorem getFunnel_reads_some {s : Stored MemoryStore} {id : String} {f : Funnel}
    (h : s.data.funnels.get? id = some (.object f.toDocument)) :
    (getFunnel id).Reads s fun found => ∃ fresh, found = some (f.reread fresh) := by
  apply Reads.bind (Reads.data rfl)
  intro m ids hm
  rw [← hm, h]
  have hread : (readDocument (.object f.toDocument)).Reads { s with ids }
      fun g => ∃ fresh, g = f.reread fresh :=
    .readFunnel fun fresh => ⟨_, Funnel.ofDocument_toDocument f fresh, fresh, rfl⟩
  exact hread.bind fun g _ ⟨fresh, hg⟩ => .pure ⟨fresh, by rw [hg]⟩

theorem getFunnel_reads {s : Stored MemoryStore} (hs : s.data.KeepsSound) (id : String) :
    (getFunnel id).Reads s (Option.Rel ReadsBack (s.data.funnels.get? id)) := by
  cases hdocument : s.data.funnels.get? id with
  | none =>
    refine (getFunnel_reads_none hdocument).mono ?_
    rintro _ rfl
    exact .none
  | some document =>
    obtain ⟨f, hf, rfl⟩ := hs _ (Table.mem_of_get? hdocument)
    refine (getFunnel_reads_some hdocument).mono ?_
    rintro _ ⟨fresh, rfl⟩
    exact .some ⟨hf.reread fresh, rfl⟩

theorem listFunnels_reads {s : Stored MemoryStore} (hs : s.data.KeepsSound) :
    listFunnels.Reads s (List.Forall₂ (fun e f => ReadsBack e.2 f) s.data.funnels) := by
  apply Reads.bind (Reads.data rfl)
  intro m ids hm
  subst hm
  apply Reads.mapM (s := { s with ids }) s.data.funnels
  rintro ⟨id, document⟩ he ids
  obtain ⟨f, hf, rfl⟩ := hs _ he
  exact (readDocument_reads hf).mono fun g hg => hg.1

theorem forall₂_filterMap {α β : Type} {keep : α → Bool} {rel : α → β → Prop} {as : List α}
    {found : List (Option β)}
    (h : List.Forall₂ (fun a b? => if keep a then ∃ b, b? = some b ∧ rel a b else b? = none)
      as found) :
    List.Forall₂ rel (as.filter keep) (found.filterMap id) := by
  induction h with
  | nil => exact .nil
  | @cons a b? as found hab _ ih =>
    cases hkeep : keep a with
    | true =>
      rw [if_pos hkeep] at hab
      obtain ⟨b, rfl, hb⟩ := hab
      rw [List.filter_cons_of_pos hkeep]
      exact .cons hb ih
    | false =>
      rw [if_neg (by simp [hkeep])] at hab
      rw [List.filter_cons_of_neg (by simp [hkeep]), hab]
      exact ih

theorem activeFunnels_reads {s : Stored MemoryStore} (hs : s.data.KeepsSound)
    (trigger : Trigger) :
    (activeFunnels trigger.name).Reads s (List.Forall₂
      (fun e f => ReadsBack e.2 f ∧ f.isActive = true ∧ f.trigger = trigger)
      (s.data.funnels.filter fun e => isMarkedActive e.2 && isMarkedFor trigger e.2)) := by
  apply Reads.bind (Reads.data rfl)
  intro m ids hm
  subst hm
  refine Reads.bind (Reads.mapM (s := { s with ids }) s.data.funnels ?_)
    fun found _ hfound => .pure (forall₂_filterMap hfound)
  rintro ⟨id, document⟩ he ids
  obtain ⟨f, hf, rfl⟩ := hs _ he
  apply Reads.bind (.liftExcept (isActiveFor_toDocument f trigger) rfl)
  intro wanted _ hw
  subst hw
  rw [isMarkedActive_toDocument, isMarkedFor_toDocument]
  split
  · next hwanted =>
    obtain ⟨hactive, htrigger⟩ : f.isActive = true ∧ f.trigger = trigger := by
      simpa using hwanted
    refine (readDocument_reads hf).bind fun g _ ⟨hg, hgt⟩ => .pure ?_
    exact ⟨g, rfl, hg, hg.isActive.trans hactive, hgt.trans htrigger⟩
  · exact .pure rfl

def Defines (m : MemoryStore) (id : String) (P : Funnel → Prop) : Prop :=
  ∀ document fresh f, m.funnels.get? id = some document →
    (Funnel.ofDocument document .null).result fresh = .ok f → P f

section Found

variable {s : Stored MemoryStore} {id : String} {f : Funnel}

theorem defines_of_toDocument {m : MemoryStore} {P : Funnel → Prop} {id : String} {f : Funnel}
    (hdocument : m.funnels.get? id = some (.object f.toDocument)) (h : ∀ fresh, P (f.reread fresh)) :
    m.Defines id P := by
  intro document fresh g hget hread
  obtain rfl := Option.some.inj (hdocument.symm.trans hget)
  rw [Funnel.ofDocument_toDocument] at hread
  exact Except.ok.inj hread ▸ h fresh

theorem of_readDocument {document : Value} (h : ((readDocument document).run s).1 = .ok f) :
    ∃ fresh, (Funnel.ofDocument document .null).result fresh = .ok f := by
  rw [readDocument, readFunnel_eq, run_bind] at h
  split at h
  · next fresh s₁ _ =>
    refine ⟨fresh, ?_⟩
    cases hresult : (Funnel.ofDocument document .null).result fresh with
    | error e =>
      rw [hresult] at h
      cases h
    | ok g =>
      rw [hresult] at h
      exact congrArg _ (Except.ok.inj h)
  · cases h

theorem answer_getFunnel_of_none (h : s.data.funnels.get? id = none) :
    ((answer (.getFunnel id)).run s).1 = .ok none := by
  change ((getFunnel id).run s).1 = _
  rw [getFunnel, run_data_bind, h]
  rfl

/-- What is found is what some document is read back as. -/
theorem of_answer_getFunnel {found : Option Funnel}
    (h : ((answer (.getFunnel id)).run s).1 = .ok found) :
    s.data.funnels.get? id = none ∧ found = none ∨
      ∃ document fresh f, s.data.funnels.get? id = some document ∧ found = some f ∧
        (Funnel.ofDocument document .null).result fresh = .ok f := by
  cases hdocument : s.data.funnels.get? id with
  | none =>
    rw [answer_getFunnel_of_none hdocument] at h
    exact .inl ⟨rfl, (Except.ok.inj h).symm⟩
  | some document =>
    change ((getFunnel id).run s).1 = _ at h
    rw [getFunnel, run_data_bind, hdocument, run_bind] at h
    split at h
    · next f s₁ hread =>
      have hread' : ((readDocument document).run s).1 = .ok f := by rw [hread]
      obtain ⟨fresh, hresult⟩ := of_readDocument hread'
      exact .inr ⟨document, fresh, f, rfl, (Except.ok.inj h).symm, hresult⟩
    · cases h

theorem Defines.found {P : Funnel → Prop} (hdefines : s.data.Defines id P)
    {s₁ : Stored MemoryStore} (hfunnels : s₁.data.funnels = s.data.funnels)
    (h : ((answer (.getFunnel id)).run s₁).1 = .ok (some f)) : P f := by
  rcases of_answer_getFunnel h with ⟨_, hfound⟩ | ⟨document, fresh, g, hdocument, hfound, hread⟩
  · cases hfound
  · obtain rfl := Option.some.inj hfound
    exact hdefines document fresh f (hfunnels ▸ hdocument) hread

end Found

section Writing

variable {m m' : MemoryStore} {call : StoreCall}

theorem KeepsSound.congr (h : m.KeepsSound) (hfunnels : m'.funnels = m.funnels) :
    m'.KeepsSound := by
  rwa [KeepsSound, hfunnels]

/-- Only what is saved has to be sound. -/
theorem KeepsSound.changes (h : m.KeepsSound) (hchanges : m.Changes call m')
    (hcall : ∀ f, call = .saveFunnel f → f.IsSound) : m'.KeepsSound := by
  cases hchanges with
  | saveFunnel f =>
    intro e he
    rcases Table.mem_set he with rfl | he
    · exact ⟨f, hcall f rfl, rfl⟩
    · exact h e he
  | deleteFunnel id =>
    intro e he
    exact h e (List.mem_filter.mp he).1
  | _ => exact h

end Writing

end MemoryStore

end FunnelFlow
