import FunnelFlow.Proofs.Service.EditLocks
import FunnelFlow.Proofs.Store.Forms

namespace FunnelFlow

namespace MemoryStore

variable {m : MemoryStore} {s : Stored MemoryStore} {f : Funnel} {id : String}

/-- When the stored definition was first written, if its document tells. -/
def createdAt? (m : MemoryStore) (id : String) : Option Instant :=
  match m.funnels.get? id with
  | some (.object fields) => match Fields.get fields "created_at" with
    | .instant t => some t
    | _ => none
  | _ => none

theorem createdAt?_of_toDocument (h : m.funnels.get? id = some (.object f.toDocument)) :
    m.createdAt? id = f.createdAt := by
  rw [createdAt?, h]
  obtain ⟨id, name, trigger, isActive, start, nodes, createdAt, updatedAt⟩ := f
  cases createdAt <;> rfl

theorem getFunnel_reads_createdAt (hs : s.data.KeepsSound) (id : String) :
    (getFunnel id).Reads s fun found => found.bind (·.createdAt) = s.data.createdAt? id := by
  cases hdocument : s.data.funnels.get? id with
  | none =>
    refine (getFunnel_reads_none hdocument).mono ?_
    rintro _ rfl
    rw [createdAt?, hdocument]
    rfl
  | some document =>
    obtain ⟨f, _, rfl⟩ := hs _ (Table.mem_of_get? hdocument)
    refine (getFunnel_reads_some hdocument).mono ?_
    rintro _ ⟨fresh, rfl⟩
    rw [createdAt?_of_toDocument hdocument]
    rfl

theorem putFunnel_of_new {f : Funnel} (h : m.funnels.get? f.id = none) :
    m.putFunnel f = { m with funnels := m.funnels ++ [funnelEntry f] } := by
  rw [putFunnel, Table.set_of_get?_eq_none h]
  rfl

theorem funnels_unlockFunnel (id editor : String) (s : Stored MemoryStore) :
    ((answer (.unlockFunnel id editor)).run s).2.data.funnels = s.data.funnels := by
  rw [answer_unlockFunnel]
  split <;> rfl

end MemoryStore

def Funnel.writtenAt (f : Funnel) (createdAt now : Instant) : Funnel :=
  { f with createdAt := some createdAt, updatedAt := some now }

theorem Funnel.reread_eq_restored {f : Funnel} (hid : f.id ≠ "") (fresh : String) :
    f.reread fresh = f.restored := by
  rw [reread, if_neg hid]
  rfl

theorem Activity.run_during_ok {α : Type} {task : Undertaking} {act : Activity α} {a : α} {σ : Type}
    {answer : (r : Request) → σ → r.Answer × σ} {world world' : σ}
    (h : act.run answer world = (.ok a, world')) :
    (during task act).run answer world = (.ok a, world') := by
  rw [during, run_tryCatch, h]

namespace Editing

open Activity

variable {s : Stored MemoryStore} {id editor fresh : String} {now : Instant} {f : Funnel}
  {doc : Fields}

/-- How saving a document ends, given how validating it ends. -/
inductive Foretells (s : Stored MemoryStore) (id : String) (now : Instant) :
    Except Fault (Funnel × List Violation) →
      Except Fault (Funnel × List Violation) × Stored MemoryStore → Prop
  | unreadable (e : Fault) : Foretells s id now (.error e) (.error e, s)
  | refused {f : Funnel} {violations : List Violation} {s' : Stored MemoryStore}
    (hactive : f.isActive = true) (hinvalid : violations ≠ [])
    (hfunnels : s'.data.funnels = s.data.funnels) :
    Foretells s id now (.ok (f, violations)) (.error (.notActivatable f.name violations), s')
  | written {f g expected : Funnel} {violations : List Violation} {s' : Stored MemoryStore}
    (hvalid : f.isActive = true → violations = [])
    (hexpected : expected = f.writtenAt ((s.data.createdAt? id).getD now) now)
    (hwritten : g = expected.plotted) (hsame : g.same expected = true)
    (hread : (MemoryStore.answer (.getFunnel id)).run s' = (.ok (some g), s')) :
    Foretells s id now (.ok (f, violations)) (.ok (g, violations), s')

theorem run_validate (now : Instant) (fresh : String) (s : Stored MemoryStore) (document : Value) :
    (validate document).run (still now fresh) s =
      ((readAs document fresh).map fun f => (f, f.violations), s) := by
  have hread := run_readFunnel now fresh s document
  cases hresult : readAs document fresh with
  | error e =>
    rw [hresult] at hread
    exact run_bind_error hread
  | ok f =>
    rw [hresult] at hread
    exact run_bind_ok hread

theorem of_readAs (hid : doc.get "id" = .text id) (hne : id ≠ "")
    (h : readAs (.object doc) fresh = .ok f) : f.id = id ∧ f.HasNoEmptyReference := by
  unfold readAs at h
  generalize (if (ofDocument (.object doc)).needsId then fresh else "") = fresh' at h
  dsimp only [ofDocument] at h
  split at h
  · next g hg =>
    obtain rfl := Except.ok.inj h
    have hsame := Funnel.id_of_ofDocument hid hne hg
    have hreferences := Funnel.hasNoEmptyReference_of_ofDocument hg
    rw [Funnel.inferStart_eq]
    exact ⟨hsame, hreferences⟩
  · cases h

theorem run_write_refused (hactive : f.isActive = true) (hinvalid : f.violations ≠ []) :
    (write f now).run (still now fresh) s = (.error (.notActivatable f.name f.violations), s) := by
  have hrefused : ensureActivatable f = throw (.notActivatable f.name f.violations) := by
    simp [ensureActivatable, hactive, hinvalid]
  rw [write, hrefused]
  rfl

theorem ensureActivatable_of_valid (hvalid : f.isActive = true → f.violations = []) :
    ensureActivatable f = pure () := by
  unfold ensureActivatable
  split
  · next h => simp_all
  · rfl

theorem run_write (hs : s.data.KeepsSound) (hne : f.id ≠ "")
    (hvalid : f.isActive = true → f.violations = []) :
    let g := f.writtenAt ((s.data.createdAt? f.id).getD now) now
    ∃ ids, (write f now).run (still now fresh) s =
      (.ok (g.reread ""), { ids, data := s.data.putFunnel g }) := by
  intro g
  obtain ⟨existing, ids, hexisting, hcreated⟩ := MemoryStore.getFunnel_reads_createdAt hs f.id
  have hanswer : (MemoryStore.answer (.getFunnel f.id)).run s =
    (.ok existing, { s with ids }) := hexisting
  refine ⟨ids, ?_⟩
  rw [write, ensureActivatable_of_valid hvalid]
  refine (run_store_bind hanswer).trans ?_
  dsimp only
  rw [hcreated]
  exact MemoryStore.answer_saveFunnel (f := g) hne { s with ids }

theorem run_save_unreadable {document : Value} {e : Fault} (hread : readAs document fresh = .error e) :
    (save document editor).run (still now fresh) s = (.error e, s) := by
  have hrun := run_readFunnel now fresh s document
  rw [hread] at hrun
  exact run_bind_error hrun

theorem run_save {document : Value} (hread : readAs document fresh = .ok f) :
    (save document editor).run (still now fresh) s =
      (withLock f.id editor now (during .savingFunnel do
        let saved ← write f now
        return (saved, f.violations))).run (still now fresh) s := by
  have hrun := run_readFunnel now fresh s document
  rw [hread] at hrun
  exact run_bind_ok hrun

theorem save_refused {document : Value} (hread : readAs document fresh = .ok f)
    (hlock : s.data.MayLock f.id editor now) (hactive : f.isActive = true)
    (hinvalid : f.violations ≠ []) :
    (save document editor).run (still now fresh) s =
      (.error (.notActivatable f.name f.violations),
        { s with data := s.data.settleLock f.id editor now }) := by
  rw [run_save hread]
  apply run_withLock_failed hlock
  rw [during, run_tryCatch, run_bind_error (run_write_refused hactive hinvalid)]
  rfl

theorem save_written {document : Value} (hs : s.data.KeepsSound) (hne : f.id ≠ "")
    (hread : readAs document fresh = .ok f) (hlock : s.data.MayLock f.id editor now)
    (hvalid : f.isActive = true → f.violations = []) :
    let g := f.writtenAt ((s.data.createdAt? f.id).getD now) now
    ∃ s', (save document editor).run (still now fresh) s = (.ok (g.reread "", f.violations), s') ∧
      s'.data.funnels = s.data.funnels.set f.id (.object g.toDocument) := by
  intro g
  have hlocked : (s.data.takeLock f.id editor now).KeepsSound := hs
  obtain ⟨ids, hwrite⟩ : ∃ ids, (write f now).run (still now fresh)
      { s with data := s.data.takeLock f.id editor now } =
        (.ok (g.reread ""), { ids, data := (s.data.takeLock f.id editor now).putFunnel g }) :=
    run_write hlocked hne hvalid
  have hbody : (during .savingFunnel do
      let saved ← write f now
      return (saved, f.violations)).run (still now fresh)
        { s with data := s.data.takeLock f.id editor now } =
      (.ok (g.reread "", f.violations),
        { ids, data := (s.data.takeLock f.id editor now).putFunnel g }) :=
    run_during_ok (run_bind_ok hwrite)
  refine ⟨_, (run_save hread).trans (run_withLock hlock hbody), ?_⟩
  split
  · rfl
  · rw [MemoryStore.funnels_unlockFunnel]
    rfl

section New

variable (hne : f.id ≠ "") (hnew : s.data.funnels.get? f.id = none)
  (hvalid : f.isActive = true → f.violations = [])
include hne hnew hvalid

theorem run_write_new : (write f now).run (still now fresh) s =
    (.ok (f.writtenAt now now).restored,
      { s with data := s.data.putFunnel (f.writtenAt now now) }) := by
  have hreread : (f.writtenAt now now).reread "" = (f.writtenAt now now).restored :=
    Funnel.reread_eq_restored (f := f.writtenAt now now) hne ""
  rw [write, ensureActivatable_of_valid hvalid]
  refine (run_store_bind (MemoryStore.run_getFunnel_of_none hnew)).trans ?_
  rw [← hreread]
  exact MemoryStore.answer_saveFunnel (f := f.writtenAt now now) hne s

/-- A new funnel is added to the others, and its lock is given back. -/
theorem run_save_new {document : Value} (hread : readAs document fresh = .ok f)
    (hfree : s.data.funnelLocks.get? f.id = none) :
    (save document editor).run (still now fresh) s =
      (.ok ((f.writtenAt now now).restored, f.violations),
        { s with data.funnels := s.data.funnels ++ [funnelEntry (f.writtenAt now now)] }) := by
  have hlock : s.data.MayLock f.id editor now := by
    intro lock hlock
    rw [hfree] at hlock
    cases hlock
  have hwrite : (write f now).run (still now fresh)
      { s with data := s.data.takeLock f.id editor now } =
        (.ok (f.writtenAt now now).restored,
          { s with data := (s.data.takeLock f.id editor now).putFunnel (f.writtenAt now now) }) :=
    run_write_new hne hnew hvalid
  have hbody : (during .savingFunnel do
      let saved ← write f now
      return (saved, f.violations)).run (still now fresh)
        { s with data := s.data.takeLock f.id editor now } =
      (.ok ((f.writtenAt now now).restored, f.violations),
        { s with data := (s.data.takeLock f.id editor now).putFunnel (f.writtenAt now now) }) :=
    run_during_ok (run_bind_ok hwrite)
  have hput : s.data.putFunnel (f.writtenAt now now) =
      { s.data with funnels := s.data.funnels ++ [funnelEntry (f.writtenAt now now)] } :=
    MemoryStore.putFunnel_of_new (f := f.writtenAt now now) hnew
  have hsettled : (s.data.putFunnel (f.writtenAt now now)).settleLock f.id editor now =
      s.data.putFunnel (f.writtenAt now now) := MemoryStore.settleLock_of_none hfree
  rw [run_save hread, run_withLock_written hlock hbody, hsettled, hput]

end New

/-- Validating a document says how saving it ends, as long as the lock of its funnel can be had. -/
theorem validate_foretells_save {runTtl funnelTtl : Span} (h : Reachable runTtl funnelTtl s)
    (hid : doc.get "id" = .text id) (hne : id ≠ "") (hlock : s.data.MayLock id editor now)
    (fresh : String) : ∃ result,
      (validate (.object doc)).run (still now fresh) s = (result, s) ∧
      Foretells s id now result ((save (.object doc) editor).run (still now fresh) s) := by
  refine ⟨_, run_validate now fresh s (.object doc), ?_⟩
  cases hread : readAs (.object doc) fresh with
  | error e =>
    rw [run_save_unreadable hread]
    exact .unreadable e
  | ok f =>
    obtain ⟨rfl, hreferences⟩ := of_readAs hid hne hread
    by_cases hrefused : f.isActive = true ∧ f.violations ≠ []
    · rw [save_refused hread hlock hrefused.1 hrefused.2]
      refine .refused hrefused.1 hrefused.2 ?_
      rw [MemoryStore.settleLock_eq]
    · have hvalid (hactive : f.isActive = true) : f.violations = [] := by
        by_contra hinvalid
        exact hrefused ⟨hactive, hinvalid⟩
      obtain ⟨s', hsave, hfunnels⟩ := save_written h.keepsSound hne hread hlock hvalid
      let g := f.writtenAt ((s.data.createdAt? f.id).getD now) now
      have hplotted : g.reread "" = g.plotted :=
        Funnel.reread_eq_plotted (f := g) hne hreferences ""
      have hstored : s'.data.funnels.get? f.id = some (.object g.toDocument) := by
        rw [hfunnels, Table.get?_set_self]
      have hback := MemoryStore.answer_getFunnel (f := g) hne rfl hstored
      rw [hsave]
      rw [hplotted] at hback ⊢
      exact .written hvalid rfl rfl (Funnel.same_plotted (f := g) hne hreferences) hback

/-- The draft, as one of its editors claims to have written it at another time. -/
def backdated : Fields := { draft with createdAt := some ⟨3, none⟩ }.toDocument

/-- The draft was saved at time zero. Saving it again is foretold, and keeps that time. -/
theorem backdated_is_foretold :
    let first := (Operation.save (.object draft.toDocument)).by "ada"
    let s := (first.run (still ⟨0, none⟩ "") ⟨.first, .empty ⟨0⟩ ⟨0⟩⟩).2
    Reachable ⟨0⟩ ⟨0⟩ s ∧ s.data.createdAt? "draft" = some ⟨0, none⟩ ∧
    backdated.get "id" = .text "draft" ∧ "draft" ≠ "" ∧
    s.data.MayLock "draft" "bob" ⟨5, none⟩ ∧ ∃ result,
      (validate (.object backdated)).run (still ⟨5, none⟩ "") s = (result, s) ∧
      Foretells s "draft" ⟨5, none⟩ result
        ((save (.object backdated) "bob").run (still ⟨5, none⟩ "") s) := by
  intro first s
  have hrun := carriedOut_run (still_served ⟨0, none⟩ "") first ⟨.first, .empty ⟨0⟩ ⟨0⟩⟩
  have hreachable : Reachable ⟨0⟩ ⟨0⟩ s := (Reachable.empty .first).next "ada" _ _ hrun
  have hlock : s.data.MayLock "draft" "bob" ⟨5, none⟩ := nofun
  have hid : backdated.get "id" = .text "draft" := rfl
  have hne : "draft" ≠ "" := by decide
  exact ⟨hreachable, rfl, hid, hne, hlock, validate_foretells_save hreachable hid hne hlock ""⟩

end Editing

end FunnelFlow
