import FunnelFlow.Proofs.Funnel.Outline
import FunnelFlow.Proofs.Service.Scope
import FunnelFlow.Proofs.Store.Definitions

namespace FunnelFlow

/-- What is kept of an answer when nothing but outlines is kept of definitions. -/
def Request.outline : (r : Request) → r.Answer → r.Answer
  | .store (.getFunnel _), a => Except.map (Option.map Funnel.outline) a
  | _, a => a

namespace MemoryStore

open StoreM

variable {s t u : Stored MemoryStore} {f : Funnel} {id : String}

def withDefinitions (s : Stored MemoryStore) (other : MemoryStore) : Stored MemoryStore :=
  { s with data := { s.data with
    funnelTtl := other.funnelTtl, funnels := other.funnels, funnelLocks := other.funnelLocks } }

/-- The stores differ at most in what is left of definitions without their outlines. -/
structure Twins (s t : Stored MemoryStore) : Prop where
  ids : t.ids = s.ids
  runTtl : t.data.runTtl = s.data.runTtl
  runs : t.data.runs = s.data.runs
  runLocks : t.data.runLocks = s.data.runLocks
  outlines (id : String) : (t.data.funnels.get? id).map Value.outline =
    (s.data.funnels.get? id).map Value.outline

namespace Twins

theorem refl (s : Stored MemoryStore) : Twins s s := ⟨rfl, rfl, rfl, rfl, fun _ => rfl⟩

theorem symm (h : Twins s t) : Twins t s :=
  ⟨h.ids.symm, h.runTtl.symm, h.runs.symm, h.runLocks.symm, fun id => (h.outlines id).symm⟩

theorem trans (h : Twins s t) (h' : Twins t u) : Twins s u where
  ids := h'.ids.trans h.ids
  runTtl := h'.runTtl.trans h.runTtl
  runs := h'.runs.trans h.runs
  runLocks := h'.runLocks.trans h.runLocks
  outlines id := (h'.outlines id).trans (h.outlines id)

theorem withDefinitions_eq (h : Twins s t) : withDefinitions s t.data = t := by
  obtain ⟨ids, m⟩ := t
  obtain ⟨hids, hrunTtl, hruns, hrunLocks, -⟩ := h
  simp only [withDefinitions, ← hids, ← hrunTtl, ← hruns, ← hrunLocks]

theorem rewritten {f g : Funnel}
    (hstored : s.data.funnels.get? f.id = some (.object f.toDocument)) (hid : f.id = g.id)
    (hsame : (Value.object f.toDocument).outline = (Value.object g.toDocument).outline) :
    Twins s { s with data := s.data.putFunnel g } where
  ids := rfl
  runTtl := rfl
  runs := rfl
  runLocks := rfl
  outlines id := by
    by_cases hput : id = g.id
    · rw [hput, ← hid, hstored, MemoryStore.putFunnel, ← hid, Table.get?_set_self]
      exact congrArg some hsame.symm
    · rw [MemoryStore.putFunnel, Table.get?_set_of_ne _ _ hput]

theorem putFunnel (m : MemoryStore) (ids : IdSupply) {f g : Funnel} (h : f.outline = g.outline) :
    Twins ⟨ids, m.putFunnel f⟩ ⟨ids, m.putFunnel g⟩ := by
  have hid : f.id = g.id := (Funnel.outline_eq_iff.mp h).1
  have hput : (m.putFunnel f).putFunnel g = m.putFunnel g := by
    simp only [MemoryStore.putFunnel, hid, Table.set_set]
  have htwins : Twins ⟨ids, m.putFunnel f⟩ ⟨ids, (m.putFunnel f).putFunnel g⟩ :=
    rewritten (Table.get?_set_self _ _ _) hid (Funnel.outline_toDocument h)
  rwa [hput] at htwins

end Twins

def DisregardsDefinitions {α : Type} (w : Work α) : Prop :=
  ∀ s other, w.run (withDefinitions s other) =
    ((w.run s).1, withDefinitions (w.run s).2 other)

theorem readRunDocument_disregards (document : Value) :
    DisregardsDefinitions (readRunDocument document) := by
  intro s other
  simp only [readRunDocument, run_readRun]
  split <;> rfl

theorem getRun_disregards (id : String) : DisregardsDefinitions (getRun id) := by
  intro s other
  have hruns : (withDefinitions s other).data.runs = s.data.runs := rfl
  rw [getRun, run_data_bind, run_data_bind, hruns]
  cases s.data.runs.get? id with
  | none => rfl
  | some document =>
    dsimp only
    rw [run_bind, run_bind, readRunDocument_disregards]
    rcases (readRunDocument document).run s with ⟨e | r, s'⟩ <;> rfl

theorem acquireRun_disregards (id owner : String) (now : Instant) :
    DisregardsDefinitions (acquireRun id owner now) := by
  intro s other
  have hruns : (withDefinitions s other).data.runs = s.data.runs := rfl
  have hlocked : (withDefinitions s other).data.isLocked id now = s.data.isLocked id now := rfl
  rw [acquireRun, run_data_bind, run_data_bind, hruns]
  cases s.data.runs.get? id with
  | none => rfl
  | some document =>
    dsimp only
    rw [run_liftExcept_bind, run_liftExcept_bind, hlocked]
    rcases s.data.isLocked id now with e | locked
    · rfl
    · cases locked with
      | true => rfl
      | false =>
        dsimp only
        rw [if_neg Bool.false_ne_true, if_neg Bool.false_ne_true, run_setData_bind,
          run_setData_bind]
        exact readRunDocument_disregards document
          { s with data.runLocks := s.data.runLocks.set id ⟨owner, now⟩ } other

theorem answer_disregards {call : StoreCall} (hcall : (Request.store call).isOfRun = true)
    (hdefinition : ∀ id, call ≠ .getFunnel id) : DisregardsDefinitions (answer call) := by
  intro s other
  cases call with
  | getFunnel id => exact absurd rfl (hdefinition id)
  | getRun id => exact getRun_disregards id s other
  | acquireRun id owner now => exact acquireRun_disregards id owner now s other
  | saveRun r owner =>
    have hholder : (withDefinitions s other).data.runHolder r.id = s.data.runHolder r.id := rfl
    rw [answer_saveRun, answer_saveRun, hholder]
    split <;> rfl
  | releaseRun r owner =>
    have hholder : (withDefinitions s other).data.runHolder r.id = s.data.runHolder r.id := rfl
    rw [answer_releaseRun, answer_releaseRun, hholder]
    split <;> rfl
  | _ => cases hcall

theorem outline_map_some (read : Except Fault Funnel) :
    Except.map (Option.map Funnel.outline) (read.map some) =
      (read.map Funnel.outline).map some := by
  cases read <;> rfl

theorem Twins.withIds (h : Twins s t) (ids : IdSupply) : Twins { s with ids } { t with ids } :=
  ⟨rfl, h.runTtl, h.runs, h.runLocks, h.outlines⟩

theorem Twins.getFunnel (h : Twins s t) (id : String) :
    Except.map (Option.map Funnel.outline) ((answer (.getFunnel id)).run t).1 =
      Except.map (Option.map Funnel.outline) ((answer (.getFunnel id)).run s).1 ∧
    Twins ((answer (.getFunnel id)).run s).2 ((answer (.getFunnel id)).run t).2 := by
  have houtline := h.outlines id
  rw [run_getFunnel, run_getFunnel]
  cases hs : s.data.funnels.get? id with
  | none =>
    rw [hs, Option.map_none, Option.map_eq_none_iff] at houtline
    rw [houtline]
    exact ⟨rfl, h⟩
  | some document =>
    rw [hs, Option.map_some, Option.map_eq_some_iff] at houtline
    obtain ⟨other, ht, hsame⟩ := houtline
    have hneeds : (Funnel.ofDocument other .null).needsId =
      (Funnel.ofDocument document .null).needsId := (congrArg Reading.needsId hsame :)
    have hread (fresh : String) : Except.map (Option.map Funnel.outline)
        (((Funnel.ofDocument other .null).result fresh).map some) =
          Except.map (Option.map Funnel.outline)
            (((Funnel.ofDocument document .null).result fresh).map some) := by
      rw [outline_map_some, outline_map_some]
      exact congrArg (Except.map some) (congrFun (congrArg Reading.result hsame) fresh)
    rw [ht]
    dsimp only
    rw [hneeds, h.ids]
    split
    · exact ⟨hread _, h.withIds _⟩
    · exact ⟨hread _, h⟩

/-- What is asked about a run is answered alike, as far as outlines go. -/
theorem Twins.answered {call : StoreCall} (h : Twins s t)
    (hcall : (Request.store call).isOfRun = true) :
    Request.outline (.store call) ((answer call).run t).1 =
      Request.outline (.store call) ((answer call).run s).1 ∧
    Twins ((answer call).run s).2 ((answer call).run t).2 := by
  by_cases hdefinition : ∃ id, call = .getFunnel id
  · obtain ⟨id, rfl⟩ := hdefinition
    exact h.getFunnel id
  · have hdisregards := answer_disregards hcall (not_exists.mp hdefinition) s t.data
    rw [h.withDefinitions_eq] at hdisregards
    have hfunnels : ((answer call).run s).2.data.funnels = s.data.funnels :=
      ((answer_changes call s).sparesFunnels (Request.sparesFunnels_of_isOfRun hcall)).1
    rw [hdisregards]
    refine ⟨rfl, rfl, rfl, rfl, rfl, fun id => ?_⟩
    rw [hfunnels]
    exact h.outlines id

end MemoryStore

end FunnelFlow
