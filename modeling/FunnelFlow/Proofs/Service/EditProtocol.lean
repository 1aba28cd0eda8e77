import FunnelFlow.Proofs.Protocol
import FunnelFlow.Proofs.Service.EditLocks

/-!
What one edit does with the lock of its funnel, answer by answer: it asks for the lock, writes or
deletes the funnel under it, and gives the lock back if it was the first to take it. Edits of other
editors cannot take a lock away that holds, and edits of the same editor only if one of them gives
it back or deletes the funnel.
-/

namespace FunnelFlow

theorem Served.funnelTtl_eq {q : Request} {a : q.Answer} {s s' : Stored MemoryStore}
    (h : Served q s a s') : s'.data.funnelTtl = s.data.funnelTtl := by
  cases h with
  | store call => exact (MemoryStore.answer_changes call s).funnelTtl_eq
  | outside => rfl

namespace Editing

open Activity

inductive Phase where
  | away
  | holds (isNew : Bool)
  | deleted (isNew : Bool)
  | ended

/-- An edit of a funnel, the id that it is given if it asks for one, whether the lock was new to its
editor when it was granted, and what is left of the edit. -/
structure Edit where
  op : Operation
  editor : String
  target : String
  fresh : String
  granted : Option Bool
  rest : Activity Unit

/-- The operation is an edit of the funnel, or of none if its document cannot be read. -/
def Operation.IsAbout (fresh target : String) : Operation → Prop
  | .save document => ∀ f, readAs document fresh = .ok f → f.id = target
  | .setActive id _ | .delete id | .lock id => id = target
  | .unlock _ | .ensurePostFunnel => False

def Operation.IsLock : Operation → Prop
  | .lock _ => True
  | _ => False

/-- A lock that is taken out at one of the instants holds at all of them. -/
def IsWindow (ttl : Span) (within : Instant → Prop) : Prop :=
  ∀ since now, within since → within now → ∃ ends, since.plus ttl = .ok ends ∧
    ends.comparable now = true ∧ now.lt ends = true

namespace Edit

variable {e : Edit} {within : Instant → Prop}

def IsUnderWay (e : Edit) : Prop := ∃ q resume, e.rest = .ask q resume

def HasLock (e : Edit) : Prop := e.IsUnderWay ∧ e.granted ≠ none

def Spares (e : Edit) : Prop := e.granted ≠ some true ∧ e.op.deletes = false

def notes (e : Edit) : (q : Request) → q.Answer → Option Bool
  | .store (.lockFunnel ..), .ok isNew => some isNew
  | _, _ => e.granted

def answered (e : Edit) (q : Request) (a : q.Answer) (rest : Activity Unit) : Edit :=
  { e with granted := e.notes q a, rest := rest }

def admits (e : Edit) (within : Instant → Prop) : (q : Request) → q.Answer → Prop
  | .clock, now => within now
  | .funnelId, id => id = e.fresh
  | _, _ => True

def asks (e : Edit) (within : Instant → Prop) : Phase → Request → Prop
  | .away, .clock | .away, .funnelId | .away, .store (.getFunnel _) => True
  | .away, .store (.lockFunnel id holder now) => id = e.target ∧ holder = e.editor ∧ within now
  | .holds _, .store (.getFunnel _) => True
  | .holds _, .store (.saveFunnel f) => f.id = e.target ∧ e.target ≠ ""
  | .holds _, .store (.deleteFunnel id) => id = e.target ∧ e.op.deletes = true
  | .holds isNew, .store (.unlockFunnel id holder)
  | .deleted isNew, .store (.unlockFunnel id holder) =>
    isNew = true ∧ id = e.target ∧ holder = e.editor
  | _, _ => False

def Finds (id : String) (a : Except Fault (Option Funnel)) : Prop :=
  ∀ f, a = .ok (some f) → f.id = id ∧ id ≠ ""

def replies (e : Edit) (within : Instant → Prop) :
    Phase → (q : Request) → q.Answer → Phase → Prop
  | .away, .clock, now, g => within now ∧ g = .away
  | .away, .funnelId, id, g => id = e.fresh ∧ g = .away
  | .away, .store (.lockFunnel ..), a, g =>
    (∃ isNew, a = .ok isNew ∧ g = .holds isNew) ∨ (∃ fault, a = .error fault) ∧ g = .ended
  | .holds isNew, .store (.deleteFunnel _), _, g => g = .deleted isNew
  | g, .store (.getFunnel id), a, g' => Finds id a ∧ g' = g
  | g, .store (.saveFunnel _), _, g' => g' = g
  | _, .store (.unlockFunnel ..), _, g => g = .ended
  | _, _, _, _ => False

def protocol (e : Edit) (within : Instant → Prop) : Protocol Phase :=
  ⟨e.asks within, e.replies within⟩

/-- Whoever took a lock for a session has it in the end. -/
def Ends (e : Edit) (g : Phase) (result : Except Fault Unit) : Prop :=
  e.op.IsLock → result = .ok () → ∃ isNew, g = .holds isNew

section Follows

variable {now : Instant} {α β : Type} {isNew : Bool} {act : Activity α}

/-- The activity is under the lock from beginning to end. -/
def Stays (e : Edit) (within : Instant → Prop) (isNew : Bool) (act : Activity α) : Prop :=
  act.Follows (e.protocol within) (fun g _ => g = .holds isNew) (.holds isNew)

theorem stays_done (result : Except Fault α) : e.Stays within isNew (.done result) := rfl

theorem Stays.bind {next : α → Activity β} (h : e.Stays within isNew act)
    (hnext : ∀ a, e.Stays within isNew (next a)) : e.Stays within isNew (act >>= next) := by
  refine Follows.bind h ?_ fun _ _ hg => hg
  rintro g a rfl
  exact hnext a

theorem Stays.during (task : Undertaking) (h : e.Stays within isNew act) :
    e.Stays within isNew (Activity.during task act) := by
  refine Follows.tryCatch h (fun _ _ hg => hg) ?_
  rintro g fault rfl
  exact stays_done _

theorem stays_ensureActivatable (f : Funnel) : e.Stays within isNew (ensureActivatable f) := by
  unfold ensureActivatable
  split
  · exact stays_done _
  · exact stays_done _

theorem stays_getFunnel (id : String) : e.Stays within isNew (store (.getFunnel id)) :=
  Follows.store trivial fun _ _ ⟨_, hg⟩ => hg

theorem stays_saveFunnel {f : Funnel} (hid : f.id = e.target) (hne : e.target ≠ "") :
    e.Stays within isNew (store (.saveFunnel f)) :=
  Follows.store ⟨hid, hne⟩ fun _ _ hg => hg

theorem stays_write {f : Funnel} (hid : f.id = e.target) (hne : e.target ≠ "") :
    e.Stays within isNew (write f now) := by
  have hsave (createdAt : Instant) : e.Stays within isNew (store (.saveFunnel
      { f with createdAt := some createdAt, updatedAt := some now })) := stays_saveFunnel hid hne
  exact (stays_ensureActivatable f).bind fun _ => (stays_getFunnel f.id).bind fun _ => hsave _

theorem stays_setActive (active : Bool) : e.Stays within isNew (do
    let f := { ← detail e.target with isActive := active }
    ensureActivatable f
    store (.saveFunnel { f with updatedAt := some now })) := by
  have hdetail : (detail e.target).Follows (e.protocol within)
      (fun g found => g = .holds isNew ∧ ∀ f, found = .ok f → f.id = e.target ∧ e.target ≠ "")
      (.holds isNew) := by
    refine ⟨trivial, fun found g ha => ?_⟩
    obtain ⟨hfinds, rfl⟩ := ha
    rcases found with fault | _ | f
    · exact ⟨rfl, nofun⟩
    · exact ⟨rfl, nofun⟩
    · refine ⟨rfl, ?_⟩
      rintro _ ⟨⟩
      exact hfinds f rfl
  refine Follows.bind hdetail ?_ fun _ _ hg => hg.1
  rintro g f ⟨rfl, hf⟩
  obtain ⟨hid, hne⟩ := hf f rfl
  have hsave : e.Stays within isNew (store (.saveFunnel
      { f with isActive := active, updatedAt := some now })) := stays_saveFunnel hid hne
  exact (stays_ensureActivatable _).bind fun _ => hsave

theorem withLock_follows (hnow : within now)
    (h : ∀ isNew, act.Follows (e.protocol within)
      (fun g _ => g = .holds isNew ∨ g = .deleted isNew) (.holds isNew)) :
    (withLock e.target e.editor now act).Follows (e.protocol within) (fun _ _ => True) .away := by
  refine ⟨⟨rfl, rfl, hnow⟩, fun a g ha => ?_⟩
  rcases ha with ⟨isNew, rfl, rfl⟩ | ⟨⟨fault, rfl⟩, rfl⟩
  -- only a lock that was new is given back, whether or not the funnel is gone by then
  · refine (h isNew).attempt.bind (fun g result hg => ?_) fun _ _ _ => trivial
    obtain ⟨result, ⟨⟩, hg⟩ := hg
    cases isNew with
    | false => trivial
    | true =>
      refine ⟨?_, fun a g _ => ?_⟩
      · rcases hg with rfl | rfl
        · exact ⟨rfl, rfl, rfl⟩
        · exact ⟨rfl, rfl, rfl⟩
      · cases a <;> trivial
  · trivial

theorem Stays.withLock (hnow : within now) (h : ∀ isNew, e.Stays within isNew act) :
    (Editing.withLock e.target e.editor now act).Follows (e.protocol within) (fun _ _ => True)
      .away :=
  withLock_follows hnow fun isNew => Follows.mono (h isNew) fun _ _ hg => .inl hg

theorem clock_follows {next : Instant → Activity α} {post : Phase → Except Fault α → Prop}
    (h : ∀ now, within now → (next now).Follows (e.protocol within) post .away) :
    (clock >>= next).Follows (e.protocol within) post .away := by
  refine ⟨trivial, fun now g ha => ?_⟩
  obtain ⟨hnow, rfl⟩ := ha
  exact h now hnow

theorem save_follows {document : Value} (hfresh : e.fresh ≠ "")
    (h : ∀ f, readAs document e.fresh = .ok f → f.id = e.target) :
    (save document e.editor).Follows (e.protocol within) (fun _ _ => True) .away := by
  have hread : (readFunnel (ofDocument document)).Follows (e.protocol within)
      (fun g result => g = .away ∧ result = readAs document e.fresh) .away := by
    unfold readFunnel readAs
    cases (ofDocument document).needsId with
    | true =>
      refine ⟨trivial, fun id g ha => ?_⟩
      obtain ⟨rfl, rfl⟩ := ha
      exact ⟨rfl, rfl⟩
    | false => exact ⟨rfl, rfl⟩
  refine hread.bind ?_ fun _ _ _ => trivial
  rintro g f ⟨rfl, hf⟩
  have hid := h f hf.symm
  have hne : e.target ≠ "" := hid ▸ readAs_id_ne hfresh hf.symm
  refine clock_follows fun now hnow => ?_
  have hbody (isNew : Bool) : e.Stays within isNew (during .savingFunnel do
      let saved ← write f now
      return (saved, f.violations)) :=
    ((stays_write hid hne).bind fun _ => stays_done _).during .savingFunnel
  have hheld := Stays.withLock hnow hbody
  rwa [← hid] at hheld

theorem delete_follows (hdeletes : e.op.deletes = true) :
    (delete e.target e.editor).Follows (e.protocol within) (fun _ _ => True) .away := by
  have hdelete (isNew : Bool) : (store (.deleteFunnel e.target)).Follows (e.protocol within)
      (fun g _ => g = .holds isNew ∨ g = .deleted isNew) (.holds isNew) :=
    Follows.store ⟨rfl, hdeletes⟩ fun _ _ hg => .inr hg
  refine clock_follows fun now hnow => ?_
  refine (withLock_follows hnow hdelete).bind (fun g deleted _ => ?_) fun _ _ _ => trivial
  cases deleted <;> trivial

theorem lock_follows : (lock e.target e.editor).Follows (e.protocol within)
    (fun g result => result = .ok () → ∃ isNew, g = .holds isNew) .away := by
  refine ⟨trivial, fun found g ha => ?_⟩
  obtain ⟨_, rfl⟩ := ha
  rcases found with fault | _ | f
  · exact nofun
  · exact nofun
  · refine clock_follows fun now hnow => ⟨⟨rfl, rfl, hnow⟩, fun a g ha => ?_⟩
    rcases ha with ⟨isNew, rfl, rfl⟩ | ⟨⟨fault, rfl⟩, rfl⟩
    · exact fun _ => ⟨isNew, rfl⟩
    · exact nofun

theorem start_follows (hfresh : e.fresh ≠ "") (hop : e.op.IsAbout e.fresh e.target) :
    (e.op.by e.editor).Follows (e.protocol within) e.Ends .away := by
  have hdiscard {α : Type} {act : Activity α} (hlock : ¬ e.op.IsLock)
      (h : act.Follows (e.protocol within) (fun _ _ => True) .away) :
      (discard act).Follows (e.protocol within) e.Ends .away :=
    h.bind (fun _ _ _ h => absurd h hlock) fun _ _ _ h => absurd h hlock
  obtain ⟨op, editor, target, fresh, granted, rest⟩ := e
  cases op with
  | save document => exact hdiscard id (save_follows hfresh hop)
  | setActive id' active =>
    obtain rfl : id' = target := hop
    refine hdiscard id (clock_follows fun now hnow => ?_)
    exact Stays.withLock hnow fun _ => stays_setActive active
  | delete id' =>
    obtain rfl : id' = target := hop
    exact (delete_follows rfl).mono fun _ _ _ h => h.elim
  | lock id' =>
    obtain rfl : id' = target := hop
    exact lock_follows.mono fun _ _ h _ => h
  | unlock => exact hop.elim
  | ensurePostFunnel => exact hop.elim

end Follows

def Sees (e : Edit) (within : Instant → Prop) (g : Phase) (m : MemoryStore) : Prop :=
  ∀ isNew, g = .holds isNew →
    ∃ since, within since ∧ m.funnelLocks.get? e.target = some ⟨e.editor, since⟩

section Sees

variable {g : Phase} {q : Request} {a : q.Answer} {s s' : Stored MemoryStore}

theorem sees_of_kept {isNew : Bool} {m m' : MemoryStore} (h : e.Sees within (.holds isNew) m)
    (hlocks : m'.funnelLocks = m.funnelLocks) : e.Sees within (.holds isNew) m' := by
  intro isNew' _
  rw [hlocks]
  exact h isNew rfl

theorem filed_of_asks (hfiled : s.data.IsFiled) (hasks : e.asks within g q)
    (hserved : Served q s a s') : s'.data.IsFiled := by
  cases hserved with
  | outside => exact hfiled
  | store call =>
    refine hfiled.changes (MemoryStore.answer_changes call s) ?_
    rintro f rfl
    cases g with
    | holds isNew => exact hasks.1 ▸ hasks.2
    | _ => exact hasks.elim

/-- The store answers as the protocol has it, and whoever is granted the lock has it. -/
theorem Sees.answered (hfiled : s.data.IsFiled) (h : e.Sees within g s.data)
    (hasks : e.asks within g q) (hserved : Served q s a s') (hadmits : e.admits within q a) :
    ∃ g', e.replies within g q a g' ∧ e.Sees within g' s'.data := by
  have hfinds (id : String) : Finds id ((MemoryStore.answer (.getFunnel id)).run s).1 := by
    rcases hfiled.answer_getFunnel id with ⟨_, hanswer⟩ | ⟨_, f, hid, hne, hanswer⟩
    · rw [hanswer]
      rintro _ ⟨⟩
    · rw [hanswer]
      rintro _ ⟨⟩
      exact ⟨hid, hne⟩
  cases hserved with
  | outside hq =>
    cases g with
    | away =>
      cases q with
      | store call => exact absurd rfl (hq call)
      | clock => exact ⟨.away, ⟨hadmits, rfl⟩, h⟩
      | funnelId => exact ⟨.away, ⟨hadmits, rfl⟩, h⟩
      | _ => exact hasks.elim
    | _ =>
      cases q with
      | store call => exact absurd rfl (hq call)
      | _ => exact hasks.elim
  | store call =>
    have hchanges := MemoryStore.answer_changes call s
    cases g with
    | away =>
      cases call with
      | getFunnel id => exact ⟨.away, ⟨hfinds id, rfl⟩, nofun⟩
      | lockFunnel id holder now =>
        obtain ⟨rfl, rfl, hnow⟩ := hasks
        by_cases hlock : s.data.MayLock e.target e.editor now
        · rw [MemoryStore.answer_lockFunnel hlock]
          refine ⟨.holds _, .inl ⟨_, rfl, rfl⟩, fun _ _ => ⟨now, hnow, ?_⟩⟩
          exact Table.get?_set_self _ _ _
        · obtain ⟨_, _, _, _, hanswer⟩ := MemoryStore.answer_lockFunnel_of_not hlock
          rw [hanswer]
          exact ⟨.ended, .inr ⟨⟨_, rfl⟩, rfl⟩, nofun⟩
      | _ => exact hasks.elim
    | holds isNew =>
      cases call with
      | getFunnel id =>
        refine ⟨.holds isNew, ⟨hfinds id, rfl⟩, sees_of_kept h ?_⟩
        rw [MemoryStore.answer_getFunnel_data]
      | saveFunnel f =>
        refine ⟨.holds isNew, rfl, sees_of_kept h ?_⟩
        rw [MemoryStore.answer_saveFunnel (hasks.1 ▸ hasks.2)]
        rfl
      | deleteFunnel id => exact ⟨.deleted isNew, rfl, nofun⟩
      | unlockFunnel id holder => exact ⟨.ended, rfl, nofun⟩
      | _ => exact hasks.elim
    | deleted isNew =>
      cases call with
      | unlockFunnel id holder => exact ⟨.ended, rfl, nofun⟩
      | _ => exact hasks.elim
    | ended => exact hasks.elim

def written : Request → Option String
  | .store (.saveFunnel f) => some f.id
  | .store (.deleteFunnel id) => some id
  | _ => none

theorem holds_of_written {id : String} (hasks : e.asks within g q) (h : written q = some id) :
    ∃ isNew, g = .holds isNew ∧ e.target = id := by
  cases q with
  | store call =>
    cases call with
    | saveFunnel f =>
      cases g with
      | holds isNew => exact ⟨isNew, rfl, hasks.1.symm.trans (Option.some.inj h)⟩
      | _ => exact hasks.elim
    | deleteFunnel id' =>
      cases g with
      | holds isNew => exact ⟨isNew, rfl, hasks.1.symm.trans (Option.some.inj h)⟩
      | _ => exact hasks.elim
    | _ => cases h
  | _ => cases h

theorem call_of_asks {call : StoreCall} (hasks : e.asks within g (.store call)) :
    (∃ id, call = .getFunnel id) ∨ (∃ f, call = .saveFunnel f) ∨
      (∃ now, call = .lockFunnel e.target e.editor now ∧ within now) ∨
      call = .unlockFunnel e.target e.editor ∨
      call = .deleteFunnel e.target ∧ ∃ isNew, g = .holds isNew := by
  have hunlock {isNew : Bool} {id holder : String}
      (h : isNew = true ∧ id = e.target ∧ holder = e.editor) :
      StoreCall.unlockFunnel id holder = .unlockFunnel e.target e.editor := by
    rw [h.2.1, h.2.2]
  cases g with
  | away =>
    cases call with
    | getFunnel id => exact .inl ⟨id, rfl⟩
    | lockFunnel id holder now =>
      obtain ⟨rfl, rfl, hnow⟩ := hasks
      exact .inr (.inr (.inl ⟨now, rfl, hnow⟩))
    | _ => exact hasks.elim
  | holds isNew =>
    cases call with
    | getFunnel id => exact .inl ⟨id, rfl⟩
    | saveFunnel f => exact .inr (.inl ⟨f, rfl⟩)
    | unlockFunnel id holder => exact .inr (.inr (.inr (.inl (hunlock hasks))))
    | deleteFunnel id =>
      obtain rfl : id = e.target := hasks.1
      exact .inr (.inr (.inr (.inr ⟨rfl, isNew, rfl⟩)))
    | _ => exact hasks.elim
  | deleted isNew =>
    cases call with
    | unlockFunnel id holder => exact .inr (.inr (.inr (.inl (hunlock hasks))))
    | _ => exact hasks.elim
  | ended => exact hasks.elim

/-- A lock that holds is safe from all edits but those of its funnel by its holder. -/
theorem Sees.lock_eq {id : String} {lock : Lock} (h : e.Sees within g s.data)
    (hasks : e.asks within g q) (hserved : Served q s a s')
    (hwindow : IsWindow s.data.funnelTtl within) (hlock : s.data.funnelLocks.get? id = some lock)
    (hsince : within lock.acquiredAt) (hother : ¬ (id = e.target ∧ lock.holder = e.editor)) :
    s'.data.funnelLocks.get? id = some lock := by
  cases hserved with
  | outside => exact hlock
  | store call =>
    rcases call_of_asks hasks with
      ⟨id', rfl⟩ | ⟨f, rfl⟩ | ⟨now, rfl, hnow⟩ | rfl | ⟨rfl, isNew, rfl⟩
    · rwa [MemoryStore.answer_getFunnel_data]
    · have hne : f.id ≠ "" := by
        cases g with
        | holds isNew => exact hasks.1 ▸ hasks.2
        | _ => exact hasks.elim
      rwa [MemoryStore.answer_saveFunnel hne]
    · by_cases hid : id = e.target
      · subst hid
        -- the lock holds at all instants of the window, so it is in the way of other editors
        have hnot : ¬ s.data.MayLock e.target e.editor now := by
          intro hmay
          obtain ⟨ends, hends, hcomparable, hlater⟩ := hwindow _ _ hsince hnow
          rcases hmay lock hlock with heditor | hranOut
          · exact hother ⟨rfl, heditor⟩
          · rw [Lock.holds_eq hends, if_pos hcomparable, hlater] at hranOut
            cases hranOut
        obtain ⟨_, _, _, _, hanswer⟩ := MemoryStore.answer_lockFunnel_of_not hnot
        rwa [hanswer]
      · by_cases hmay : s.data.MayLock e.target e.editor now
        · rw [MemoryStore.answer_lockFunnel hmay]
          exact (Table.get?_set_of_ne _ _ hid).trans hlock
        · obtain ⟨_, _, _, _, hanswer⟩ := MemoryStore.answer_lockFunnel_of_not hmay
          rwa [hanswer]
    · rw [MemoryStore.answer_unlockFunnel]
      split
      · next hheld =>
        have hid : id ≠ e.target := by
          rintro rfl
          obtain ⟨_, hlock', heditor⟩ := MemoryStore.funnelHolder_eq_some_iff.mp hheld
          obtain rfl := Option.some.inj (hlock'.symm.trans hlock)
          exact hother ⟨rfl, heditor⟩
        exact (Table.get?_erase_of_ne _ hid).trans hlock
      · exact hlock
    · -- whoever deletes the funnel has the lock, which is therefore not another editor's
      obtain ⟨since, _, heditor⟩ := h isNew rfl
      by_cases hid : id = e.target
      · subst hid
        obtain rfl := Option.some.inj (heditor.symm.trans hlock)
        exact absurd ⟨rfl, rfl⟩ hother
      · exact (Table.get?_erase_of_ne _ hid).trans hlock

/-- Whoever has the lock, and shares it with nobody who gives it up, gets it once more and does not
give it back. -/
theorem Sees.session_answered {since : Instant} (hfiled : s.data.IsFiled)
    (hg : g = .away ∨ g = .holds false) (hsince : within since)
    (hlock : s.data.funnelLocks.get? e.target = some ⟨e.editor, since⟩) (hasks : e.asks within g q)
    (hkept : q ≠ .store (.deleteFunnel e.target)) (hserved : Served q s a s')
    (hadmits : e.admits within q a) : ∃ g', e.replies within g q a g' ∧
      (g' = .away ∨ g' = .holds false) ∧
      ∃ since, within since ∧ s'.data.funnelLocks.get? e.target = some ⟨e.editor, since⟩ := by
  have hsees : e.Sees within g s.data := fun _ _ => ⟨since, hsince, hlock⟩
  obtain ⟨g', hreplies, hsees'⟩ := hsees.answered hfiled hasks hserved hadmits
  refine ⟨g', hreplies, ?_⟩
  have hkeeps (hlocks : s'.data.funnelLocks = s.data.funnelLocks) (hg' : g' = .away) :
      (g' = .away ∨ g' = .holds false) ∧
        ∃ since, within since ∧ s'.data.funnelLocks.get? e.target = some ⟨e.editor, since⟩ :=
    ⟨.inl hg', since, hsince, hlocks ▸ hlock⟩
  have hholds (hg' : g' = .holds false) : (g' = .away ∨ g' = .holds false) ∧
      ∃ since, within since ∧ s'.data.funnelLocks.get? e.target = some ⟨e.editor, since⟩ :=
    ⟨.inr hg', hsees' false hg'⟩
  rcases hg with rfl | rfl
  · cases hserved with
    | outside hq =>
      cases q with
      | clock => exact hkeeps rfl hreplies.2
      | funnelId => exact hkeeps rfl hreplies.2
      | store call => exact absurd rfl (hq call)
      | _ => exact hasks.elim
    | store call =>
      cases call with
      | getFunnel id => exact hkeeps (by rw [MemoryStore.answer_getFunnel_data]) hreplies.2
      | lockFunnel id holder now =>
        obtain ⟨rfl, rfl, _⟩ := hasks
        rw [MemoryStore.answer_lockFunnel_of_lock hlock rfl] at hreplies
        rcases hreplies with ⟨isNew, hanswer, rfl⟩ | ⟨⟨fault, hanswer⟩, _⟩
        · obtain rfl := Except.ok.inj hanswer
          exact hholds rfl
        · cases hanswer
      | _ => exact hasks.elim
  · cases q with
    | store call =>
      cases call with
      | getFunnel id => exact hholds hreplies.2
      | saveFunnel f => exact hholds hreplies
      | deleteFunnel id => exact absurd (by rw [hasks.1]) hkept
      | unlockFunnel id holder => exact absurd hasks.1 Bool.false_ne_true
      | _ => exact hasks.elim
    | _ => exact hasks.elim

end Sees

inductive Notes (e : Edit) : Phase → Prop
  | away (h : e.granted = none) : Notes e .away
  | holds {isNew : Bool} (h : e.granted = some isNew) : Notes e (.holds isNew)
  | deleted {isNew : Bool} (h : e.granted = some isNew) (hdeletes : e.op.deletes = true) :
    Notes e (.deleted isNew)
  | ended : Notes e .ended

section Notes

variable {g g' : Phase} {q : Request} {a : q.Answer}

theorem notes_eq (h : ∀ id holder now, q ≠ .store (.lockFunnel id holder now)) :
    e.notes q a = e.granted := by
  unfold notes
  split
  · exact absurd rfl (h _ _ _)
  · rfl

theorem Notes.answered (h : e.Notes g) (hasks : e.asks within g q)
    (hreplies : e.replies within g q a g') (rest : Activity Unit) :
    (e.answered q a rest).Notes g' := by
  cases h with
  | away hnone =>
    cases q with
    | clock => exact hreplies.2 ▸ .away hnone
    | funnelId => exact hreplies.2 ▸ .away hnone
    | store call =>
      cases call with
      | getFunnel id => exact hreplies.2 ▸ .away hnone
      | lockFunnel id holder now =>
        rcases hreplies with ⟨isNew, rfl, rfl⟩ | ⟨_, rfl⟩
        · exact .holds rfl
        · exact .ended
      | _ => exact hasks.elim
    | _ => exact hasks.elim
  | holds hgranted =>
    cases q with
    | store call =>
      cases call with
      | getFunnel id => exact hreplies.2 ▸ .holds hgranted
      | saveFunnel f =>
        obtain rfl : g' = _ := hreplies
        exact .holds hgranted
      | deleteFunnel id =>
        obtain rfl : g' = _ := hreplies
        exact .deleted hgranted hasks.2
      | unlockFunnel id holder =>
        obtain rfl : g' = _ := hreplies
        exact .ended
      | _ => exact hasks.elim
    | _ => exact hasks.elim
  | deleted hgranted hdeletes =>
    cases q with
    | store call =>
      cases call with
      | unlockFunnel id holder =>
        obtain rfl : g' = _ := hreplies
        exact .ended
      | _ => exact hasks.elim
    | _ => exact hasks.elim
  | ended => exact hasks.elim

variable (h : e.Notes g) (hasks : e.asks within g q) (hspares : e.granted ≠ none → e.Spares)
include h hasks hspares

theorem Notes.away_or_holds : g = .away ∨ g = .holds false := by
  cases h with
  | away => exact .inl rfl
  | @holds isNew hgranted =>
    obtain ⟨hnew, _⟩ := hspares (by simp [hgranted])
    cases isNew with
    | false => exact .inr rfl
    | true => exact absurd hgranted hnew
  | deleted hgranted hdeletes =>
    obtain ⟨_, hstays⟩ := hspares (by simp [hgranted])
    rw [hdeletes] at hstays
    cases hstays
  | ended => exact hasks.elim

theorem Notes.ne_deleteFunnel : q ≠ .store (.deleteFunnel e.target) := by
  rintro rfl
  cases h with
  | holds hgranted =>
    obtain ⟨_, hstays⟩ := hspares (by simp [hgranted])
    rw [hasks.2] at hstays
    cases hstays
  | _ => exact hasks.elim

end Notes

end Edit

end Editing

end FunnelFlow
