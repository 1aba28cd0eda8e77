import FunnelFlow.Proofs.Service.Dispatch

namespace FunnelFlow

namespace MemoryStore

open StoreM

def hasPostFunnel (m : MemoryStore) : Bool :=
  m.funnels.any fun e => isMarkedFor .newPostPublished e.2

variable {m : MemoryStore} {s : Stored MemoryStore} {fs : List Funnel}

theorem hasPostFunnel_eq (hfs : m.funnels = fs.map funnelEntry) :
    m.hasPostFunnel = fs.any (·.trigger == .newPostPublished) := by
  simp only [hasPostFunnel, hfs, List.any_map, Function.comp_def, funnelEntry,
    isMarkedFor_toDocument]

theorem listFunnels_run (hfs : s.data.funnels = fs.map funnelEntry) (hids : ∀ f ∈ fs, f.id ≠ "") :
    listFunnels.run s = (.ok (fs.map Funnel.restored), s) := by
  have hread : (fs.map funnelEntry).mapM (fun e => readDocument e.2) =
      pure (fs.map Funnel.restored) :=
    mapM_eq_pure fun f hf => readDocument_toDocument (hids f hf)
  rw [listFunnels, run_data_bind, hfs, hread]
  rfl

end MemoryStore

namespace Editing

open Activity

variable {s : Stored MemoryStore} {f : Funnel} {fs : List Funnel} {editor fresh : String}
  {now : Instant}

theorem postFunnel_violations (id : String) : (postFunnel id).violations = [] := by
  have hskeleton : (postFunnel id).skeleton = (postFunnel "").skeleton := rfl
  rw [Funnel.violations_congr hskeleton]
  exact Funnel.LeadsForward.violations_eq_nil (by decide) (by decide) (by decide) (by decide)
    (by decide) (by decide)

theorem readAs_postFunnel {id : String} (hid : id ≠ "") (fresh : String) :
    readAs (.object (postFunnel id).toDocument) fresh = .ok (postFunnel id) := by
  have hread : Funnel.ofDocument (.object (postFunnel id).toDocument) .null =
      { needsId := false, result := fun _ => .ok (postFunnel id).restored } :=
    Funnel.ofDocument_eq_restored hid rfl rfl rfl
  simp only [readAs, ofDocument, hread]
  rfl

theorem run_list (hfs : s.data.funnels = fs.map funnelEntry) (hids : ∀ f ∈ fs, f.id ≠ "") :
    list.run (still now fresh) s = (.ok (fs.map Funnel.restored), s) :=
  run_during_ok (MemoryStore.listFunnels_run hfs hids)

/-- The first funnel about new posts is found, as the store gives it back. -/
theorem run_ensurePostFunnel_of_found (hfs : s.data.funnels = fs.map funnelEntry)
    (hids : ∀ f ∈ fs, f.id ≠ "") (hfound : fs.find? (·.trigger == .newPostPublished) = some f) :
    (ensurePostFunnel editor).run (still now fresh) s = (.ok f.restored, s) := by
  have hlisted : (fs.map Funnel.restored).find? (·.trigger == .newPostPublished) =
      some f.restored := by
    rw [List.find?_map]
    exact congrArg (Option.map Funnel.restored) hfound
  rw [ensurePostFunnel, run_bind_ok (run_list hfs hids), hlisted]
  rfl

theorem run_ensurePostFunnel_of_missing (hfs : s.data.funnels = fs.map funnelEntry)
    (hids : ∀ f ∈ fs, f.id ≠ "") (hmissing : fs.find? (·.trigger == .newPostPublished) = none)
    (hfresh : fresh ≠ "") (hnew : s.data.funnels.get? fresh = none)
    (hfree : s.data.funnelLocks.get? fresh = none) :
    let f := (postFunnel fresh).writtenAt now now
    (ensurePostFunnel editor).run (still now fresh) s =
      (.ok f, { s with data.funnels := s.data.funnels ++ [funnelEntry f] }) := by
  intro f
  have hlisted : (fs.map Funnel.restored).find? (·.trigger == .newPostPublished) = none := by
    rw [List.find?_map]
    exact congrArg (Option.map Funnel.restored) hmissing
  have hid : (request .funnelId).run (still now fresh) s = (.ok fresh, s) := rfl
  have hsave : (save (.object (postFunnel fresh).toDocument) editor).run (still now fresh) s =
      (.ok (f, (postFunnel fresh).violations),
        { s with data.funnels := s.data.funnels ++ [funnelEntry f] }) :=
    run_save_new (f := postFunnel fresh) hfresh hnew (fun _ => postFunnel_violations fresh)
      (readAs_postFunnel hfresh fresh) hfree
  rw [ensurePostFunnel, run_bind_ok (run_list hfs hids), hlisted]
  refine (run_bind_ok hid).trans ?_
  exact run_bind_ok hsave

/-- A funnel is added to the store. Nothing else changes, and nobody has its lock. -/
structure Adds (f : Funnel) (s s' : Stored MemoryStore) : Prop where
  new : s.data.funnels.get? f.id = none
  stored : s' = { s with data.funnels := s.data.funnels ++ [funnelEntry f] }
  isActive : f.isActive = true
  valid : f.violations = []
  unlocked : s'.data.funnelLocks.get? f.id = none

structure GivesPostFunnel (f : Funnel) (s s' : Stored MemoryStore) : Prop where
  trigger : f.trigger = .newPostPublished
  stored : (MemoryStore.answer (.getFunnel f.id)).run s' = (.ok (some f), s')
  kept (h : s.data.hasPostFunnel = true) : s' = s
  added (h : s.data.hasPostFunnel = false) : Adds f s s'

structure Call where
  editor : String
  now : Instant
  fresh : String

def askAll : List Call → Stored MemoryStore → List (Except Fault Funnel) × Stored MemoryStore
  | [], s => ([], s)
  | call :: calls, s =>
    let (result, s) := (ensurePostFunnel call.editor).run (still call.now call.fresh) s
    let (results, s) := askAll calls s
    (result :: results, s)

theorem askAll_of_settled {s : Stored MemoryStore} {f : Funnel}
    (h : ∀ editor now fresh, (ensurePostFunnel editor).run (still now fresh) s = (.ok f, s))
    (calls : List Call) : askAll calls s = (calls.map fun _ => .ok f, s) := by
  induction calls with
  | nil => rfl
  | cons call calls ih => simp only [askAll, h, ih, List.map_cons]

end Editing

namespace Service

open Activity Editing

variable {policy : RetryPolicy} {runTtl funnelTtl : Span} {s : Stored MemoryStore}
  {fs : List Funnel} {f : Funnel} {fresh : String}

theorem gives_found (hdistinct : s.data.funnels.keys.Nodup)
    (hfs : s.data.funnels = fs.map funnelEntry) (hids : ∀ f ∈ fs, f.id ≠ "")
    (hfound : fs.find? (·.trigger == .newPostPublished) = some f) :
    GivesPostFunnel f.restored s s where
  trigger := by
    have hposts := List.find?_some hfound
    exact beq_iff_eq.mp hposts
  stored := by
    have hf := List.mem_of_find?_eq_some hfound
    have hget : s.data.funnels.get? f.id = some (.object f.toDocument) :=
      Table.get?_of_mem hdistinct (hfs ▸ List.mem_map_of_mem (f := funnelEntry) hf)
    have hanswer := MemoryStore.answer_getFunnel (hids f hf) rfl hget
    rwa [Funnel.reread_eq_restored (hids f hf)] at hanswer
  kept _ := rfl
  added hnone := by
    rw [MemoryStore.hasPostFunnel_eq hfs, List.any_eq_false] at hnone
    exact absurd (List.find?_some hfound) (hnone f (List.mem_of_find?_eq_some hfound))

theorem gives_added {now : Instant} (hfs : s.data.funnels = fs.map funnelEntry)
    (hmissing : fs.find? (·.trigger == .newPostPublished) = none) (hfresh : fresh ≠ "")
    (hnew : s.data.funnels.get? fresh = none) (hfree : s.data.funnelLocks.get? fresh = none) :
    let f := (postFunnel fresh).writtenAt now now
    GivesPostFunnel f s { s with data.funnels := s.data.funnels ++ [funnelEntry f] } := by
  intro f
  have hput : s.data.putFunnel f = { s.data with funnels := s.data.funnels ++ [funnelEntry f] } :=
    MemoryStore.putFunnel_of_new (f := f) hnew
  constructor
  case trigger => rfl
  case stored =>
    rw [← hput]
    have hget : (s.data.putFunnel f).funnels.get? f.id = some (.object f.toDocument) :=
      Table.get?_set_self _ _ _
    have hanswer := MemoryStore.answer_getFunnel (s := ⟨s.ids, s.data.putFunnel f⟩) hfresh rfl hget
    rwa [Funnel.reread_eq_restored hfresh] at hanswer
  case kept =>
    intro hstored
    rw [MemoryStore.hasPostFunnel_eq hfs, List.any_eq_true] at hstored
    obtain ⟨g, hg, hposts⟩ := hstored
    exact absurd hposts (List.find?_eq_none.mp hmissing g hg)
  case added =>
    have hskeleton : f.skeleton = (postFunnel fresh).skeleton := rfl
    have hvalid : f.violations = [] :=
      (Funnel.violations_congr hskeleton).trans (postFunnel_violations fresh)
    exact fun _ => ⟨hnew, rfl, rfl, hvalid, hfree⟩

/-- Whoever asks for the funnel about new posts is given a stored one. It is created if there is
none, and asking for it again, as often as one likes, gives the same and changes nothing. -/
theorem InOrder.post_funnel_is_made_once (h : InOrder policy runTtl funnelTtl s) (editor : String)
    (now : Instant) (hfresh : fresh ≠ "") (hunused : s.data.funnels.get? fresh = none) :
    ∃ f s', (ensurePostFunnel editor).run (still now fresh) s = (.ok f, s') ∧
      GivesPostFunnel f s s' ∧ ∀ calls, askAll calls s' = (calls.map fun _ => .ok f, s') := by
  obtain ⟨fs, hfs, hvalid⟩ := h.exists_funnels
  have hids : ∀ f ∈ fs, f.id ≠ "" := fun f hf => (hvalid f hf).1
  cases hfound : fs.find? (·.trigger == .newPostPublished) with
  | some f =>
    exact ⟨f.restored, s, run_ensurePostFunnel_of_found hfs hids hfound,
      gives_found h.distinct hfs hids hfound,
      askAll_of_settled fun _ _ _ => run_ensurePostFunnel_of_found hfs hids hfound⟩
  | none =>
    -- locks are of stored funnels, so the new id has none
    have hfree := h.isGuarded.funnelLocks_get?_eq_none hunused
    let f := (postFunnel fresh).writtenAt now now
    have hfs' : s.data.funnels ++ [funnelEntry f] = (fs ++ [f]).map funnelEntry := by
      rw [hfs, List.map_append]
      rfl
    have hids' : ∀ g ∈ fs ++ [f], g.id ≠ "" := by
      simp only [List.mem_append, List.mem_singleton]
      rintro g (hg | rfl)
      · exact hids g hg
      · exact hfresh
    have hfound' : (fs ++ [f]).find? (·.trigger == .newPostPublished) = some f := by
      rw [List.find?_append, hfound]
      rfl
    exact ⟨f, _, run_ensurePostFunnel_of_missing hfs hids hfound hfresh hunused hfree,
      gives_added hfs hfound hfresh hunused hfree,
      askAll_of_settled fun _ _ _ => run_ensurePostFunnel_of_found hfs' hids' hfound'⟩

theorem post_funnel_is_added_to_welcome :
    "posts" ≠ "" ∧ InOrder ⟨3, 60⟩ ⟨0⟩ ⟨0⟩ Event.welcomed ∧
    Event.welcomed.data.funnels.get? "posts" = none ∧
    ∃ f s', (ensurePostFunnel "ada").run (still ⟨5, none⟩ "posts") Event.welcomed = (.ok f, s') ∧
      Adds f Event.welcomed s' ∧
      askAll [⟨"bob", ⟨6, none⟩, "more"⟩, ⟨"ada", ⟨7, none⟩, "posts"⟩] s' =
        ([.ok f, .ok f], s') := by
  have hinOrder := Event.welcomed_inOrder ⟨3, 60⟩
  have hfresh : "posts" ≠ "" := by decide
  have hunused : Event.welcomed.data.funnels.get? "posts" = none := by
    rw [Event.welcomed_eq]
    rfl
  have hmissing : Event.welcomed.data.hasPostFunnel = false := by
    rw [Event.welcomed_eq]
    rfl
  obtain ⟨f, s', hrun, hgives, hagain⟩ :=
    hinOrder.post_funnel_is_made_once "ada" ⟨5, none⟩ hfresh hunused
  exact ⟨hfresh, hinOrder, hunused, f, s', hrun, hgives.added hmissing, hagain _⟩

end Service

end FunnelFlow
