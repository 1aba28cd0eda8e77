import FunnelFlow.Activity
import FunnelFlow.Funnel.Validation

/-!
What editors do with funnels. Every write of a funnel holds its lock: it takes the lock first and
gives it back in the end, unless the editor had it before. An active funnel is written only when it
has no violations; drafts are written with theirs.
-/

namespace FunnelFlow.Editing

open Activity

def refuse (e : Fault) : Fault :=
  match e with
  | .malformed _ | .unknownNodeType _ | .tooManyDigits _ => .invalidDocument e
  | e => e

/-- The funnel of an editor's document. A blank start is inferred. -/
def ofDocument (document : Value) : Reading Funnel :=
  let r := Funnel.ofDocument document .null
  { needsId := r.needsId
    result := fun fresh => match r.result fresh with
      | .ok f => .ok f.inferStart
      | .error e => .error (refuse e) }

def ensureActivatable (f : Funnel) : Activity Unit :=
  if f.isActive && !f.violations.isEmpty then throw (.notActivatable f.name f.violations)
  else pure ()

/-- Does something under the lock of a funnel, which is given back only if it was new. -/
def withLock {α : Type} (id editor : String) (now : Instant) (act : Activity α) : Activity α := do
  let isNew : Bool ← store (.lockFunnel id editor now)
  let result ← act.attempt
  if isNew then
    let _ : Bool ← store (.unlockFunnel id editor)
  finish result

/-- Writes a funnel. The time of its first writing is kept. -/
def write (f : Funnel) (now : Instant) : Activity Funnel := do
  ensureActivatable f
  let existing : Option Funnel ← store (.getFunnel f.id)
  let createdAt := (existing.bind (·.createdAt)).getD now
  store (.saveFunnel { f with createdAt := some createdAt, updatedAt := some now })

def save (document : Value) (editor : String) : Activity (Funnel × List Violation) := do
  let f ← readFunnel (ofDocument document)
  let now ← clock
  withLock f.id editor now <| during .savingFunnel do
    let saved ← write f now
    return (saved, f.violations)

def validate (document : Value) : Activity (Funnel × List Violation) := do
  let f ← readFunnel (ofDocument document)
  return (f, f.violations)

def list : Activity (List Funnel) := during .listingFunnels (store .listFunnels)

def detail (id : String) : Activity Funnel := do
  let found : Option Funnel ← store (.getFunnel id)
  match found with
  | some f => return f
  | none => throw (.funnelNotFound id)

def delete (id editor : String) : Activity Unit := do
  let now ← clock
  let deleted : Bool ← withLock id editor now (store (.deleteFunnel id))
  if !deleted then throw (.funnelNotFound id)

def setActive (id : String) (active : Bool) (editor : String) : Activity Funnel := do
  let now ← clock
  withLock id editor now do
    let f := { ← detail id with isActive := active }
    ensureActivatable f
    store (.saveFunnel { f with updatedAt := some now })

def lock (id editor : String) : Activity Unit := do
  let _ ← detail id
  let now ← clock
  let _ : Bool ← store (.lockFunnel id editor now)

def unlock (id editor : String) : Activity Bool := store (.unlockFunnel id editor)

def postFunnel (id : String) : Funnel :=
  let message : Node :=
    { id := "new-post-email"
      position := some ⟨Double.ofInt? 250, Double.ofInt? 100⟩
      label := some "New post notification"
      action := .email "New on the blog: \x7b\x7bpostTitle\x7d\x7d"
        ("We just published \x7b\x7bpostTitle\x7d\x7d. " ++
          "Read it here: \x7b\x7bpostUrl\x7d\x7d") none }
  { id, name := "New Post Distribution", trigger := .newPostPublished, isActive := true
    startNodeId := message.id, nodes := [message], createdAt := none, updatedAt := none }

def ensurePostFunnel (editor : String) : Activity Funnel := do
  match (← list).find? (·.trigger == .newPostPublished) with
  | some f => return f
  | none =>
    let id ← request .funnelId
    let (saved, _) ← save (.object (postFunnel id).toDocument) editor
    return saved

end FunnelFlow.Editing
