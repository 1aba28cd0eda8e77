import FunnelFlow.Proofs.Run.Timely

/-!
The pauses of a run. A delay parks it for its hours, a failed attempt for a time that doubles with
each attempt that failed before it in a row. A run that pauses takes no step until its time has
come, whatever the definition is by then.
-/

namespace FunnelFlow

open Relation

namespace Instant

def after (t : Instant) (seconds : Int) : Instant :=
  { t with wall := t.wall + seconds * Calendar.microsPerSecond }

/-- The instants can be compared, and so many seconds lie between them. -/
def HavePassed (since : Instant) (seconds : Int) (now : Instant) : Prop :=
  since.comparable now = true ∧
    since.universal + seconds * Calendar.microsPerSecond ≤ now.universal

theorem havePassed_of_hasCome {t now : Instant} {seconds : Int}
    (h : Run.hasCome now (some (t.after seconds)) = .ok true) : t.HavePassed seconds now := by
  unfold Run.hasCome at h
  dsimp only at h
  split at h
  · next hcomparable =>
    have hle : (t.after seconds).universal ≤ now.universal := of_decide_eq_true (Except.ok.inj h)
    refine ⟨?_, ?_⟩
    · rw [comparable, beq_iff_eq] at hcomparable ⊢
      exact hcomparable.symm
    · simp only [universal, after] at hle ⊢
      omega
  · cases h

theorem eq_after {t t' : Instant} {seconds : Int}
    (h : (Span.ofSeconds seconds).bind t.plus = .ok t') : t' = t.after seconds := by
  obtain ⟨span, hspan, hplus⟩ := except_bind_eq_ok_iff.mp h
  rw [eq_of_plus hplus, Span.eq_of_ofMicros hspan, after]

end Instant

/-- The entry says that the run was ended from outside, without a step. -/
def HistoryEntry.isClosing (e : HistoryEntry) : Bool :=
  e.outcome == .cancelled || e.outcome == .funnelNotFound

def retriesAtEnd (history : List HistoryEntry) : Nat :=
  (history.reverse.takeWhile (·.outcome == .retry)).length

theorem retriesAtEnd_append (history : List HistoryEntry) (e : HistoryEntry) :
    retriesAtEnd (history ++ [e]) = if e.outcome = .retry then retriesAtEnd history + 1 else 0 := by
  by_cases houtcome : e.outcome = .retry
  · simp [retriesAtEnd, houtcome]
  · simp [retriesAtEnd, houtcome]

/-- The seconds that an entry asks the run to rest. The entry was recorded under the definition, and
`earlier` is the history before it. -/
inductive Pause (policy : RetryPolicy) (definition : Option Funnel) (earlier : List HistoryEntry)
    (e : HistoryEntry) : Int → Prop
  | delay {f : Funnel} {n : Node} {id : String} {hours : Int} {next : Option String}
    (hf : definition = some f) (houtcome : e.outcome = .waiting) (hid : e.nodeId = some id)
    (hn : f.node? id = some n) (haction : n.action = .delay hours next) :
    Pause policy definition earlier e (hours * 3600)
  | retry {k : Nat} (houtcome : e.outcome = .retry) (hk : retriesAtEnd (earlier ++ [e]) = k) :
    Pause policy definition earlier e (policy.backoffSeconds * 2 ^ (k - 1))

variable {policy : RetryPolicy} {f : Funnel} {definition : Option Funnel} {now due : Instant}
  {earlier trace : List HistoryEntry} {e : HistoryEntry} {seconds : Int} {r r' : Run}

theorem Pause.outcome (h : Pause policy definition earlier e seconds) :
    e.outcome = .waiting ∨ e.outcome = .retry := by
  cases h with
  | delay _ houtcome => exact .inl houtcome
  | retry houtcome => exact .inr houtcome

namespace Run

/-- The run has a step to take from an instant on, and none before it. -/
def PendsUntil (r : Run) (due : Instant) : Prop := ∀ now, r.isEligible now = hasCome now (some due)

theorem delay_pendsUntil {hours : Int} {target : String} {again : Instant}
    (h : (Span.ofHours hours).bind now.plus = .ok again) :
    PendsUntil { r.record now .waiting none with
      currentNodeId := target, status := .waiting, resumeAt := some again, attempts := 0,
      nextAttemptAt := none } (now.after (hours * 3600)) := by
  intro now'
  rw [Instant.eq_after h]
  rfl

theorem retry_pendsUntil {reason : String} {again : Instant} (hstatus : r.status = .running)
    (hattempts : 0 ≤ r.attempts)
    (h : (Span.ofDoubledSeconds policy.backoffSeconds r.attempts).bind now.plus = .ok again) :
    PendsUntil { r.record now .retry (some reason) with
      attempts := r.attempts + 1, nextAttemptAt := some again }
      (now.after (policy.backoffSeconds * 2 ^ r.attempts.toNat)) := by
  obtain ⟨span, hspan, hplus⟩ := except_bind_eq_ok_iff.mp h
  have hseconds := Span.ofSeconds_of_ofDoubledSeconds hattempts hspan
  have hagain := Instant.eq_after (except_bind_eq_ok_iff.mpr ⟨span, hseconds, hplus⟩)
  intro now'
  simp [isEligible, isTerminal, record, hstatus, hagain]

/-- A pause that takes its time is not over at once. -/
theorem PendsUntil.not_isEligible (h : r.PendsUntil (now.after seconds)) (hseconds : 0 < seconds) :
    r.isEligible now = .ok false := by
  have hmicros : 0 < seconds * Calendar.microsPerSecond := Int.mul_pos hseconds (by decide)
  have hlater : (now.after seconds).le now = false := by
    apply decide_eq_false
    simp only [Instant.universal, Instant.after]
    omega
  rw [h now, hasCome, if_pos (by simp [Instant.comparable, Instant.after]), hlater]

structure Records (policy : RetryPolicy) (f : Funnel) (now : Instant) (r r' : Run)
    (e : HistoryEntry) : Prop where
  history : r'.history = r.history ++ [e]
  enteredAt : e.enteredAt = now
  nodeId : e.nodeId = some r.currentNodeId
  isOpen : e.isClosing = false
  attempts : r'.isTerminal = false →
    r'.attempts = if e.outcome = .retry then r.attempts + 1 else 0
  waits : e.outcome = .waiting → ∃ n hours next, f.node? r.currentNodeId = some n ∧
    n.action = .delay hours next ∧ r'.PendsUntil (now.after (hours * 3600))
  retries : e.outcome = .retry → 0 ≤ r.attempts →
    r'.PendsUntil (now.after (policy.backoffSeconds * 2 ^ r.attempts.toNat))

theorem Progress.exists_records (h : Progress policy f now r r') (hstatus : r.status = .running) :
    ∃ e, r.Records policy f now r' e := by
  cases h with
  | dangled => exact ⟨_, rfl, rfl, rfl, rfl, by rintro ⟨⟩, by rintro ⟨⟩, by rintro ⟨⟩⟩
  | branched _ _ result =>
    cases result <;> exact ⟨_, advance_history _, rfl, rfl, rfl, fun _ => advance_attempts _,
      by rintro ⟨⟩, by rintro ⟨⟩⟩
  | sent =>
    exact ⟨_, advance_history _, rfl, rfl, rfl, fun _ => advance_attempts _, by rintro ⟨⟩,
      by rintro ⟨⟩⟩
  | delayed hn haction hdelay =>
    rcases delay_eq_ok hdelay with ⟨_, rfl⟩ | ⟨_, _, _, hagain, rfl⟩
    · exact ⟨_, advance_history _, rfl, rfl, rfl, by rintro ⟨⟩, by rintro ⟨⟩, by rintro ⟨⟩⟩
    · exact ⟨_, rfl, rfl, rfl, rfl, fun _ => rfl,
        fun _ => ⟨_, _, _, hn, haction, delay_pendsUntil hagain⟩, by rintro ⟨⟩⟩
  | failed _ _ hfail =>
    rcases failAttempt_eq_ok hfail with ⟨_, rfl⟩ | ⟨_, _, _, hagain, rfl⟩
    · exact ⟨_, rfl, rfl, rfl, rfl, by rintro ⟨⟩, by rintro ⟨⟩, by rintro ⟨⟩⟩
    · exact ⟨_, rfl, rfl, rfl, rfl, fun _ => rfl, by rintro ⟨⟩,
        fun _ hattempts => retry_pendsUntil hstatus hattempts hagain⟩

/-- The run counts the failed attempts at the end of its history, as long as it has not ended. -/
def CountsRetries (r : Run) : Prop := r.isTerminal = false → r.attempts = retriesAtEnd r.history

namespace Records

variable (h : r.Records policy f now r' e)
include h

theorem countsRetries (hr : r.attempts = retriesAtEnd r.history) : r'.CountsRetries := by
  intro hterminal
  rw [h.attempts hterminal, h.history, retriesAtEnd_append, hr]
  split <;> rfl

theorem pendsUntil (hr : r.attempts = retriesAtEnd r.history)
    (hpause : Pause policy (some f) r.history e seconds) : r'.PendsUntil (now.after seconds) := by
  cases hpause with
  | delay hf houtcome hid hn haction =>
    obtain ⟨n, hours, next, hn', haction', hpends⟩ := h.waits houtcome
    obtain rfl := Option.some.inj hf
    obtain rfl := Option.some.inj (hid.symm.trans h.nodeId)
    obtain rfl := Option.some.inj (hn'.symm.trans hn)
    obtain ⟨rfl, _⟩ := Action.delay.inj (haction'.symm.trans haction)
    exact hpends
  | retry houtcome hk =>
    have hpends := h.retries houtcome (by omega)
    rw [retriesAtEnd_append, if_pos houtcome] at hk
    subst hk
    rwa [hr, Int.toNat_natCast] at hpends

end Records

/-- What can become of a stored run, one entry at a time. -/
inductive Moves (policy : RetryPolicy) (r r' : Run) : Prop
  | step {f : Funnel} {now : Instant} (heligible : r.isEligible now = .ok true)
    (hprogress : Progress policy f now (r.resume now) r') : Moves policy r r'
  | closed {e : HistoryEntry} (hhistory : r'.history = r.history ++ [e])
    (hclosing : e.isClosing = true) (hopen : r.isTerminal = false)
    (hterminal : r'.isTerminal = true) : Moves policy r r'

theorem exists_records_of_isEligible (heligible : r.isEligible now = .ok true)
    (h : Progress policy f now (r.resume now) r') : ∃ e, (r.resume now).Records policy f now r' e :=
  h.exists_records (resume_status (isTerminal_eq_false_of_isEligible heligible))

theorem Moves.exists_entry (h : Moves policy r r') :
    ∃ e, r'.history = r.history ++ [e] ∧ r.isTerminal = false ∧
      (e.isClosing = true ∧ r'.isTerminal = true ∨
        e.isClosing = false ∧ r.isEligible e.enteredAt = .ok true) := by
  cases h with
  | step heligible hprogress =>
    obtain ⟨e, hrecords⟩ := exists_records_of_isEligible heligible hprogress
    have hhistory := hrecords.history
    rw [resume_history] at hhistory
    refine ⟨e, hhistory, isTerminal_eq_false_of_isEligible heligible, .inr ⟨hrecords.isOpen, ?_⟩⟩
    rwa [hrecords.enteredAt]
  | closed hhistory hclosing hopen hterminal =>
    exact ⟨_, hhistory, hopen, .inl ⟨hclosing, hterminal⟩⟩

theorem CountsRetries.resume (hr : r.CountsRetries) (heligible : r.isEligible now = .ok true) :
    (r.resume now).attempts = retriesAtEnd (r.resume now).history := by
  rw [resume_attempts, resume_history]
  exact hr (isTerminal_eq_false_of_isEligible heligible)

theorem CountsRetries.moves (hr : r.CountsRetries) (h : ReflTransGen (Moves policy) r r') :
    r'.CountsRetries := by
  induction h with
  | refl => exact hr
  | tail _ hmoves ih =>
    cases hmoves with
    | step heligible hprogress =>
      obtain ⟨e, hrecords⟩ := exists_records_of_isEligible heligible hprogress
      exact hrecords.countsRetries (ih.resume heligible)
    | closed _ _ _ hterminal => exact fun hopen => by simp [hterminal] at hopen

theorem isPrefix_of_moves (h : ReflTransGen (Moves policy) r r') : r.history <+: r'.history := by
  induction h with
  | refl => exact List.prefix_rfl
  | tail _ hmoves ih =>
    obtain ⟨e, hhistory, _⟩ := hmoves.exists_entry
    exact ih.trans ⟨[e], hhistory.symm⟩

/-- After the entries of `trace` the run rests, or was ended, or went on when its time had come. -/
inductive RestsUntil (due : Instant) (trace : List HistoryEntry) (r : Run) : Prop
  | pending (hhistory : r.history = trace) (hpends : r.PendsUntil due)
  | closed {e : HistoryEntry} (hhistory : r.history = trace ++ [e]) (hclosing : e.isClosing = true)
    (hterminal : r.isTerminal = true)
  | resumed {e : HistoryEntry} {later : List HistoryEntry}
    (hhistory : r.history = trace ++ e :: later) (hopen : e.isClosing = false)
    (hcome : hasCome e.enteredAt (some due) = .ok true)

theorem RestsUntil.moves (h : r.RestsUntil due trace) (hmoves : ReflTransGen (Moves policy) r r') :
    r'.RestsUntil due trace := by
  induction hmoves with
  | refl => exact h
  | tail _ hmoves ih =>
    obtain ⟨e, hhistory, hopen, hentry⟩ := hmoves.exists_entry
    cases ih with
    | pending htrace hpends =>
      rw [htrace] at hhistory
      rcases hentry with ⟨hclosing, hterminal⟩ | ⟨hopen, heligible⟩
      · exact .closed hhistory hclosing hterminal
      · exact .resumed hhistory hopen ((hpends e.enteredAt).symm.trans heligible)
    | closed _ _ hterminal => simp [hterminal] at hopen -- what has ended gets no further entry
    | resumed htrace hopen hcome =>
      rw [htrace, List.append_assoc] at hhistory
      exact .resumed hhistory hopen hcome

end Run

end FunnelFlow
