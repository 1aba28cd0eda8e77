import Mathlib.Algebra.Group.Int.Defs
import FunnelFlow.Proofs.Condition
import FunnelFlow.Proofs.Run.Step

namespace FunnelFlow

open Calendar

namespace Instant

variable {t t' now : Instant} {micros : Int}

theorem eq_of_plus {s : Span} (h : t.plus s = .ok t') :
    t' = { t with wall := t.wall + s.micros } := by
  unfold plus at h
  dsimp only at h
  split at h
  · exact (Except.ok.inj h).symm
  · cases h

theorem plus_eq_ok {s : Span} (hstart : 0 ≤ t.wall + s.micros)
    (hend : t.wall + s.micros < wallEnd) :
    t.plus s = .ok { t with wall := t.wall + s.micros } := by
  simp [plus, inRange, hstart, hend]

end Instant

namespace Span

variable {t now : Instant} {micros : Int}

theorem ofMicros_eq_ok (hstart : 0 ≤ micros) (hend : micros < wallEnd) :
    ofMicros micros = .ok ⟨micros⟩ := by
  have hday : microsPerDay = 86400000000 := rfl
  rw [wallEnd, hday] at hend
  have hdays : 0 ≤ micros / microsPerDay ∧ micros / microsPerDay ≤ 3652059 := by
    rw [hday]
    omega
  simp only [ofMicros]
  rw [if_neg (by omega), if_neg (by omega)]

theorem eq_of_ofMicros {s : Span} (h : ofMicros micros = .ok s) : s = ⟨micros⟩ := by
  simp only [ofMicros] at h
  split at h
  · cases h
  · split at h
    · cases h
    · exact (Except.ok.inj h).symm

theorem zone_of_plus {span : Except SpanError Span} (h : span.bind now.plus = .ok t) :
    t.zone = now.zone := by
  obtain ⟨s, _, ht⟩ := except_bind_eq_ok_iff.mp h
  rw [Instant.eq_of_plus ht]

theorem later (h : (ofMicros micros).bind now.plus = .ok t) (hmicros : 0 < micros) :
    now.lt t = true := by
  obtain ⟨s, hs, ht⟩ := except_bind_eq_ok_iff.mp h
  obtain rfl := eq_of_ofMicros hs
  obtain rfl := Instant.eq_of_plus ht
  apply decide_eq_true
  simp only [Instant.universal]
  omega

theorem plus_ofMicros (hnow : 0 ≤ now.wall) (hmicros : 0 ≤ micros)
    (hend : now.wall + micros < wallEnd) :
    (ofMicros micros).bind now.plus = .ok { now with wall := now.wall + micros } := by
  rw [ofMicros_eq_ok hmicros (by omega)]
  exact Instant.plus_eq_ok (s := ⟨micros⟩) (by dsimp only; omega) hend

theorem ofHours_eq (hours : Int) : ofHours hours = ofMicros (hours * 3600000000) := by
  rw [ofHours, ofSeconds, show microsPerSecond = 1000000 from rfl]
  congr 1
  omega

/-- Pauses that are not too long to be reckoned double as they should. -/
theorem ofSeconds_of_ofDoubledSeconds {base doublings : Int} {span : Span} (hstart : 0 ≤ doublings)
    (h : ofDoubledSeconds base doublings = .ok span) :
    ofSeconds (base * 2 ^ doublings.toNat) = .ok span := by
  unfold ofDoubledSeconds at h
  rw [if_neg (by omega)] at h
  split at h
  · cases h
  · have hpow : ((Nat.pow 2 doublings.toNat : Nat) : Int) = 2 ^ doublings.toNat := by
      exact_mod_cast rfl
    rwa [hpow] at h

/-- The pauses before the second and the third attempt. -/
theorem exists_pause {attempts : Int} (hstart : 0 ≤ attempts) (hmore : attempts + 1 < 3) :
    ∃ micros, ofDoubledSeconds 60 attempts = ofMicros micros ∧ 0 < micros ∧
      micros ≤ 120000000 := by
  obtain rfl | rfl : attempts = 0 ∨ attempts = 1 := by omega
  · exact ⟨60000000, rfl, by decide, by decide⟩
  · exact ⟨120000000, rfl, by decide, by decide⟩

end Span

/-- A reading without a zone, in the years 2000 to 2500. -/
structure Instant.IsOfNow (now : Instant) : Prop where
  zone : now.zone = none
  start : daysBeforeYear 2000 * microsPerDay ≤ now.wall
  stop : now.wall < daysBeforeYear 2501 * microsPerDay

namespace Instant.IsOfNow

variable {now : Instant} (h : now.IsOfNow)
include h

theorem wall_nonneg : 0 ≤ now.wall := by
  have hyear : (0 : Int) ≤ daysBeforeYear 2000 * microsPerDay := by decide
  exact Int.le_trans hyear h.start

theorem wall_lt : now.wall + 120000000 < wallEnd := by
  have hyear : (daysBeforeYear 2501 * microsPerDay : Int) + 120000000 ≤ wallEnd := by decide
  have hstop := h.stop
  omega

end Instant.IsOfNow

/-- No attribute is an integer that is too large for a finite double, and none has an integer of too
many digits in it. -/
def Fields.AreMeasurable (attributes : Fields) : Prop :=
  ∀ key, ¬ (attributes.get key).IsOversized ∧ ¬ (attributes.get key).IsLong

theorem Fields.areMeasurable_nil : Fields.AreMeasurable [] :=
  fun _ => ⟨id, Value.IsBlank.not_isLong (.inl rfl)⟩

/-- Every delay takes its time, and those that lead on are over before the calendar ends. -/
structure Funnel.IsTimely (f : Funnel) (now : Instant) : Prop where
  hours_pos {n : Node} {hours : Int} {next : Option String} (hn : n ∈ f.nodes)
    (haction : n.action = .delay hours next) : 0 < hours
  hours_lt {n : Node} {hours : Int} {next : String} (hn : n ∈ f.nodes)
    (haction : n.action = .delay hours (some next)) : now.wall + hours * 3600000000 < wallEnd

namespace Test

theorem exists_holds {attributes : Fields} (h : attributes.AreMeasurable) (t : Test) :
    ∃ result, t.holds attributes = .ok result :=
  exists_holds_of_not_overflows (h t.target).2 fun hoverflows => (h t.target).1 hoverflows.2

end Test

namespace Run

/-- The times of the run are read without a zone, and no attempts are owed. -/
structure IsWellFormed (r : Run) : Prop where
  resumeAt : ∀ t, r.resumeAt = some t → t.zone = none
  nextAttemptAt : ∀ t, r.nextAttemptAt = some t → t.zone = none
  attempts : 0 ≤ r.attempts

/-- How a step leaves a run: what happened is recorded, and the run has ended, waits or is to be
tried again later, or goes on where its node refers to. -/
structure MovesOn (f : Funnel) (now : Instant) (r r' : Run) : Prop where
  recorded : ∃ outcome reason,
    r'.history = r.history ++ [⟨some r.currentNodeId, now, outcome, reason⟩]
  left : r'.isTerminal = true ∨
    (r'.status = .waiting ∧ ∃ t, r'.resumeAt = some t ∧ now.lt t = true) ∨
    (r'.status = .running ∧ ∃ t, r'.nextAttemptAt = some t ∧ now.lt t = true) ∨
    r'.GoesOn ∧ f.Points r.currentNodeId r'.currentNodeId

variable {f : Funnel} {now : Instant} {r r' : Run}

theorem exists_hasCome {t? : Option Instant} (hnow : now.zone = none)
    (h : ∀ t, t? = some t → t.zone = none) : ∃ come, hasCome now t? = .ok come := by
  cases t? with
  | none => exact ⟨true, rfl⟩
  | some t => exact ⟨t.le now, by simp [hasCome, Instant.comparable, hnow, h t rfl]⟩

theorem IsWellFormed.exists_isEligible (h : r.IsWellFormed) (hnow : now.zone = none) :
    ∃ eligible, r.isEligible now = .ok eligible := by
  unfold isEligible
  split
  · exact ⟨false, rfl⟩
  · split
    · exact exists_hasCome hnow h.resumeAt
    · exact exists_hasCome hnow h.nextAttemptAt

theorem IsWellFormed.resume (h : r.IsWellFormed) (now : Instant) :
    (r.resume now).IsWellFormed := by
  unfold Run.resume
  split
  · exact ⟨nofun, h.nextAttemptAt, h.attempts⟩
  · exact ⟨h.resumeAt, h.nextAttemptAt, h.attempts⟩

theorem attempts_of_move {attributes : Fields} {run : Run} {message : SendRequest}
    {next : Option String} (h : r.move f now attributes = .ok (.sending run message next)) :
    run.attempts = r.attempts := by
  rcases move_eq_ok h with ⟨_, hmove⟩ | ⟨_, ⟨_, hmove⟩ | ⟨n, _, hmove⟩⟩
  · cases hmove
  · cases hmove
  · unfold moveAt at hmove
    split at hmove
    · obtain ⟨_, _, hmove⟩ := except_map_eq_ok_iff.mp hmove
      cases hmove
    · obtain ⟨_, _, hmove⟩ := except_map_eq_ok_iff.mp hmove
      cases hmove
    all_goals
      cases hmove
      exact resume_attempts

section Steps

variable (hnow : now.IsOfNow)
include hnow

theorem exists_failAttempt (hattempts : 0 ≤ r.attempts) (kind : FailureKind) (reason : String) :
    ∃ r', r.failAttempt ⟨3, 60⟩ now kind reason = .ok r' := by
  simp only [failAttempt, Int.add_sub_cancel]
  split
  · exact ⟨_, rfl⟩
  · next hmore =>
    rw [not_or, Int.not_le] at hmore
    obtain ⟨micros, hpause, hpos, hle⟩ := Span.exists_pause hattempts hmore.2
    have hlt := hnow.wall_lt
    rw [hpause, Span.plus_ofMicros hnow.wall_nonneg (by omega) (by omega)]
    exact ⟨_, rfl⟩

theorem exists_delay {hours : Int} {next : Option String} (hpos : 0 < hours)
    (hend : ∀ target, next = some target → now.wall + hours * 3600000000 < wallEnd) :
    ∃ r', r.delay now hours next = .ok r' := by
  cases next with
  | none => exact ⟨_, rfl⟩
  | some target =>
    simp only [delay]
    rw [Span.ofHours_eq, Span.plus_ofMicros hnow.wall_nonneg (by omega) (hend target rfl)]
    exact ⟨_, rfl⟩

variable (hf : f.IsTimely now) {attributes : Fields} (hattributes : attributes.AreMeasurable)
include hf hattributes

theorem exists_moveAt {n : Node} (hn : n ∈ f.nodes) (id : String) :
    ∃ move, r.moveAt id n now attributes = .ok move := by
  unfold moveAt
  split
  · next test whenTrue whenFalse _ =>
    obtain ⟨result, hresult⟩ := Test.exists_holds hattributes test
    rw [hresult]
    exact ⟨_, rfl⟩
  · next hours next haction =>
    have hend : ∀ target, next = some target → now.wall + hours * 3600000000 < wallEnd := by
      rintro target rfl
      exact hf.hours_lt hn haction
    obtain ⟨r', hr'⟩ := exists_delay (r := r) hnow (hf.hours_pos hn haction) hend
    rw [hr']
    exact ⟨_, rfl⟩
  · exact ⟨_, rfl⟩
  · exact ⟨_, rfl⟩

theorem IsWellFormed.exists_move (h : r.IsWellFormed) :
    ∃ move, r.move f now attributes = .ok move := by
  obtain ⟨eligible, heligible⟩ := h.exists_isEligible hnow.zone
  simp only [move, heligible, bind, Except.bind]
  cases eligible with
  | false => exact ⟨_, rfl⟩
  | true =>
    rw [if_pos rfl]
    cases hnode : f.node? (r.resume now).currentNodeId with
    | none => exact ⟨_, rfl⟩
    | some n => exact exists_moveAt hnow hf hattributes (Funnel.mem_of_node? hnode) f.id

theorem IsWellFormed.exists_step (h : r.IsWellFormed) (deliver : SendRequest → Delivery) :
    ∃ result, r.step ⟨3, 60⟩ f now attributes deliver = .ok result := by
  obtain ⟨move, hmove⟩ := h.exists_move hnow hf hattributes
  simp only [step, hmove, bind, Except.bind]
  cases move with
  | settled run => exact ⟨_, rfl⟩
  | sending run message next =>
    dsimp only
    cases deliver message with
    | accepted => exact ⟨_, rfl⟩
    | failed kind reason =>
      have hattempts : 0 ≤ run.attempts := by
        rw [attempts_of_move hmove]
        exact h.attempts
      obtain ⟨r', hr'⟩ := exists_failAttempt hnow hattempts kind reason
      rw [settle, hr']
      exact ⟨_, rfl⟩

end Steps

theorem IsWellFormed.not_stuck (h : r.IsWellFormed) (hnow : now.IsOfNow) (hf : f.IsTimely now) :
    ¬ r.Stuck ⟨3, 60⟩ f now Fields.AreMeasurable := by
  rintro (⟨attributes, deliver, fault, hattributes, hstep⟩ | ⟨reason, fault, hfailed⟩)
  · obtain ⟨result, hresult⟩ := h.exists_step hnow hf hattributes deliver
    cases hresult.symm.trans hstep
  · obtain ⟨eligible, heligible⟩ := h.exists_isEligible hnow.zone
    rw [attributesUnavailable, heligible] at hfailed
    cases eligible with
    | false => cases hfailed
    | true =>
      obtain ⟨r', hr'⟩ := exists_failAttempt hnow (h.resume now).attempts .transient reason
      cases hr'.symm.trans hfailed

theorem IsWellFormed.advance (h : r.IsWellFormed) (target : Option String) :
    (r.advance target).IsWellFormed := by
  cases target <;> exact ⟨h.resumeAt, nofun, Int.le_refl 0⟩

theorem IsWellFormed.progress {policy : RetryPolicy} (h : r.IsWellFormed) (hnow : now.zone = none)
    (hprogress : Progress policy f now r r') : r'.IsWellFormed := by
  have hrecord (outcome : Outcome) (reason : Option String) :
      (r.record now outcome reason).IsWellFormed := ⟨h.resumeAt, h.nextAttemptAt, h.attempts⟩
  cases hprogress with
  | dangled => exact ⟨h.resumeAt, h.nextAttemptAt, h.attempts⟩
  | branched _ _ result => exact (hrecord _ _).advance _
  | sent => exact (hrecord _ _).advance _
  | delayed _ _ hdelay =>
    rcases delay_eq_ok hdelay with ⟨_, rfl⟩ | ⟨target, resumeAt, _, hresume, rfl⟩
    · exact (hrecord _ _).advance _
    · refine ⟨?_, nofun, Int.le_refl 0⟩
      rintro _ ⟨⟩
      exact (Span.zone_of_plus hresume).trans hnow
  | failed _ _ hfail =>
    have hattempts : 0 ≤ r.attempts + 1 := Int.add_nonneg h.attempts (by decide)
    rcases failAttempt_eq_ok hfail with ⟨_, rfl⟩ | ⟨_, _, again, hagain, rfl⟩
    · exact ⟨h.resumeAt, nofun, hattempts⟩
    · refine ⟨h.resumeAt, ?_, hattempts⟩
      rintro _ ⟨⟩
      exact (Span.zone_of_plus hagain).trans hnow

theorem isTerminal_or_goesOn_of_advance (target : Option String) :
    (r.advance target).isTerminal = true ∨ (r.advance target).GoesOn := by
  cases target with
  | none => exact .inl rfl
  | some target => exact .inr ⟨rfl, rfl⟩

theorem Progress.movesOn (hprogress : Progress ⟨3, 60⟩ f now r r') (hstatus : r.status = .running)
    (hattempts : 0 ≤ r.attempts) (hf : f.IsTimely now) : r.MovesOn f now r' := by
  refine ⟨hprogress.history_eq, ?_⟩
  by_cases hgoes : r'.GoesOn
  · exact .inr (.inr (.inr ⟨hgoes, hprogress.points hgoes⟩))
  · cases hprogress with
    | dangled => exact .inl rfl
    | branched => exact .inl ((isTerminal_or_goesOn_of_advance _).resolve_right hgoes)
    | sent => exact .inl ((isTerminal_or_goesOn_of_advance _).resolve_right hgoes)
    | delayed hn haction hdelay =>
      rcases delay_eq_ok hdelay with ⟨_, rfl⟩ | ⟨target, resumeAt, _, hresume, rfl⟩
      · exact .inl rfl
      · have hpos := hf.hours_pos (Funnel.mem_of_node? hn) haction
        rw [Span.ofHours_eq] at hresume
        exact .inr (.inl ⟨rfl, resumeAt, rfl, Span.later hresume (by omega)⟩)
    | failed _ _ hfail =>
      rcases failAttempt_eq_ok hfail with ⟨_, rfl⟩ | ⟨_, hmore, again, hagain, rfl⟩
      · exact .inl rfl
      · obtain ⟨micros, hpause, hpos, _⟩ := Span.exists_pause hattempts hmore
        rw [hpause] at hagain
        exact .inr (.inr (.inl ⟨hstatus, again, rfl, Span.later hagain hpos⟩))

end Run

end FunnelFlow
