import HalfDuplex.Proofs.CutShort
import HalfDuplex.Proofs.Renewal

/-!
# Attempts without a fault

Followed forwards, an attempt needs to know that its counters have room.  If no tick of it
faulted, then this is no assumption any more: a nibble that was presented was counted, and an
octet that was asked for was answered.

Main results: `Trial.Finishes.few` and `Trial.Starves.few` for the nibbles, and
`Trial.Supplies.answers` for the source.
-/

namespace HalfDuplex

open Traced

namespace Sequencer

variable {sequencer loaded : Sequencer} {collision : Bool} {now : Tick}

/-- A nibble that is presented can be counted. -/
theorem few_of_present {left : Sequencer × SequencerStep}
    (presents : (sequencer.present collision).value = .ok left) :
    sequencer.nibbles + 1 < countLimit := by
  simp only [present, value_bind_eq_ok_iff, value_lift] at presents
  obtain ⟨advanced, advances, nibbles, counted, _⟩ := presents
  obtain ⟨_, rfl⟩ := advance_eq_ok_iff.mp advances
  exact (checkedAdd_eq_ok_iff.mp counted).1

variable {σ : Type} [ByteSource σ] {source after : σ} {left : Sequencer × σ × SequencerStep}
  (active : sequencer.stage ≠ .idle)
  (positive : 0 < sequencer.plan.nibbleTicks)
  (due : sequencer.elapsed % sequencer.plan.nibbleTicks = 0)
  (steps : (sequencer.step now collision source).value = .ok left)

include active positive due steps

theorem few_of_continues (high : sequencer.highNext = true) :
    sequencer.nibbles + 1 < countLimit := by
  rw [step_active active positive, if_neg (Decidable.not_not.mpr due), if_pos high] at steps
  cases presents : (sequencer.present collision).value with
  | error fault =>
      rw [presents] at steps
      cases steps
  | ok presented => exact few_of_present presents

theorem stepBoundary_of_due (low : sequencer.highNext = false) :
    (sequencer.stepBoundary now collision source).value = .ok left := by
  rwa [step_active active positive, if_neg (Decidable.not_not.mpr due),
    if_neg (by rw [low]; exact Bool.false_ne_true)] at steps

theorem few_of_begins
    (low : sequencer.highNext = false)
    (boundary : Boundary now sequencer source loaded after none)
    (room : loaded.Room) :
    sequencer.nibbles + 1 < countLimit := by
  have begins := stepBoundary_of_due active positive due steps low
  simp only [stepBoundary, value_bind, boundary.value room, Except.bind] at begins
  cases presents : (loaded.present collision).value with
  | error fault =>
      rw [presents] at begins
      cases begins
  | ok presented =>
      rw [← boundary.counters.2.2.2]
      exact few_of_present presents

/-- A source that was asked has answered. -/
theorem answers_of_begins
    (low : sequencer.highNext = false)
    (calm : sequencer.aborting = false)
    (pulling : sequencer.Pulling) :
    ∃ answer, ByteSource.pull source now = .ok answer := by
  have begins := stepBoundary_of_due active positive due steps low
  rw [stepBoundary, boundary_of_calm calm, load_of_pulling pulling, loadData] at begins
  simp only [value_bind, value_lift] at begins
  cases pulled : ByteSource.pull source now with
  | error fault =>
      rw [pulled] at begins
      cases begins
  | ok answer => exact ⟨answer, rfl⟩

end Sequencer

namespace Trial

variable {σ : Type} [ByteSource σ]

/-- No tick of the attempt before a given one faults. -/
def Sound (trial : Trial σ) (finish : Nat) : Prop :=
  ∀ tick ≤ finish, ∃ standing, trial.entering tick = .ok standing

variable {trial : Trial σ} {sequencer loaded : Sequencer} {source after : σ}
  {noticed : Option Nat} {nibbles : List Signals} {octets bytes : List Octet}
  {tick finish cursor : Nat}

theorem Sound.earlier {sooner : Nat}
    (sound : trial.Sound finish)
    (before : sooner ≤ finish) :
    trial.Sound sooner :=
  fun tick within => sound tick (Nat.le_trans within before)

theorem Sound.steps
    (sound : trial.Sound finish)
    (before : tick < finish)
    (enters : trial.entering tick = .ok (sequencer, source)) :
    ∃ left, (sequencer.step (trial.reading tick) (trial.collision tick) source).value =
      .ok left := by
  obtain ⟨⟨next, after⟩, entersNext⟩ := sound (tick + 1) before
  obtain ⟨other, asked, step, entersAgain, stepped⟩ := exists_step_of_entering entersNext
  cases enters.symm.trans entersAgain
  exact ⟨_, stepped⟩

/-- The nibbles of a byte that was driven without a fault can be counted. -/
theorem HasDriven.few
    (positive : 0 < trial.nibbleTicks)
    (narrow : trial.nibbleTicks < countLimit)
    (active : sequencer.stage ≠ .idle)
    (activeThen : loaded.stage ≠ .idle)
    (low : sequencer.highNext = false)
    (boundary : Sequencer.Boundary (trial.reading (nibbles.length * trial.nibbleTicks))
      sequencer source loaded after none)
    (room : loaded.Room)
    (unjammed : ∀ remaining, loaded.stage ≠ .jam remaining)
    (pending : loaded.aborting =
      loaded.pendingAt noticed (nibbles.length * trial.nibbleTicks))
    (heeds : trial.HeedsOver loaded noticed (nibbles.length * trial.nibbleTicks)
      ((nibbles.length + 2) * trial.nibbleTicks))
    (sound : trial.Sound ((nibbles.length + 2) * trial.nibbleTicks))
    (driven : trial.HasDriven noticed nibbles sequencer source) :
    nibbles.length + 2 < countLimit := by
  have firstBefore : nibbles.length * trial.nibbleTicks <
      (nibbles.length + 2) * trial.nibbleTicks :=
    Nat.mul_lt_mul_of_pos_right (by omega) positive
  have secondBefore : (nibbles.length + 1) * trial.nibbleTicks <
      (nibbles.length + 2) * trial.nibbleTicks :=
    Nat.mul_lt_mul_of_pos_right (by omega) positive
  obtain ⟨_, steps⟩ := sound.steps firstBefore driven.enters
  have fewFirst := Sequencer.few_of_begins active (driven.plan ▸ positive) driven.due steps low
    boundary room
  rw [driven.counted] at fewFirst
  have half := driven.begins positive narrow active activeThen low boundary room pending
    (fun tick atLeast before => heeds tick atLeast (Nat.lt_trans before secondBefore)) fewFirst
  have longer : (nibbles ++ [loaded.dueSignals]).length = nibbles.length + 1 := by
    rw [List.length_append, List.length_singleton]
  have activeHalf : loaded.nextStage ≠ .idle := Sequencer.nextStage_ne_idle activeThen
  have high : loaded.nextHigh = true := by
    rw [Sequencer.nextHigh_of_unjammed unjammed, boundary.counters.2.1, low, Bool.not_false]
  obtain ⟨_, stepsHalf⟩ := sound.steps (by rwa [longer]) half.enters
  have fewSecond := Sequencer.few_of_continues activeHalf (half.plan ▸ positive) half.due
    stepsHalf high
  rwa [half.counted, longer] at fewSecond

/-- The nibbles of the bytes that an attempt drove without a fault and without a collision can
be counted. -/
theorem few_of_sound {count : Nat}
    (regular : trial.sequencer.plan.Regular)
    (supplies : trial.Supplies octets)
    (more : count ≤ trial.sequencer.plan.preambleBytes + octets.length ∨
      trial.answer octets.length = .ok .finished)
    (within : count ≤ (trial.frame octets).length)
    (calm : ∀ tick < count * trial.byteTicks, trial.collision tick = false)
    (sound : trial.Sound (count * trial.byteTicks)) :
    2 * count < countLimit := by
  induction count with
  | zero =>
      show 0 < countLimit
      decide
  | succ count inductionHypothesis =>
      have sooner : count * trial.byteTicks ≤ (count + 1) * trial.byteTicks :=
        Nat.mul_le_mul_right _ (Nat.le_succ count)
      have moreBefore := more.imp_left Nat.le_of_succ_le
      have fewBefore := inductionHypothesis moreBefore (Nat.le_of_succ_le within)
        (fun tick before => calm tick (Nat.lt_of_lt_of_le before sooner)) (sound.earlier sooner)
      obtain ⟨sequencer, source, cursor, writes, quiet⟩ := writes_of_quiet regular supplies
        moreBefore (Nat.le_of_succ_le within)
        (fun tick before => calm tick (Nat.lt_of_lt_of_le before sooner)) fewBefore
      have length : ((trial.frame octets).take count).length = count := by
        rw [List.length_take]
        omega
      obtain ⟨loaded, after, place, takesUp⟩ := writes.loads regular supplies
        (by rw [length]; exact more) (by omega) quiet
      have wide : countLimit + 1 < wideLimit := by decide
      obtain ⟨_, room, pending, heeds⟩ := writes.ready quiet
        (by
          rw [length]
          exact fun tick _ before => strikes_of_calm calm tick (Nat.zero_le _) before)
        (by
          rw [length]
          omega) takesUp
      have abortable := takesUp.stands.abortable
      have span : ((drivenNibbles ((trial.frame octets).take count)).length + 2) *
          trial.nibbleTicks = (count + 1) * trial.byteTicks := by
        rw [Nat.add_mul, trial.drivenTicks, length, ← Nat.succ_mul]
      have few := writes.driven.few regular.nibblePositive regular.nibbleNarrow writes.active
        (Sequencer.active_of_abortable abortable) writes.low takesUp.boundary room
        (Sequencer.abortable_unjammed abortable) pending heeds (span ▸ sound)
      rwa [length_drivenNibbles, length] at few

theorem Finishes.few
    (regular : trial.sequencer.plan.Regular)
    (finishes : trial.Finishes octets)
    (calm : ∀ tick < (trial.frame octets).length * trial.byteTicks,
      trial.collision tick = false)
    (sound : trial.Sound ((trial.frame octets).length * trial.byteTicks)) :
    2 * (trial.frame octets).length < countLimit :=
  few_of_sound regular finishes.supplies (.inr finishes.finished) (Nat.le_refl _) calm sound

/-- The source of an attempt without a fault is asked once more after the octets that it
supplies. -/
theorem Supplies.writes_of_sound
    (regular : trial.sequencer.plan.Regular)
    (supplies : trial.Supplies octets)
    (calm : ∀ tick < (trial.sequencer.plan.preambleBytes + octets.length) * trial.byteTicks,
      trial.collision tick = false)
    (sound : trial.Sound
      ((trial.sequencer.plan.preambleBytes + octets.length) * trial.byteTicks)) :
    ∃ sequencer source, trial.Writes none octets
        (preambleOctets trial.sequencer.plan.preambleBytes ++ octets) sequencer source
        octets.length ∧ sequencer.Pulling ∧ sequencer.aborting = false ∧
      2 * (trial.sequencer.plan.preambleBytes + octets.length) < countLimit := by
  have within : trial.sequencer.plan.preambleBytes + octets.length ≤
      (trial.frame octets).length := by
    rw [length_frameOctets regular.preamblePositive]
    omega
  have few := few_of_sound regular supplies (.inl (Nat.le_refl _)) within calm sound
  have unstruck : ∀ struck, none = some struck →
      (trial.sequencer.plan.preambleBytes + octets.length - 1) * trial.byteTicks ≤ struck := nofun
  obtain ⟨sequencer, source, writes, pulling⟩ :=
    supplies.writes regular unstruck (strikes_of_calm calm) few
  exact ⟨sequencer, source, writes, pulling, writes.driven.pending.trans (Bool.and_false _), few⟩

/-- A source that was asked without a fault has answered. -/
theorem Supplies.answers
    (regular : trial.sequencer.plan.Regular)
    (supplies : trial.Supplies octets)
    (calm : ∀ tick < (trial.sequencer.plan.preambleBytes + octets.length) * trial.byteTicks,
      trial.collision tick = false)
    (sound : trial.Sound
      ((trial.sequencer.plan.preambleBytes + octets.length) * trial.byteTicks + 1)) :
    ∃ answer, trial.answer octets.length = .ok answer := by
  obtain ⟨sequencer, source, writes, pulling, quiet, _⟩ :=
    supplies.writes_of_sound regular calm (sound.earlier (Nat.le_succ _))
  have ticks := trial.drivenTicks (preambleOctets trial.sequencer.plan.preambleBytes ++ octets)
  rw [length_preambled regular.preamblePositive] at ticks
  have enters := writes.driven.enters
  rw [ticks] at enters
  obtain ⟨_, steps⟩ := sound.steps (Nat.lt_succ_self _) enters
  obtain ⟨⟨after, answer⟩, pulled⟩ := Sequencer.answers_of_begins writes.active
    (writes.driven.plan ▸ regular.nibblePositive) writes.driven.due steps writes.low quiet pulling
  refine ⟨answer, ?_⟩
  rw [Trial.answer, writes.asked pulling.asking]
  exact congrArg (Except.map Prod.snd) pulled

theorem Starves.few
    (regular : trial.sequencer.plan.Regular)
    (starves : trial.Starves octets)
    (calm : ∀ tick < (trial.sequencer.plan.preambleBytes + octets.length) * trial.byteTicks,
      trial.collision tick = false)
    (sound : trial.Sound
      ((trial.sequencer.plan.preambleBytes + octets.length + 1) * trial.byteTicks)) :
    2 * (trial.sequencer.plan.preambleBytes + octets.length + 1) < countLimit := by
  obtain ⟨sequencer, source, writes, pulling, quiet, few⟩ :=
    starves.supplies.writes_of_sound regular calm
      (sound.earlier (Nat.mul_le_mul_right _ (Nat.le_succ _)))
  obtain ⟨after, pulled, _⟩ := writes.pulls regular pulling starves.starved
  have length := length_preambled regular.preamblePositive octets
  have wide : countLimit ≤ wideLimit := by decide
  have short : sequencer.takeUpMarker.length < wideLimit := by
    have placed := writes.placed.length_le
    show sequencer.length < wideLimit
    omega
  have span : ((drivenNibbles (preambleOctets trial.sequencer.plan.preambleBytes ++
      octets)).length + 2) * trial.nibbleTicks =
        (trial.sequencer.plan.preambleBytes + octets.length + 1) * trial.byteTicks := by
    rw [Nat.add_mul, trial.drivenTicks, length, ← Nat.succ_mul]
  have counted := writes.driven.few regular.nibblePositive regular.nibbleNarrow writes.active
    (by simp [Sequencer.takeUpMarker]) writes.low (.starved pulling pulled quiet)
    ⟨short, nofun⟩ nofun quiet (heeds_of_past rfl fun _ struck => by cases struck) (span ▸ sound)
  rwa [length_drivenNibbles, length] at counted

end Trial

end HalfDuplex
