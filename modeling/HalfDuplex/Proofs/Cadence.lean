import HalfDuplex.Proofs.Collisions

/-!
# The cadence of an attempt

An attempt drives one nibble after the other without a pause.  `Timed` says so of the ticks
and the nibbles counted, and `Paced` counts bytes of two nibbles with them.  A tick keeps both,
whether it lies between two nibbles or drives one.
-/

namespace HalfDuplex

namespace Sequencer

/-- The nibble that was driven last began less than the time of a nibble ago. -/
structure Timed (sequencer : Sequencer) : Prop where
  reached : sequencer.elapsed ≤ sequencer.nibbles * sequencer.plan.nibbleTicks
  recent : sequencer.nibbles * sequencer.plan.nibbleTicks <
    sequencer.elapsed + sequencer.plan.nibbleTicks

/-- The attempt is in the last of the bytes that it has begun. -/
structure Paced (sequencer : Sequencer) (begun : Nat) : Prop where
  nibbles : sequencer.nibbles + sequencer.highNext.toNat = 2 * begun
  reached : sequencer.elapsed ≤ sequencer.nibbles * sequencer.plan.nibbleTicks
  recent : sequencer.nibbles * sequencer.plan.nibbleTicks <
    sequencer.elapsed + sequencer.plan.nibbleTicks

variable {sequencer next loaded : Sequencer} {begun : Nat} {collision : Bool}

/-- A multiple of a span that lies less than a span below another one is that one. -/
theorem eq_mul_of_recent {elapsed span count : Nat}
    (due : elapsed % span = 0)
    (reached : elapsed ≤ count * span)
    (recent : count * span < elapsed + span) :
    elapsed = count * span := by
  have multiple : elapsed / span * span = elapsed :=
    Nat.div_mul_cancel (Nat.dvd_of_mod_eq_zero due)
  rw [← multiple] at reached recent ⊢
  rw [← Nat.succ_mul] at recent
  have positive : 0 < span := Nat.pos_of_ne_zero fun zero => by simp [zero] at recent
  have atMost : elapsed / span ≤ count := Nat.le_of_mul_le_mul_right reached positive
  have atLeast : count < elapsed / span + 1 := Nat.lt_of_mul_lt_mul_right recent
  rw [Nat.le_antisymm atMost (Nat.le_of_lt_succ atLeast)]

theorem nextHigh_of_unjammed (unjammed : ∀ remaining, sequencer.stage ≠ .jam remaining) :
    sequencer.nextHigh = !sequencer.highNext := by
  unfold nextHigh
  split
  · rename_i remaining stage
    exact absurd stage (unjammed remaining)
  · rfl

namespace Timed

theorem due
    (timed : sequencer.Timed)
    (due : sequencer.elapsed % sequencer.plan.nibbleTicks = 0) :
    sequencer.elapsed = sequencer.nibbles * sequencer.plan.nibbleTicks :=
  eq_mul_of_recent due timed.reached timed.recent

theorem holding
    (timed : sequencer.Timed)
    (between : sequencer.elapsed % sequencer.plan.nibbleTicks ≠ 0) :
    (sequencer.holding.sampled collision).Timed where
  reached := by
    have reached := timed.reached
    have notYet : sequencer.elapsed ≠ sequencer.nibbles * sequencer.plan.nibbleTicks := by
      intro due
      rw [due, Nat.mul_mod_left] at between
      exact between rfl
    exact Nat.succ_le_of_lt (Nat.lt_of_le_of_ne reached notYet)
  recent := by
    have recent := timed.recent
    show sequencer.nibbles * sequencer.plan.nibbleTicks <
      sequencer.elapsed + 1 + sequencer.plan.nibbleTicks
    lia

theorem driving
    (positive : 0 < sequencer.plan.nibbleTicks)
    (timed : sequencer.Timed)
    (due : sequencer.elapsed % sequencer.plan.nibbleTicks = 0) :
    (sequencer.driving.sampled collision).Timed where
  reached := by
    show sequencer.elapsed + 1 ≤ (sequencer.nibbles + 1) * sequencer.plan.nibbleTicks
    rw [timed.due due, Nat.succ_mul]
    lia
  recent := by
    show (sequencer.nibbles + 1) * sequencer.plan.nibbleTicks <
      sequencer.elapsed + 1 + sequencer.plan.nibbleTicks
    rw [timed.due due, Nat.succ_mul]
    lia

theorem keep
    (timed : sequencer.Timed)
    (plan : next.plan = sequencer.plan)
    (elapsed : next.elapsed = sequencer.elapsed)
    (nibbles : next.nibbles = sequencer.nibbles) :
    next.Timed := by
  refine ⟨?_, ?_⟩
  · rw [plan, elapsed, nibbles]
    exact timed.reached
  · rw [plan, elapsed, nibbles]
    exact timed.recent

end Timed

/-- An attempt that is about to begin. -/
theorem start_timed (positive : 0 < sequencer.plan.nibbleTicks) : sequencer.start.Timed := by
  refine ⟨Nat.zero_le _, ?_⟩
  show 0 * _ < 0 + sequencer.plan.nibbleTicks
  lia

namespace Paced

theorem timed (paced : sequencer.Paced begun) : sequencer.Timed :=
  ⟨paced.reached, paced.recent⟩

theorem of_timed
    (timed : sequencer.Timed)
    (nibbles : sequencer.nibbles + sequencer.highNext.toNat = 2 * begun) :
    sequencer.Paced begun :=
  ⟨nibbles, timed.reached, timed.recent⟩

/-- At the boundary between two bytes all nibbles of the bytes begun are driven. -/
theorem nibbles_of_low
    (low : sequencer.highNext = false)
    (paced : sequencer.Paced begun) :
    sequencer.nibbles = 2 * begun := by
  have nibbles := paced.nibbles
  rwa [low, Bool.toNat_false] at nibbles

theorem holding
    (between : sequencer.elapsed % sequencer.plan.nibbleTicks ≠ 0)
    (paced : sequencer.Paced begun) :
    (sequencer.holding.sampled collision).Paced begun :=
  .of_timed (paced.timed.holding between) paced.nibbles

/-- The second nibble of the byte in flight. -/
theorem continues
    (positive : 0 < sequencer.plan.nibbleTicks)
    (due : sequencer.elapsed % sequencer.plan.nibbleTicks = 0)
    (high : sequencer.highNext = true)
    (unjammed : ∀ remaining, sequencer.stage ≠ .jam remaining)
    (paced : sequencer.Paced begun) :
    (sequencer.driving.sampled collision).Paced begun := by
  have lowNext : sequencer.nextHigh = false := by
    rw [nextHigh_of_unjammed unjammed, high, Bool.not_true]
  have nibbles := paced.nibbles
  refine .of_timed (paced.timed.driving positive due) ?_
  show sequencer.nibbles + 1 + sequencer.nextHigh.toNat = 2 * begun
  rw [high] at nibbles
  rw [lowNext]
  exact nibbles

/-- The first nibble of the next byte. -/
theorem begins
    (positive : 0 < loaded.plan.nibbleTicks)
    (due : loaded.elapsed % loaded.plan.nibbleTicks = 0)
    (low : loaded.highNext = false)
    (unjammed : ∀ remaining, loaded.stage ≠ .jam remaining)
    (paced : loaded.Paced begun) :
    (loaded.driving.sampled collision).Paced (begun + 1) := by
  have highNext : loaded.nextHigh = true := by
    rw [nextHigh_of_unjammed unjammed, low, Bool.not_false]
  have nibbles := paced.nibbles_of_low low
  refine .of_timed (paced.timed.driving positive due) ?_
  show loaded.nibbles + 1 + loaded.nextHigh.toNat = 2 * (begun + 1)
  rw [highNext, Bool.toNat_true]
  omega

/-- The ticks at which a byte boundary is reached are the multiples of a byte time, and
there the number of bytes begun is known. -/
theorem boundary_iff
    (positive : 0 < sequencer.plan.nibbleTicks)
    (paced : sequencer.Paced begun)
    {count : Nat} :
    sequencer.elapsed = count * (2 * sequencer.plan.nibbleTicks) ↔
      sequencer.elapsed % sequencer.plan.nibbleTicks = 0 ∧ sequencer.highNext = false ∧
        begun = count := by
  constructor
  · intro elapsed
    have nibbles := paced.nibbles
    have due : sequencer.elapsed % sequencer.plan.nibbleTicks = 0 := by
      rw [elapsed, ← Nat.mul_assoc, Nat.mul_mod_left]
    have counted := paced.timed.due due
    rw [elapsed, ← Nat.mul_assoc] at counted
    have even : count * 2 = sequencer.nibbles := Nat.eq_of_mul_eq_mul_right positive counted
    cases high : sequencer.highNext with
    | false =>
        rw [high, Bool.toNat_false] at nibbles
        exact ⟨due, rfl, by omega⟩
    | true =>
        rw [high, Bool.toNat_true] at nibbles
        omega
  · rintro ⟨due, low, rfl⟩
    have even : sequencer.nibbles = begun * 2 := by
      rw [paced.nibbles_of_low low, Nat.mul_comm]
    rw [paced.timed.due due, even, Nat.mul_assoc]

/-- The bytes ahead of the one in flight were over before the tick that was last. -/
theorem begun_lt
    (positive : 0 < begun)
    (paced : sequencer.Paced begun) :
    (begun - 1) * (2 * sequencer.plan.nibbleTicks) < sequencer.elapsed := by
  have nibbles := paced.nibbles
  have recent := paced.recent
  have half := Bool.toNat_le sequencer.highNext
  have ahead : (begun - 1) * 2 + 1 ≤ sequencer.nibbles := by omega
  have spent : ((begun - 1) * 2 + 1) * sequencer.plan.nibbleTicks ≤
      sequencer.nibbles * sequencer.plan.nibbleTicks :=
    Nat.mul_le_mul_right sequencer.plan.nibbleTicks ahead
  rw [← Nat.mul_assoc]
  rw [Nat.succ_mul] at spent
  lia

theorem begun_le (paced : sequencer.Paced begun) :
    (begun - 1) * (2 * sequencer.plan.nibbleTicks) ≤ sequencer.elapsed := by
  rcases Nat.eq_zero_or_pos begun with rfl | positive
  · rw [Nat.zero_sub, Nat.zero_mul]
    exact Nat.zero_le _
  · exact Nat.le_of_lt (paced.begun_lt positive)

end Paced

section Boundary

variable {σ : Type} [ByteSource σ] {now : Tick} {source after : σ} {ending : Option Ending}

theorem Boundary.paced
    (boundary : Boundary now sequencer source loaded after ending)
    (paced : sequencer.Paced begun) :
    loaded.Paced begun := by
  obtain ⟨plan, high, elapsed, nibbles⟩ := boundary.counters
  refine .of_timed (paced.timed.keep plan elapsed nibbles) ?_
  rw [nibbles, high]
  exact paced.nibbles

/-- After the error marker an attempt ends. -/
theorem marked_boundary
    (stage : sequencer.stage = .underflow)
    (boundary : Boundary now sequencer source loaded after ending) :
    loaded = sequencer ∧ ending = some .underflow := by
  have unabortable : sequencer.stage.abortable ≠ true := by
    rw [stage]
    decide
  cases boundary with
  | marked => exact ⟨rfl, rfl⟩
  | preamble other | check other | sent other | jamming other | jamOver other
    | abandonedStarved _ other => cases stage.symm.trans other
  | octet pulling | starved pulling => exact absurd pulling.abortable unabortable
  | pad exhausted | firstCheck exhausted => exact absurd exhausted.abortable unabortable
  | abandoned aborting abortable => exact absurd abortable unabortable

/-- The boundaries of a jam take up nothing, and the attempt ends when no nibble remains. -/
theorem jam_boundary {remaining : Nat}
    (stage : sequencer.stage = .jam remaining)
    (boundary : Boundary now sequencer source loaded after ending) :
    loaded = sequencer ∧
      (remaining = 0 ∧ ending = some .jammed ∨ remaining ≠ 0 ∧ ending = none) := by
  have unabortable : sequencer.stage.abortable ≠ true := by
    rw [stage]
    exact Bool.false_ne_true
  cases boundary with
  | jamming other =>
      cases stage.symm.trans other
      exact ⟨rfl, .inr ⟨Nat.succ_ne_zero _, rfl⟩⟩
  | jamOver other =>
      cases stage.symm.trans other
      exact ⟨rfl, .inl ⟨rfl, rfl⟩⟩
  | preamble other | check other | sent other | marked other
    | abandonedStarved _ other => cases stage.symm.trans other
  | octet pulling | starved pulling => exact absurd pulling.abortable unabortable
  | pad exhausted | firstCheck exhausted => exact absurd exhausted.abortable unabortable
  | abandoned aborting abortable => exact absurd abortable unabortable

end Boundary

/-! ## The signals of a jam -/

/-- The attempt is in its jam, which is driven without the error signal. -/
structure Jams (sequencer : Sequencer) (remaining : Nat) : Prop where
  stage : sequencer.stage = .jam remaining
  unmarked : sequencer.error = false

namespace Jams

variable {remaining : Nat}

theorem dueSignals (jams : sequencer.Jams remaining) :
    sequencer.dueSignals = { clockEnable := true, enable := true, data := jamNibble } := by
  rw [Sequencer.dueSignals, dueNibble, jams.stage, jams.unmarked]

theorem driving (jams : sequencer.Jams remaining) : sequencer.driving.Jams (remaining - 1) := by
  refine ⟨?_, jams.unmarked⟩
  show sequencer.nextStage = _
  rw [nextStage, jams.stage]

/-- A boundary that begins a jam takes the error mark away. -/
theorem of_boundary {σ : Type} [ByteSource σ] {now : Tick} {source after : σ}
    {ending : Option Ending}
    (abortable : sequencer.stage.abortable = true)
    (boundary : Boundary now sequencer source loaded after ending)
    (stage : loaded.stage = .jam remaining) :
    loaded.Jams remaining := by
  have unjammed : sequencer.stage ≠ .jam remaining := abortable_unjammed abortable remaining
  cases boundary with
  | abandoned => exact ⟨stage, rfl⟩
  | preamble | check | sent | marked | jamming | jamOver => exact absurd stage unjammed
  | octet | starved | pad | firstCheck | abandonedStarved => cases stage

end Jams

end Sequencer

end HalfDuplex
