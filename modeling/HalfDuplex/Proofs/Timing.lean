import HalfDuplex.Config

/-!
# The timing of an accepted configuration

An accepted configuration breaks none of the rules, and the spans that the rules speak
of exist.  `Config.Accepted.timing` says both at once; the lemmas after it are the
facts about spans that the state machines rely on.
-/

namespace HalfDuplex

namespace Config

/-- The rules that an accepted configuration keeps, with the spans of the gap. -/
structure Timing (config : Config) (early gap : Tick) : Prop where
  byteTicks_ne_zero : config.byteTicks ≠ 0
  byteTicks_even : config.byteTicks % 2 = 0
  preambleBytes_ne_zero : config.preambleBytes ≠ 0
  slotBytes_ne_zero : config.slotBytes ≠ 0
  slack_lt : config.pipelineSlack.toNat < config.ipgTicks
  earlyTicks_eq : config.earlyTicks = .ok early
  gapTicks_eq : config.gapTicks = .ok gap
  early_lt_gap : early < gap
  maxCollisions_ne_zero : config.maxCollisions ≠ 0
  backoffLimit_le : config.backoffLimit ≤ 31
  backoffSlotBytes_ne_zero : config.backoffSlotBytes ≠ 0

variable {config : Config} {early gap : Tick}

theorem Accepted.timing (accepted : config.Accepted) :
    ∃ early gap, config.Timing early gap := by
  unfold Accepted firstError at accepted
  split at accepted
  · cases accepted
  rename_i byteTicks
  split at accepted
  · cases accepted
  rename_i even
  split at accepted
  · cases accepted
  rename_i preambleBytes
  split at accepted
  · cases accepted
  rename_i slotBytes
  split at accepted
  · cases accepted
  rename_i slack
  cases earlyEqual : config.earlyTicks with
  | error fault =>
      rw [earlyEqual] at accepted
      cases accepted
  | ok early =>
      cases gapEqual : config.gapTicks with
      | error fault =>
          rw [earlyEqual, gapEqual] at accepted
          cases accepted
      | ok gap =>
          rw [earlyEqual, gapEqual] at accepted
          simp only [bind, Except.bind, pure, Except.pure] at accepted
          split at accepted
          · cases accepted
          rename_i gapLonger
          split at accepted
          · cases accepted
          rename_i maxCollisions
          split at accepted
          · cases accepted
          rename_i backoffLimit
          split at accepted
          · cases accepted
          rename_i backoffSlot
          exact ⟨early, gap, {
            byteTicks_ne_zero := byteTicks
            byteTicks_even := Decidable.not_not.mp even
            preambleBytes_ne_zero := preambleBytes
            slotBytes_ne_zero := slotBytes
            slack_lt := Nat.lt_of_not_le slack
            earlyTicks_eq := earlyEqual
            gapTicks_eq := gapEqual
            early_lt_gap := Nat.lt_of_not_le gapLonger
            maxCollisions_ne_zero := maxCollisions
            backoffLimit_le := UInt8.not_lt.mp backoffLimit
            backoffSlotBytes_ne_zero := backoffSlot }⟩

namespace Timing

theorem byteTime_even (timing : config.Timing early gap) : config.byteTime % 2 = 0 := by
  have even := congrArg UInt32.toNat timing.byteTicks_even
  simpa [byteTime] using even

theorem byteTime_pos (timing : config.Timing early gap) : 0 < config.byteTime := by
  have nonzero : config.byteTicks.toNat ≠ 0 := fun zero =>
    timing.byteTicks_ne_zero (UInt32.toNat_inj.mp zero)
  exact Nat.pos_of_ne_zero nonzero

/-- A byte time is the time of two nibbles. -/
theorem byteTime_eq (timing : config.Timing early gap) :
    config.byteTime = 2 * config.nibbleTicks := by
  have even := timing.byteTime_even
  unfold nibbleTicks
  lia

theorem nibbleTicks_pos (timing : config.Timing early gap) : 0 < config.nibbleTicks := by
  have positive := timing.byteTime_pos
  have halves := timing.byteTime_eq
  lia

theorem preambleBytes_pos (timing : config.Timing early gap) :
    0 < config.preambleBytes.toNat := by
  have nonzero : config.preambleBytes.toNat ≠ 0 := fun zero =>
    timing.preambleBytes_ne_zero (UInt32.toNat_inj.mp zero)
  exact Nat.pos_of_ne_zero nonzero

theorem maxCollisions_pos (timing : config.Timing early gap) :
    0 < config.maxCollisions.toNat := by
  have nonzero : config.maxCollisions.toNat ≠ 0 := fun zero =>
    timing.maxCollisions_ne_zero (UInt8.toNat_inj.mp zero)
  exact Nat.pos_of_ne_zero nonzero

/-- The early part of the gap is at least one tick long, because the gap is at least
one byte time and a byte time at least two ticks. -/
theorem early_pos (timing : config.Timing early gap) : 0 < early := by
  have earlyEqual := timing.earlyTicks_eq
  have slack := timing.slack_lt
  have even := timing.byteTime_even
  have positive := timing.byteTime_pos
  have ipgBytes : config.ipgBytes.toNat ≠ 0 := by
    intro zero
    simp [ipgTicks, zero] at slack
  have long : 2 ≤ config.ipgTicks := by
    calc 2 ≤ config.byteTime := by lia
      _ = 1 * config.byteTime := (Nat.one_mul _).symm
      _ ≤ config.ipgTicks := Nat.mul_le_mul_right _ (Nat.pos_of_ne_zero ipgBytes)
  unfold earlyTicks checkedMul at earlyEqual
  split at earlyEqual
  · cases earlyEqual
    lia
  · cases earlyEqual

end Timing

end Config

end HalfDuplex
