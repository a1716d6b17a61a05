import HalfDuplex.Proofs.Backoff
import HalfDuplex.Proofs.Validation

/-!
# What a tick needs in order to succeed

Every counter of the engine has a width, and an operation whose result does not fit stops
the engine.  `Sequencer.Safe` is what the sequencer needs in order to take a step, and it
follows from the pace of the attempt and from a bound on the octets that it took up.  The
deferral timer and the backoff need readings of the timer that leave room for a gap and for
the longest backoff.

Main result: `Engine.tick_succeeds`.
-/

namespace HalfDuplex

namespace Traced

variable {α β : Type} {first operation : Traced α} {next : α → Traced β}

/-- The operation has a value. -/
def Succeeds (operation : Traced α) : Prop :=
  ∃ a, operation.value = .ok a

theorem Succeeds.bind
    (before : first.Succeeds)
    (after : ∀ a, first.value = .ok a → (next a).Succeeds) :
    (first >>= next).Succeeds := by
  obtain ⟨a, firstValue⟩ := before
  obtain ⟨b, nextValue⟩ := after a firstValue
  exact ⟨b, value_bind_eq_ok_iff.mpr ⟨a, firstValue, nextValue⟩⟩

theorem succeeds_pure (a : α) : (pure a : Traced α).Succeeds :=
  ⟨a, rfl⟩

theorem succeeds_record (event : Event) : (record event).Succeeds :=
  ⟨(), rfl⟩

theorem succeeds_lift {value : Except Fault α} {a : α} (value_eq : value = .ok a) :
    (lift value).Succeeds :=
  ⟨a, value_eq⟩

end Traced

open Traced

theorem checkedAdd_of_lt {limit left right : Nat} (fits : left + right < limit) :
    checkedAdd limit left right = .ok (left + right) := by
  rw [checkedAdd, if_pos fits]

namespace Sequencer

/-- What the sequencer needs in order to take a step. -/
structure Safe (sequencer : Sequencer) : Prop where
  nibbleTicks : 0 < sequencer.plan.nibbleTicks
  elapsed : sequencer.elapsed + 1 < wideLimit
  nibbles : sequencer.nibbles + 1 < countLimit
  length : sequencer.length + 1 < wideLimit
  owed : sequencer.highNext = false → sequencer.stage.abortable = true →
    ∃ owed, sequencer.preambleOwed = .ok owed ∧ sequencer.plan.jamNibbles + owed < countLimit
  unfinished : sequencer.highNext = true → sequencer.stage ≠ .jam 0

variable {sequencer loaded : Sequencer} {collision clockEnable : Bool} {now : Tick}

theorem sample_succeeds (sequencer : Sequencer) (collision clockEnable : Bool) :
    (sequencer.sample collision clockEnable).Succeeds := by
  unfold sample
  split
  · exact (succeeds_record _).bind fun _ _ => succeeds_pure _
  · exact succeeds_pure _

theorem hold_succeeds (safe : sequencer.Safe) : (sequencer.hold collision).Succeeds :=
  (succeeds_lift (checkedAdd_of_lt safe.elapsed)).bind fun _ _ => sample_succeeds _ _ _

theorem present_succeeds
    (elapsed : loaded.elapsed + 1 < wideLimit)
    (nibbles : loaded.nibbles + 1 < countLimit)
    (unfinished : loaded.stage ≠ .jam 0) :
    (loaded.present collision).Succeeds := by
  refine (succeeds_lift (advance_eq_ok_iff.mpr ⟨unfinished, rfl⟩)).bind fun advanced found => ?_
  obtain ⟨_, rfl⟩ := advance_eq_ok_iff.mp found
  refine (succeeds_lift (checkedAdd_of_lt nibbles)).bind fun _ _ => ?_
  refine (succeeds_lift (checkedAdd_of_lt elapsed)).bind fun _ _ => ?_
  exact sample_succeeds _ _ _

theorem takeUp_of_lt {stage : Stage} {octet : Octet}
    (room : sequencer.length + 1 < wideLimit) :
    sequencer.takeUp stage octet = .ok (sequencer.taken stage octet) :=
  takeUp_eq_ok_iff.mpr ⟨room, rfl⟩

theorem loadPad_of_lt (room : sequencer.length + 1 < wideLimit) :
    ∃ loaded, sequencer.loadPad = .ok loaded := by
  unfold loadPad
  by_cases short : sequencer.length < sequencer.plan.minFrame
  · rw [if_pos short, takeUp_of_lt room]
    exact ⟨_, rfl⟩
  · rw [if_neg short]
    exact ⟨_, rfl⟩

theorem beginJam_succeeds {owed : Nat}
    (owes : sequencer.preambleOwed = .ok owed)
    (fits : sequencer.plan.jamNibbles + owed < countLimit) :
    sequencer.beginJam.Succeeds := by
  refine (succeeds_lift owes).bind fun found foundEqual => ?_
  cases owes.symm.trans foundEqual
  refine (succeeds_lift (checkedAdd_of_lt fits)).bind fun _ _ => ?_
  exact (succeeds_record _).bind fun _ _ => succeeds_pure _

variable {σ : Type} [ByteSource σ] {source after : σ}

theorem loadData_succeeds
    (room : sequencer.length + 1 < wideLimit)
    (answers : ∃ answer, ByteSource.pull source now = .ok answer) :
    (sequencer.loadData now source).Succeeds := by
  obtain ⟨answer, pulled⟩ := answers
  refine (succeeds_lift pulled).bind fun found _ => ?_
  rcases found with ⟨after, octet | _ | _⟩
  · rcases octet with value | _
    · exact (succeeds_lift (takeUp_of_lt room)).bind fun _ _ => succeeds_pure _
    · refine (succeeds_record _).bind fun _ _ => ?_
      exact (succeeds_lift (takeUp_of_lt room)).bind fun _ _ => succeeds_pure _
  · have rewound : ∃ loaded, { sequencer with position := 0 }.loadPad = .ok loaded :=
      loadPad_of_lt room
    obtain ⟨loaded, padded⟩ := rewound
    exact (succeeds_lift padded).bind fun _ _ => succeeds_pure _
  · exact (succeeds_record _).bind fun _ _ => succeeds_pure _

theorem load_succeeds
    (room : sequencer.length + 1 < wideLimit)
    (answers : ∃ answer, ByteSource.pull source now = .ok answer) :
    (sequencer.load now source).Succeeds := by
  unfold load
  split
  · exact succeeds_pure _
  · split
    · exact succeeds_pure _
    · exact loadData_succeeds room answers
  · exact loadData_succeeds room answers
  · obtain ⟨loaded, padded⟩ := loadPad_of_lt room
    exact (succeeds_lift padded).bind fun _ _ => succeeds_pure _
  · exact succeeds_pure _
  · exact succeeds_pure _
  · exact succeeds_pure _

theorem abandon_succeeds {owed : Nat}
    (answers : ∃ answer, ByteSource.pull source now = .ok answer)
    (owes : sequencer.preambleOwed = .ok owed)
    (fits : sequencer.plan.jamNibbles + owed < countLimit) :
    (sequencer.abandon now source).Succeeds := by
  have jams : sequencer.relieved.beginJam.Succeeds := beginJam_succeeds owes fits
  unfold abandon
  dsimp only
  split
  · obtain ⟨answer, pulled⟩ := answers
    refine (succeeds_lift pulled).bind fun found _ => ?_
    split
    · exact (succeeds_record _).bind fun _ _ => succeeds_pure _
    · exact jams.bind fun _ _ => succeeds_pure _
  · exact jams.bind fun _ _ => succeeds_pure _

theorem boundary_succeeds
    (low : sequencer.highNext = false)
    (answers : ∃ answer, ByteSource.pull source now = .ok answer)
    (safe : sequencer.Safe) :
    (sequencer.boundary now source).Succeeds := by
  unfold boundary
  split
  · rename_i pending
    rw [Bool.and_eq_true] at pending
    obtain ⟨owed, owes, fits⟩ := safe.owed low pending.2
    exact abandon_succeeds answers owes fits
  · exact load_succeeds safe.length answers

/-- A boundary that does not end the attempt leaves something to drive. -/
theorem Boundary.unfinished
    (boundary : Boundary now sequencer source loaded after none) :
    loaded.stage ≠ .jam 0 := by
  intro spent
  cases boundary with
  | octet | starved | pad | firstCheck | abandonedStarved => cases spent
  | preamble stage | check stage | jamming stage => cases stage.symm.trans spent
  | abandoned aborting abortable discards owes total ends =>
      cases spent
      cases ends

theorem stepBoundary_succeeds
    (active : sequencer.stage ≠ .idle)
    (low : sequencer.highNext = false)
    (answers : ∃ answer, ByteSource.pull source now = .ok answer)
    (safe : sequencer.Safe) :
    (sequencer.stepBoundary now collision source).Succeeds := by
  refine (boundary_succeeds low answers safe).bind fun found foundEqual => ?_
  obtain ⟨loaded, after, ending⟩ := found
  have boundary := (boundary_yields active (yields_of_value foundEqual)).1
  cases ending with
  | some ending => exact (succeeds_record _).bind fun _ _ => succeeds_pure _
  | none =>
      obtain ⟨_, _, elapsed, nibbles⟩ := boundary.counters
      have presents : (loaded.present collision).Succeeds :=
        present_succeeds (elapsed ▸ safe.elapsed) (nibbles ▸ safe.nibbles) boundary.unfinished
      exact presents.bind fun _ _ => succeeds_pure _

/-- A step of a safe sequencer succeeds. -/
theorem step_succeeds
    (answers : ∃ answer, ByteSource.pull source now = .ok answer)
    (settled : sequencer.stage = .idle ∨ sequencer.Safe) :
    (sequencer.step now collision source).Succeeds := by
  by_cases idle : sequencer.stage = .idle
  · rw [Sequencer.step, if_pos idle]
    exact succeeds_pure _
  · have safe : sequencer.Safe := settled.resolve_left idle
    have modulus : checkedMod sequencer.elapsed sequencer.plan.nibbleTicks =
        .ok (sequencer.elapsed % sequencer.plan.nibbleTicks) :=
      checkedMod_eq_ok_iff.mpr ⟨Nat.ne_of_gt safe.nibbleTicks, rfl⟩
    rw [Sequencer.step, if_neg idle]
    refine (succeeds_lift modulus).bind fun phase _ => ?_
    split
    · exact (hold_succeeds safe).bind fun _ _ => succeeds_pure _
    · cases high : sequencer.highNext with
      | true =>
          rw [if_pos rfl]
          have presents : (sequencer.present collision).Succeeds :=
            present_succeeds safe.elapsed safe.nibbles (safe.unfinished high)
          exact presents.bind fun _ _ => succeeds_pure _
      | false =>
          rw [if_neg Bool.false_ne_true]
          exact stepBoundary_succeeds idle high answers safe

end Sequencer

namespace Config

/-- The nibbles of the longest attempt on a frame of bounded length, with a jam that follows its
last byte, can be counted. -/
def RoomyFor (config : Config) (longest : Nat) : Prop :=
  2 * (config.preambleBytes.toNat + max config.minFrameBytes.toNat longest +
    Checksum.trailerLength + config.jamBytes.toNat) < countLimit

instance (config : Config) (longest : Nat) : Decidable (config.RoomyFor longest) :=
  inferInstanceAs (Decidable (_ < _))

/-- The nibbles of the longest attempt on a frame of any length that is taken can be counted. -/
def Roomy (config : Config) : Prop :=
  config.RoomyFor maxFrameLength

instance (config : Config) : Decidable config.Roomy :=
  inferInstanceAs (Decidable (config.RoomyFor maxFrameLength))

/-- The longest backoff that can be drawn. -/
def longestBackoff (config : Config) : Tick :=
  (2 ^ config.backoffLimit.toNat - 1) * config.backoffSlotTicks

/-- A reading of the timer leaves room for a gap that begins after it, and for the longest
backoff. -/
def LeavesRoom (config : Config) (gap now : Tick) : Prop :=
  now + max (gap + 1) config.longestBackoff < wideLimit

instance (config : Config) (gap now : Tick) : Decidable (config.LeavesRoom gap now) :=
  inferInstanceAs (Decidable (_ < _))

theorem RoomyFor.lengthsFit {config : Config} {longest : Nat} (roomy : config.RoomyFor longest) :
    config.LengthsFit := by
  unfold RoomyFor at roomy
  constructor <;> omega

end Config

namespace Sequencer

variable {config : Config} {early gap : Tick} {sequencer next : Sequencer} {begun longest : Nat}

/-- An attempt drives no more nibbles than its longest frame and its jam have. -/
theorem Beats.nibbles_le
    (planned : LinePlan.ofConfig config = .ok sequencer.plan)
    (short : sequencer.length ≤ max config.minFrameBytes.toNat longest)
    (beats : sequencer.Beats begun) :
    sequencer.nibbles ≤ 2 * (config.preambleBytes.toNat +
      max config.minFrameBytes.toNat longest + Checksum.trailerLength +
        config.jamBytes.toNat) := by
  have plan := LinePlan.ofConfig_eq_ok planned
  have preamble : sequencer.plan.preambleBytes = config.preambleBytes.toNat := by rw [plan]
  have jam : sequencer.plan.jamNibbles = config.jamBytes.toNat * 2 := by rw [plan]
  cases beats with
  | writes placed paced =>
      have nibbles := paced.nibbles
      have within := placed.le_trailer
      omega
  | marks stage place paced =>
      have nibbles := paced.nibbles
      have marker : 1 ≤ Checksum.trailerLength := by decide
      omega
  | jams stage low within nibbles total =>
      -- What a jam adds for the preamble is no more than the preamble lacks.
      rw [jamLength] at total
      omega

/-- The ticks of an attempt are counted, as long as its nibbles are. -/
theorem Timed.elapsed_lt
    (few : sequencer.nibbles ≤ countLimit)
    (narrow : sequencer.plan.nibbleTicks ≤ 2 ^ 31)
    (timed : sequencer.Timed) :
    sequencer.elapsed + 1 < wideLimit :=
  calc sequencer.elapsed + 1 ≤ sequencer.nibbles * sequencer.plan.nibbleTicks + 1 :=
        Nat.succ_le_succ timed.reached
    _ ≤ countLimit * 2 ^ 31 + 1 := Nat.succ_le_succ (Nat.mul_le_mul few narrow)
    _ < wideLimit := by decide

/-- An attempt that keeps its pace and takes up no more octets than a frame has is safe. -/
theorem Beats.safe
    (timing : config.Timing early gap)
    (roomy : config.RoomyFor longest)
    (planned : LinePlan.ofConfig config = .ok sequencer.plan)
    (short : sequencer.length ≤ max config.minFrameBytes.toNat longest)
    (beats : sequencer.Beats begun) :
    sequencer.Safe := by
  have plan := LinePlan.ofConfig_eq_ok planned
  have preamble : sequencer.plan.preambleBytes = config.preambleBytes.toNat := by rw [plan]
  have jam : sequencer.plan.jamNibbles = config.jamBytes.toNat * 2 := by rw [plan]
  have whole : sequencer.plan.preambleNibbles = 2 * sequencer.plan.preambleBytes := by
    rw [plan]
    exact Nat.mul_comm _ _
  have nibbleTicks : sequencer.plan.nibbleTicks = config.nibbleTicks := by rw [plan]
  have counted := beats.nibbles_le planned short
  have room : 2 * (config.preambleBytes.toNat + max config.minFrameBytes.toNat longest +
      Checksum.trailerLength + config.jamBytes.toNat) < countLimit := roomy
  have few : sequencer.nibbles < countLimit := Nat.lt_of_le_of_lt counted room
  have countWidth : countLimit = 2 ^ 32 := rfl
  have wideWidth : wideLimit = 2 ^ 64 := rfl
  constructor
  case nibbleTicks =>
    rw [nibbleTicks]
    exact timing.nibbleTicks_pos
  case nibbles => omega
  case elapsed =>
    have narrow : sequencer.plan.nibbleTicks ≤ 2 ^ 31 := by
      have bound : config.byteTime < 2 ^ 32 := config.byteTicks.toNat_lt
      rw [nibbleTicks, Config.nibbleTicks]
      lia
    exact beats.timed.elapsed_lt (Nat.le_of_lt few) narrow
  case length => omega
  case owed =>
    intro low abortable
    cases beats with
    | writes placed paced =>
        refine ⟨_, placed.preambleOwed_eq whole (paced.nibbles_of_low low), ?_⟩
        omega
    | marks stage => simp [stage, Stage.abortable] at abortable
    | jams stage => simp [stage, Stage.abortable] at abortable
  case unfinished =>
    intro high spent
    cases beats with
    | writes placed => exact abortable_unjammed placed.abortable 0 spent
    | marks stage => cases stage.symm.trans spent
    | jams stage low => cases low.symm.trans high

/-- An attempt that is about to begin is safe. -/
theorem start_safe
    (timing : config.Timing early gap)
    (roomy : config.RoomyFor longest)
    (planned : LinePlan.ofConfig config = .ok sequencer.plan) :
    sequencer.start.Safe := by
  have positive : 0 < sequencer.plan.nibbleTicks := by
    rw [LinePlan.ofConfig_eq_ok planned]
    exact timing.nibbleTicks_pos
  have beats : sequencer.start.Beats 0 :=
    .writes (.preamble rfl (Nat.zero_le _) rfl) (.of_timed (start_timed positive) rfl)
  exact beats.safe timing roomy planned (Nat.zero_le _)

end Sequencer

namespace CollisionWindow

variable {γ : Type} [WordSource γ] {config : Config} {early gap : Tick}
  {window : CollisionWindow γ}

theorem backoffSlots_of_lt (narrow : window.limits.backoffLimit < 64) :
    window.backoffSlots = .ok (window.drawn, window.drawnSlots) := by
  have exponent : min window.collisions window.limits.backoffLimit < 64 :=
    Nat.lt_of_le_of_lt (Nat.min_le_right _ _) narrow
  rw [backoffSlots, checkedPowerOfTwo, if_pos exponent, Nat.one_shiftLeft]
  rfl

theorem drawnSlots_le (window : CollisionWindow γ) :
    window.drawnSlots ≤ 2 ^ window.limits.backoffLimit - 1 := by
  have below : window.drawnSlots < 2 ^ min window.collisions window.limits.backoffLimit :=
    Nat.mod_lt _ (Nat.two_pow_pos _)
  have wider : 2 ^ min window.collisions window.limits.backoffLimit ≤
      2 ^ window.limits.backoffLimit :=
    Nat.pow_le_pow_right (by decide) (Nat.min_le_right _ _)
  omega

/-- A judgement succeeds if the longest backoff can be told. -/
theorem collide_succeeds
    (timing : config.Timing early gap)
    (fits : config.longestBackoff < wideLimit)
    (limits : window.limits = CollisionLimits.ofConfig config)
    (now : Tick) :
    (window.collide now).Succeeds := by
  have few : config.backoffLimit.toNat ≤ 31 := timing.backoffLimit_le
  unfold collide
  dsimp only
  split
  · exact (succeeds_record _).bind fun _ _ => succeeds_pure _
  · split
    · exact (succeeds_record _).bind fun _ _ => succeeds_pure _
    · have struckLimits : window.struck.limits = CollisionLimits.ofConfig config := limits
      have narrow : window.struck.limits.backoffLimit < 64 := by
        rw [struckLimits]
        exact Nat.lt_of_le_of_lt few (by decide)
      refine (succeeds_lift (backoffSlots_of_lt narrow)).bind fun found foundEqual => ?_
      cases (backoffSlots_of_lt narrow).symm.trans foundEqual
      have most := window.struck.drawnSlots_le
      rw [struckLimits] at most
      have product : window.struck.drawnSlots * config.backoffSlotTicks < wideLimit :=
        Nat.lt_of_le_of_lt (Nat.mul_le_mul_right config.backoffSlotTicks most) fits
      have delay : checkedMul wideLimit window.struck.drawnSlots
          window.struck.drawn.limits.backoffSlotTicks =
            .ok (window.struck.drawnSlots * config.backoffSlotTicks) := by
        rw [show window.struck.drawn.limits = _ from struckLimits]
        exact checkedMul_of_lt product
      refine (succeeds_lift delay).bind fun _ _ => ?_
      exact (succeeds_record _).bind fun _ _ => succeeds_pure _

end CollisionWindow

namespace Deferral

variable {timer : Deferral} {now since : Tick} {carrier : Bool}

theorem restart_of_lt (room : now + 1 < wideLimit) :
    timer.restart now = .ok (timer.moved (.early (now + 1))) :=
  restart_eq_ok_iff.mpr ⟨room, rfl⟩

theorem tickQuiet_succeeds (room : now + 1 < wideLimit) :
    (timer.tickQuiet now carrier).Succeeds := by
  unfold tickQuiet
  split
  · refine (succeeds_record _).bind fun _ _ => ?_
    exact (succeeds_lift (restart_of_lt room)).bind fun _ _ => succeeds_pure _
  · exact succeeds_pure _

theorem tickLate_succeeds (fits : since + timer.gapTicks < wideLimit) :
    (timer.tickLate since now).Succeeds := by
  refine (succeeds_lift (checkedAdd_of_lt fits)).bind fun due _ => ?_
  split
  · exact (succeeds_record _).bind fun _ _ => succeeds_pure _
  · exact succeeds_pure _

theorem tickEarly_succeeds
    (room : now + 1 < wideLimit)
    (earlyFits : since + timer.earlyTicks < wideLimit)
    (gapFits : since + timer.earlyTicks ≤ now → since + timer.gapTicks < wideLimit) :
    (timer.tickEarly since now carrier).Succeeds := by
  refine (succeeds_lift (checkedAdd_of_lt earlyFits)).bind fun due found => ?_
  obtain ⟨_, rfl⟩ := checkedAdd_eq_ok_iff.mp found
  split
  · rename_i lapsed
    exact (succeeds_record _).bind fun _ _ => tickLate_succeeds (gapFits lapsed)
  · split
    · exact (succeeds_lift (restart_of_lt room)).bind fun _ _ => succeeds_pure _
    · exact succeeds_pure _

/-- The end of the gap that the timer is in can be told. -/
def Fits (timer : Deferral) : Prop :=
  ∀ since, timer.state = .early since ∨ timer.state = .late since →
    since + timer.gapTicks < wideLimit

theorem tick_succeeds
    (room : now + 1 < wideLimit)
    (shorter : timer.earlyTicks ≤ timer.gapTicks)
    (fits : timer.Fits) :
    (timer.tick now carrier).Succeeds := by
  unfold tick
  split
  · exact tickQuiet_succeeds room
  · exact tickQuiet_succeeds room
  · rename_i since state
    have gapFits := fits since (.inl state)
    exact tickEarly_succeeds room (by lia) fun _ => gapFits
  · rename_i since state
    exact tickLate_succeeds (fits since (.inr state))

/-- A gap that begins on the next tick fits if the reading leaves room for it. -/
theorem Advances.fits {next : Deferral} {ready : Bool}
    (room : now + 1 + timer.gapTicks < wideLimit)
    (fits : timer.Fits)
    (advances : Advances now carrier timer next ready) :
    next.Fits := by
  have restarted : (timer.moved (.early (now + 1))).Fits := by
    rintro since (state | state)
    · cases state
      exact room
    · cases state
  cases advances with
  | staysOpen => exact fun since state => by rcases state with state | state <;> cases state
  | closes => exact restarted
  | waits => exact fits
  | restarts => exact restarted
  | runsOn past =>
      rintro since (state | state)
      · cases state
      · cases state
        rcases past with late | ⟨early, _⟩
        · exact fits _ (.inr late)
        · exact fits _ (.inl early)
  | opens => exact fun since state => by rcases state with state | state <;> cases state

end Deferral

namespace Engine

variable {σ γ : Type} {config : Config} {early gap : Tick} {engine : Engine σ γ} {now : Tick}
  {collision : Bool} {longest : Nat}

theorem Bounded.delay_le {slots : Nat} {delay : Tick}
    (conforms : engine.Conforms config)
    (bounded : engine.Bounded)
    (verdict : engine.verdict = some (.retry slots delay)) :
    delay ≤ config.longestBackoff := by
  obtain ⟨below, delayEqual⟩ := bounded slots delay verdict
  rw [conforms.limits] at below delayEqual
  have wider : 2 ^ min engine.window.collisions config.backoffLimit.toNat ≤
      2 ^ config.backoffLimit.toNat :=
    Nat.pow_le_pow_right (by decide) (Nat.min_le_right _ _)
  have most : slots ≤ 2 ^ config.backoffLimit.toNat - 1 :=
    Nat.le_sub_one_of_lt (Nat.lt_of_lt_of_le below wider)
  rw [delayEqual]
  exact Nat.mul_le_mul_right config.backoffSlotTicks most

variable [ByteSource σ]

theorem finish_succeeds (engine : Engine σ γ) (now : Tick) (outcome : Outcome) :
    (engine.finish now outcome).Succeeds :=
  (succeeds_record _).bind fun _ _ => succeeds_pure _

theorem settle_succeeds
    (room : now + config.longestBackoff < wideLimit)
    (conforms : engine.Conforms config)
    (bounded : engine.Bounded)
    (ending : Ending) :
    (engine.settle now ending).Succeeds := by
  unfold settle
  split
  · exact finish_succeeds _ _ _
  · exact finish_succeeds _ _ _
  · split
    · rename_i slots delay verdict
      have within := bounded.delay_le conforms verdict
      have fits : now + delay < wideLimit := by lia
      refine (succeeds_lift (checkedAdd_of_lt fits)).bind fun _ _ => ?_
      exact (succeeds_record _).bind fun _ _ => succeeds_pure _
    · exact finish_succeeds _ _ _
    · exact finish_succeeds _ _ _
    · exact (succeeds_record _).bind fun _ _ => succeeds_pure _

variable [WordSource γ]

/-- No pull from the source faults on this tick, neither before nor after the attempt in progress
was dealt with. -/
structure Answers (engine : Engine σ γ) (now : Tick) (collision : Bool) : Prop where
  first : ∃ answer, ByteSource.pull engine.source now = .ok answer
  later {next : Engine σ γ} {signals : Signals} {status : Indicators} {marks : List Mark} :
    Proceeds now collision engine next signals status marks →
      ∃ answer, ByteSource.pull next.source now = .ok answer

theorem drive_succeeds
    (answers : ∃ answer, ByteSource.pull engine.source now = .ok answer)
    (timing : config.Timing early gap)
    (fits : config.longestBackoff < wideLimit)
    (conforms : engine.Conforms config)
    (settled : engine.sequencer.stage = .idle ∨ engine.sequencer.Safe) :
    (engine.drive now collision).Succeeds := by
  have steps : (engine.sequencer.step now collision engine.source).Succeeds :=
    Sequencer.step_succeeds answers settled
  refine steps.bind fun found _ => ?_
  obtain ⟨sequencer, source, step⟩ := found
  dsimp only
  split
  · have judges : (engine.window.collide now).Succeeds :=
      CollisionWindow.collide_succeeds timing fits conforms.limits now
    exact judges.bind fun _ _ => succeeds_pure _
  · exact succeeds_pure _

theorem proceed_succeeds
    (answers : ∃ answer, ByteSource.pull engine.source now = .ok answer)
    (timing : config.Timing early gap)
    (room : now + config.longestBackoff < wideLimit)
    (conforms : engine.Conforms config)
    (bounded : engine.Bounded)
    (settled : engine.sequencer.stage = .idle ∨ engine.sequencer.Safe) :
    (engine.proceed now collision).Succeeds := by
  have fits : config.longestBackoff < wideLimit :=
    Nat.lt_of_le_of_lt (Nat.le_add_left _ _) room
  have drove : (engine.drive now collision).Succeeds :=
    drive_succeeds answers timing fits conforms settled
  refine drove.bind fun found foundEqual => ?_
  obtain ⟨driven, step⟩ := found
  have drives := (drive_yields (yields_of_value foundEqual)).1
  dsimp only
  split
  · exact succeeds_pure _
  · rename_i ending ended
    have settles : (driven.settle now ending).Succeeds :=
      settle_succeeds room (conforms.drives drives) (bounded.drives drives) ending
    refine settles.bind fun found _ => ?_
    obtain ⟨settled, outcome⟩ := found
    cases outcome with
    | none => exact succeeds_pure _
    | some outcome => exact succeeds_pure _

theorem consider_succeeds {inputs : Inputs} {ready : Bool} {signals : Signals}
    (answers : ∃ answer, ByteSource.pull engine.source now = .ok answer)
    (timing : config.Timing early gap)
    (roomy : config.RoomyFor longest)
    (fits : config.longestBackoff < wideLimit)
    (conforms : engine.Conforms config) :
    (engine.consider now inputs ready signals).Succeeds := by
  unfold consider
  split
  · split
    · refine (succeeds_record _).bind fun _ _ => ?_
      have safe : (engine.begin now).sequencer.Safe :=
        Sequencer.start_safe timing roomy conforms.plan
      have drove : ((engine.begin now).drive now inputs.collision).Succeeds :=
        drive_succeeds answers timing fits (conforms.begin now) (.inr safe)
      exact drove.bind fun _ _ => succeeds_pure _
    · exact succeeds_pure _
  · exact succeeds_pure _

/-- A tick succeeds if the attempt in progress is safe and the reading leaves room. -/
theorem tick_succeeds {inputs : Inputs}
    (answers : engine.Answers now inputs.collision)
    (timing : config.Timing early gap)
    (roomy : config.RoomyFor longest)
    (room : config.LeavesRoom gap now)
    (conforms : engine.Conforms config)
    (bounded : engine.Bounded)
    (gapFits : engine.deferral.Fits)
    (settled : engine.sequencer.stage = .idle ∨ engine.sequencer.Safe) :
    (engine.tick now inputs).Succeeds := by
  unfold Config.LeavesRoom at room
  have nowFits : now + 1 < wideLimit := by lia
  have backoffRoom : now + config.longestBackoff < wideLimit := by lia
  have fits : config.longestBackoff < wideLimit := by lia
  have proceeds : (engine.proceed now inputs.collision).Succeeds :=
    proceed_succeeds answers.first timing backoffRoom conforms bounded settled
  refine proceeds.bind fun found foundEqual => ?_
  obtain ⟨proceeded, signals, status⟩ := found
  have proceeds := proceed_yields (yields_of_value foundEqual)
  have deferral := proceeds.deferral
  have earlyTicks : engine.deferral.earlyTicks = early :=
    Except.ok.inj (conforms.earlyTicks.symm.trans timing.earlyTicks_eq)
  have gapTicks : engine.deferral.gapTicks = gap :=
    Except.ok.inj (conforms.gapTicks.symm.trans timing.gapTicks_eq)
  have shorter : engine.deferral.earlyTicks ≤ engine.deferral.gapTicks := by
    rw [earlyTicks, gapTicks]
    exact Nat.le_of_lt timing.early_lt_gap
  have defers : (proceeded.deferral.tick now (inputs.carrier || signals.enable)).Succeeds := by
    rw [deferral]
    exact Deferral.tick_succeeds nowFits shorter gapFits
  refine defers.bind fun found foundEqual => ?_
  obtain ⟨timer, ready⟩ := found
  have advances := (Deferral.tick_yields (yields_of_value foundEqual)).1
  have conformsThen : (proceeded.deferring timer).Conforms config :=
    (conforms.proceeds proceeds).deferring advances.spans
  have pulls := answers.later proceeds
  have considers : ((proceeded.deferring timer).consider now inputs ready signals).Succeeds :=
    consider_succeeds pulls timing roomy fits conformsThen
  exact considers.bind fun _ _ => succeeds_pure _

theorem Ticks.advances {inputs : Inputs} {next : Engine σ γ} {outputs : Outputs}
    {marks : List Mark}
    (ticks : Ticks now inputs engine next outputs marks) :
    ∃ carrier ready, Deferral.Advances now carrier engine.deferral next.deferral ready := by
  cases ticks with
  | @parts proceeded _ signals _ _ _ _ deferral ready proceeds advances considers =>
      refine ⟨inputs.carrier || signals.enable, ready, ?_⟩
      rw [considers.deferral, ← proceeds.deferral]
      exact advances

end Engine

end HalfDuplex
