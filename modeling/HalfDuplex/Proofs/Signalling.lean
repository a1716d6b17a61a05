import HalfDuplex.Proofs.Pace

/-!
# The discipline of the line

A `Spell` is a time during which transmit enable is high.  `Disciplined` says what the line
shows meanwhile: one attempt, whose nibbles are clocked at their pace and held in between, with
one error signal for both nibbles of a byte, for a whole number of byte times.

Two things carry that.  An attempt in progress is `Sequencer.Formed`: the nibble that is due
would show error as the signals on the line do, and it takes a byte boundary to change that.
Byte boundaries, the last one included, come at multiples of the byte time, because a jam is made
of whole bytes and so is the preamble that it makes up for.
-/

namespace HalfDuplex

namespace Sequencer

/-- The signals that are held are those of a nibble, and the nibble that is due shows error as
they do. -/
structure Formed (sequencer : Sequencer) : Prop where
  narrow : sequencer.held.data < 16
  error : sequencer.dueSignals.error = sequencer.held.error

variable {sequencer next loaded : Sequencer} {begun : Nat}

theorem dueSignals_data_lt (sequencer : Sequencer) : sequencer.dueSignals.data < 16 := by
  show sequencer.dueNibble < 16
  unfold dueNibble
  split
  · decide
  · split
    · exact (Octet.byte sequencer.byte).highNibble_lt
    · exact (Octet.byte sequencer.byte).lowNibble_lt

/-- A nibble leaves the error mark as it was, so the next one shows error alike. -/
theorem driving_formed (sequencer : Sequencer) (collision : Bool) :
    (sequencer.driving.sampled collision).Formed := by
  exact ⟨sequencer.dueSignals_data_lt, rfl⟩

variable {σ : Type} [ByteSource σ] {now : Tick} {collision : Bool} {source after : σ}
  {step : SequencerStep}

theorem Formed.moves
    (active : sequencer.stage ≠ .idle)
    (unended : step.ending = none)
    (moves : Moves now collision sequencer source next after step)
    (formed : sequencer.Formed) :
    next.Formed := by
  cases moves with
  | rests idle => exact absurd idle active
  | holds => exact ⟨formed.narrow, formed.error⟩
  | continues => exact driving_formed _ collision
  | begins => exact driving_formed _ collision
  | ends => cases unended

/-- The first tick of an attempt. -/
theorem start_formed
    (preamblePositive : 0 < sequencer.plan.preambleBytes)
    (moves : Moves now collision sequencer.start source next after step) :
    next.Formed := by
  obtain ⟨_, rfl, _⟩ := start_moves preamblePositive moves
  exact driving_formed _ collision

/-- Between two nibbles the signals are held. -/
theorem Moves.held_between
    (active : sequencer.stage ≠ .idle)
    (between : sequencer.elapsed % sequencer.plan.nibbleTicks ≠ 0)
    (moves : Moves now collision sequencer source next after step) :
    next.held = sequencer.held := by
  cases moves with
  | rests idle => exact absurd idle active
  | holds => rfl
  | continues _ due => exact absurd due between
  | begins _ due => exact absurd due between
  | ends _ due => exact absurd due between

/-- The bytes begun are driven for a multiple of the byte time. -/
theorem Paced.elapsed_mod
    (positive : 0 < sequencer.plan.nibbleTicks)
    (due : sequencer.elapsed % sequencer.plan.nibbleTicks = 0)
    (low : sequencer.highNext = false)
    (paced : sequencer.Paced begun) :
    sequencer.elapsed % (2 * sequencer.plan.nibbleTicks) = 0 := by
  rw [(paced.boundary_iff positive).mpr ⟨due, low, rfl⟩, Nat.mul_mod_left]

/-- Within a byte the error signal does not change. -/
theorem Beats.error_kept
    (positive : 0 < sequencer.plan.nibbleTicks)
    (formed : sequencer.Formed)
    (unended : step.ending = none)
    (inside : sequencer.elapsed % (2 * sequencer.plan.nibbleTicks) ≠ 0)
    (moves : Moves now collision sequencer source next after step)
    (beats : sequencer.Beats begun) :
    next.held.error = sequencer.held.error := by
  cases moves with
  | rests idle => exact absurd idle beats.active
  | holds => rfl
  | continues => exact formed.error
  | ends => cases unended
  | begins active due low boundary =>
      cases beats with
      | writes placed paced => exact absurd (paced.elapsed_mod positive due low) inside
      | marks stage place paced => exact absurd (paced.elapsed_mod positive due low) inside
      | jams stage =>
          obtain ⟨rfl, _⟩ := jam_boundary stage boundary
          exact formed.error

/-- An attempt ends after whole bytes. -/
theorem Beats.elapsed_mod {ending : Ending}
    (positive : 0 < sequencer.plan.nibbleTicks)
    (even : sequencer.plan.jamNibbles % 2 = 0)
    (ended : step.ending = some ending)
    (moves : Moves now collision sequencer source next after step)
    (beats : sequencer.Beats begun) :
    sequencer.elapsed % (2 * sequencer.plan.nibbleTicks) = 0 := by
  cases moves with
  | rests | holds | continues | begins => cases ended
  | ends active due low boundary =>
      cases beats with
      | writes placed paced => exact paced.elapsed_mod positive due low
      | marks stage place paced => exact paced.elapsed_mod positive due low
      | jams stage _ within nibbles total timed =>
          obtain ⟨_, ⟨rfl, _⟩ | ⟨_, unended⟩⟩ := jam_boundary stage boundary
          · obtain ⟨bytes, whole⟩ : ∃ bytes, sequencer.nibbles = bytes * 2 := by
              refine ⟨sequencer.nibbles / 2, ?_⟩
              rw [jamLength] at total
              lia
            rw [timed.due due, whole, Nat.mul_assoc, Nat.mul_mod_left]
          · cases unended

end Sequencer

namespace Run

variable {config : Config} {σ γ : Type} [ByteSource σ] [WordSource γ]

/-- Transmit enable is high from the tick `first` on, up to the tick before `finish`, and was low
right before.  A spell that is not over at `finish` is the beginning of a longer one. -/
structure Spell (run : Run config σ γ) (first finish : Nat) : Prop where
  nonempty : first < finish
  within : finish ≤ run.length
  enabled : ∀ tick, first ≤ tick → tick < finish → run.enable tick = true
  opens : ∀ last, first = last + 1 → run.enable last = false

/-- What the line shows during a spell of transmit enable. -/
structure Disciplined (run : Run config σ γ) (first finish : Nat) : Prop where
  /-- The spell begins with an attempt. -/
  starts : run.Starts first
  /-- No other attempt starts in it. -/
  single : ∀ tick, first < tick → tick < finish → ¬ run.Starts tick
  /-- The attempt is in progress for all of it. -/
  attempted : ∀ tick, first ≤ tick → tick < finish →
    (run.engine (tick + 1)).sequencer.active = true
  /-- Clock enable is high at the pace of the nibbles. -/
  clocked : ∀ tick, first ≤ tick → tick < finish →
    (run.outputs tick).signals.clockEnable = decide ((tick - first) % config.nibbleTicks = 0)
  /-- The data are a nibble. -/
  narrow : ∀ tick, first ≤ tick → tick < finish → (run.outputs tick).signals.data < 16
  /-- Without clock enable data and error stay as they were. -/
  held : ∀ tick, first ≤ tick → tick + 1 < finish →
    (run.outputs (tick + 1)).signals.clockEnable = false →
      (run.outputs (tick + 1)).signals.data = (run.outputs tick).signals.data ∧
        (run.outputs (tick + 1)).signals.error = (run.outputs tick).signals.error
  /-- The two nibbles of a byte show error alike. -/
  paired : ∀ tick other, first ≤ tick → tick < finish → first ≤ other → other < finish →
    (tick - first) / config.byteTime = (other - first) / config.byteTime →
      (run.outputs tick).signals.error = (run.outputs other).signals.error
  /-- If it is over, it lasted for whole bytes. -/
  whole : finish < run.length → run.enable finish = false →
    ∃ bytes, 0 < bytes ∧ finish - first = bytes * config.byteTime

variable {run : Run config σ γ} {early gap first finish tick : Nat}

/-- A tick on which transmit enable rises is a spell by itself. -/
theorem Spell.of_rise
    (within : tick < run.length)
    (enabled : run.enable tick = true)
    (opens : ∀ last, tick = last + 1 → run.enable last = false) :
    run.Spell tick (tick + 1) where
  nonempty := Nat.lt_succ_self tick
  within := within
  enabled := by
    intro other after upTo
    obtain rfl : other = tick := Nat.le_antisymm (Nat.le_of_lt_succ upTo) after
    exact enabled
  opens := opens

/-- A spell that is not over goes on for another tick. -/
theorem Spell.extend
    (spell : run.Spell first tick)
    (within : tick < run.length)
    (enabled : run.enable tick = true) :
    run.Spell first (tick + 1) where
  nonempty := Nat.lt_succ_of_lt spell.nonempty
  within := within
  enabled := by
    intro other after upTo
    rcases Nat.lt_succ_iff_lt_or_eq.mp upTo with earlier | rfl
    · exact spell.enabled other after earlier
    · exact enabled
  opens := spell.opens

/-- Every tick with transmit enable high belongs to a spell. -/
theorem exists_spell
    (within : tick < run.length)
    (enabled : run.enable tick = true) :
    ∃ first, run.Spell first (tick + 1) := by
  induction tick with
  | zero => exact ⟨0, .of_rise within enabled nofun⟩
  | succ tick inductionHypothesis =>
      cases before : run.enable tick with
      | true =>
          obtain ⟨first, spell⟩ := inductionHypothesis (Nat.lt_of_succ_lt within) before
          exact ⟨first, spell.extend within enabled⟩
      | false =>
          refine ⟨tick + 1, .of_rise within enabled fun last same => ?_⟩
          obtain rfl : tick = last := Nat.succ.inj same
          exact before

/-- With transmit enable low the line shows nothing. -/
theorem quiet_of_disabled
    (timing : config.Timing early gap)
    (consecutive : run.Consecutive)
    (within : tick < run.length)
    (disabled : run.enable tick = false) :
    (run.outputs tick).signals = .quiet := by
  have conforms := (run.conforms (Nat.le_of_lt within)).supplied (run.supply tick)
  rcases (run.ticks within).shows conforms timing with ⟨_, quiet⟩ | ⟨active, _⟩
  · exact quiet
  · exact absurd (idle_of_disabled timing consecutive within disabled) active

/-- An attempt that is settled on a tick was driven up to the tick before. -/
theorem follows_spell
    (timing : config.Timing early gap)
    (consecutive : run.Consecutive)
    (within : tick < run.length)
    (raised : (run.outputs tick).status ≠ {}) :
    run.enable tick = false ∧ ∃ first, run.Spell first tick := by
  have active : (run.entering tick).sequencer.stage ≠ .idle := fun idle =>
    raised ((run.ticks within).status_of_idle idle)
  cases tick with
  | zero => exact absurd run.idle_at_setUp active
  | succ last =>
      have enabledBefore : run.enable last = true := by
        rcases line timing consecutive (Nat.lt_of_succ_lt within) with ⟨enabled, _⟩ | ⟨_, idle⟩
        · exact enabled
        · exact absurd idle active
      have driven : (run.entering (last + 1)).sequencer.Driven :=
        driven_of_enabled timing consecutive (Nat.lt_of_succ_lt within) enabledBefore
      have unstarted := unstarted_of_enabled timing consecutive within enabledBefore
      refine ⟨Bool.eq_false_iff.mpr fun enabled => ?_,
        exists_spell (Nat.lt_of_succ_lt within) enabledBefore⟩
      exact raised ((run.ticks within).goes_on driven enabled unstarted).1

namespace Spell

variable (timing : config.Timing early gap) (consecutive : run.Consecutive)
  (spell : run.Spell first finish)

include timing consecutive spell

/-- Ahead of a spell there is no attempt in progress. -/
theorem idle : (run.engine first).sequencer.stage = .idle := by
  cases first with
  | zero => exact run.idle_at_setUp
  | succ last =>
      have within : last < run.length :=
        Nat.lt_of_succ_lt (Nat.lt_of_lt_of_le spell.nonempty spell.within)
      exact idle_of_disabled timing consecutive within (spell.opens last rfl)

theorem starts : run.Starts first := by
  have within : first < run.length := Nat.lt_of_lt_of_le spell.nonempty spell.within
  have enabled := spell.enabled first (Nat.le_refl first) spell.nonempty
  exact starts_of_idle timing within (spell.idle timing consecutive) enabled

/-! ## The ticks of a spell -/

variable (after : first ≤ tick) (before : tick < finish)

include after before

/-- The attempt in progress is the one that started with the spell. -/
theorem lastStart : run.LastStart first (tick + 1) := by
  induction after with
  | refl => exact (spell.starts timing consecutive).lastStart
  | @step tick after inductionHypothesis =>
      have enabled := spell.enabled tick after (Nat.lt_of_succ_lt before)
      exact (inductionHypothesis (Nat.lt_of_succ_lt before)).next
        (unstarted_of_enabled timing consecutive (Nat.lt_of_lt_of_le before spell.within) enabled)

theorem driven : (run.engine (tick + 1)).sequencer.Driven :=
  driven_of_enabled timing consecutive (Nat.lt_of_lt_of_le before spell.within)
    (spell.enabled tick after before)

/-- The attempt counts the ticks of the spell. -/
theorem beats :
    (run.engine (tick + 1)).sequencer.elapsed = tick + 1 - first ∧
      ∃ begun, (run.engine (tick + 1)).sequencer.Beats begun := by
  have within : tick + 1 ≤ run.length := Nat.le_trans before spell.within
  cases paces timing within with
  | rests idle => exact absurd idle (spell.driven timing consecutive after before).active
  | @tries start begun lastStart elapsed beats =>
      obtain rfl := lastStart.unique (spell.lastStart timing consecutive after before)
      exact ⟨by lia, begun, beats⟩

theorem shows : (run.outputs tick).signals = (run.engine (tick + 1)).sequencer.onLine := by
  have within : tick < run.length := Nat.lt_of_lt_of_le before spell.within
  have conforms := (run.conforms (Nat.le_of_lt within)).supplied (run.supply tick)
  rcases (run.ticks within).shows conforms timing with ⟨idle, _⟩ | ⟨_, shown⟩
  · exact absurd idle (spell.driven timing consecutive after before).active
  · exact shown

theorem clocked :
    (run.outputs tick).signals.clockEnable =
      decide ((tick - first) % config.nibbleTicks = 0) := by
  have within : tick + 1 ≤ run.length := Nat.le_trans before spell.within
  have passed : tick + 1 - first - 1 = tick - first := by lia
  rw [spell.shows timing consecutive after before, Sequencer.onLine,
    (spell.beats timing consecutive after before).1, plan_nibbleTicks within, passed]

omit before

/-- From one tick of a spell to the next the attempt goes on. -/
theorem moves (follows : tick + 1 < finish) :
    ∃ step : SequencerStep, step.ending = none ∧
      Sequencer.Moves (run.reading (tick + 1)) (run.inputs (tick + 1)).collision
        (run.engine (tick + 1)).sequencer (run.entering (tick + 1)).source
        (run.engine (tick + 2)).sequencer (run.engine (tick + 2)).source step := by
  have within : tick + 1 < run.length := Nat.lt_of_lt_of_le follows spell.within
  have before : tick < finish := Nat.lt_of_succ_lt follows
  have enabled := spell.enabled tick after before
  have enabledThen := spell.enabled (tick + 1) (Nat.le_succ_of_le after) follows
  have unstarted := unstarted_of_enabled timing consecutive within enabled
  have driven : (run.entering (tick + 1)).sequencer.Driven :=
    spell.driven timing consecutive after before
  obtain ⟨_, step, unended, _, moves⟩ := (run.ticks within).goes_on driven enabledThen unstarted
  exact ⟨step, unended, moves⟩

/-- Without clock enable the signals are held. -/
theorem held
    (follows : tick + 1 < finish)
    (unclocked : (run.outputs (tick + 1)).signals.clockEnable = false) :
    (run.engine (tick + 2)).sequencer.held = (run.engine (tick + 1)).sequencer.held := by
  have before : tick < finish := Nat.lt_of_succ_lt follows
  have within : tick + 1 ≤ run.length := Nat.le_trans before spell.within
  have between : (run.engine (tick + 1)).sequencer.elapsed %
      (run.engine (tick + 1)).sequencer.plan.nibbleTicks ≠ 0 := by
    rw [(spell.beats timing consecutive after before).1, plan_nibbleTicks within]
    rw [spell.clocked timing consecutive (Nat.le_succ_of_le after) follows] at unclocked
    exact of_decide_eq_false unclocked
  obtain ⟨step, _, moves⟩ := spell.moves timing consecutive after follows
  exact moves.held_between (spell.driven timing consecutive after before).active between

theorem formed (before : tick < finish) : (run.engine (tick + 1)).sequencer.Formed := by
  induction after with
  | refl =>
      have within : first < run.length := Nat.lt_of_lt_of_le before spell.within
      have preamblePositive := (plan_positive timing (Nat.le_of_lt within)).1
      have idle : (run.entering first).sequencer.stage = .idle := spell.idle timing consecutive
      have enabled := spell.enabled first (Nat.le_refl first) before
      obtain ⟨_, step, _, moves⟩ := (run.ticks within).launches idle enabled
      exact Sequencer.start_formed preamblePositive moves
  | @step tick after inductionHypothesis =>
      have earlier : tick < finish := Nat.lt_of_succ_lt before
      obtain ⟨step, unended, moves⟩ := spell.moves timing consecutive after before
      have driven := spell.driven timing consecutive after earlier
      exact (inductionHypothesis earlier).moves driven.active unended moves

/-- Within a byte the error signal stays as it was. -/
theorem error_kept
    (follows : tick + 1 < finish)
    (inside : (tick + 1 - first) % config.byteTime ≠ 0) :
    (run.outputs (tick + 1)).signals.error = (run.outputs tick).signals.error := by
  have before : tick < finish := Nat.lt_of_succ_lt follows
  have within : tick + 1 ≤ run.length := Nat.le_trans before spell.within
  obtain ⟨elapsed, begun, beats⟩ := spell.beats timing consecutive after before
  have insideThen : (run.engine (tick + 1)).sequencer.elapsed %
      (2 * (run.engine (tick + 1)).sequencer.plan.nibbleTicks) ≠ 0 := by
    rwa [elapsed, plan_byteTime timing within]
  obtain ⟨step, unended, moves⟩ := spell.moves timing consecutive after follows
  rw [spell.shows timing consecutive (Nat.le_succ_of_le after) follows,
    spell.shows timing consecutive after before, Sequencer.onLine_error, Sequencer.onLine_error]
  exact beats.error_kept (plan_positive timing within).2
    (spell.formed timing consecutive after before) unended insideThen moves

/-- The error signal of a byte is that of its first tick. -/
theorem error_of_byte (before : tick < finish) :
    (run.outputs tick).signals.error =
      (run.outputs (first + (tick - first) / config.byteTime * config.byteTime)).signals.error := by
  induction after with
  | refl => rw [Nat.sub_self, Nat.zero_div, Nat.zero_mul, Nat.add_zero]
  | @step tick after inductionHypothesis =>
      have passed : tick + 1 - first = tick - first + 1 := Nat.succ_sub after
      by_cases boundary : (tick + 1 - first) % config.byteTime = 0
      · have multiple := Nat.dvd_of_mod_eq_zero boundary
        rw [Nat.succ_eq_add_one, Nat.div_mul_cancel multiple, Nat.add_sub_of_le]
        exact Nat.le_succ_of_le after
      · have sameByte : (tick + 1 - first) / config.byteTime =
            (tick - first) / config.byteTime := by
          rw [passed] at boundary ⊢
          exact Nat.succ_div_of_not_dvd fun multiple => boundary (Nat.mod_eq_zero_of_dvd multiple)
        rw [Nat.succ_eq_add_one, spell.error_kept timing consecutive after before boundary,
          sameByte]
        exact inductionHypothesis (Nat.lt_of_succ_lt before)

omit after

/-- A spell that is over lasted for whole bytes. -/
theorem whole
    (within : finish < run.length)
    (disabled : run.enable finish = false) :
    ∃ bytes, 0 < bytes ∧ finish - first = bytes * config.byteTime := by
  obtain ⟨last, rfl⟩ : ∃ last, finish = last + 1 :=
    Nat.exists_eq_succ_of_ne_zero (Nat.ne_of_gt (Nat.zero_lt_of_lt spell.nonempty))
  have after : first ≤ last := Nat.le_of_lt_succ spell.nonempty
  have upTo : last + 1 ≤ run.length := Nat.le_of_lt within
  have positive := (plan_positive timing upTo).2
  have conforms := (run.conforms upTo).supplied (run.supply (last + 1))
  have driven : (run.entering (last + 1)).sequencer.Driven :=
    spell.driven timing consecutive after (Nat.lt_succ_self last)
  obtain ⟨elapsed, begun, beats⟩ := spell.beats timing consecutive after (Nat.lt_succ_self last)
  obtain ⟨_, _, step, ending, _, moves, ended, _⟩ :=
    (run.ticks within).stops conforms timing driven disabled
  have even : (run.engine (last + 1)).sequencer.plan.jamNibbles % 2 = 0 := by
    rw [plan_jam upTo, Nat.mul_mod_right]
  have bytes := beats.elapsed_mod positive even ended moves
  rw [elapsed, plan_byteTime timing upTo] at bytes
  have multiple := Nat.div_mul_cancel (Nat.dvd_of_mod_eq_zero bytes)
  refine ⟨(last + 1 - first) / config.byteTime, Nat.pos_of_ne_zero fun none => ?_, multiple.symm⟩
  rw [none, Nat.zero_mul] at multiple
  lia

theorem disciplined : run.Disciplined first finish where
  starts := spell.starts timing consecutive
  single tick after before :=
    (spell.lastStart timing consecutive (Nat.le_of_lt after) before).last tick after
      (Nat.lt_succ_self tick)
  attempted tick after before :=
    decide_eq_true (spell.driven timing consecutive after before).active
  clocked tick after before := spell.clocked timing consecutive after before
  narrow tick after before := by
    rw [spell.shows timing consecutive after before]
    exact (spell.formed timing consecutive after before).narrow
  held tick after before unclocked := by
    have held := spell.held timing consecutive after before unclocked
    rw [spell.shows timing consecutive (Nat.le_succ_of_le after) before,
      spell.shows timing consecutive after (Nat.lt_of_succ_lt before), Sequencer.onLine, held]
    exact ⟨rfl, rfl⟩
  paired tick other after before afterOther beforeOther same := by
    rw [spell.error_of_byte timing consecutive after before,
      spell.error_of_byte timing consecutive afterOther beforeOther, same]
  whole within disabled := spell.whole timing consecutive within disabled

end Spell

/-- While transmit enable is low, all signals are low and no attempt is in progress.  While it
is high, the line keeps its discipline, one attempt in each spell.  A status indicator is raised
only on the tick that follows a spell. -/
theorem signals_in_spells (consecutive : run.Consecutive) :
    (∀ tick, tick < run.length → run.enable tick = false →
      (run.outputs tick).signals = .quiet ∧
        (run.engine (tick + 1)).sequencer.active = false) ∧
    (∀ tick, tick < run.length → run.enable tick = true →
      ∃ first, run.Spell first (tick + 1)) ∧
    (∀ first finish, run.Spell first finish → run.Disciplined first finish) ∧
    ∀ tick, tick < run.length → (run.outputs tick).status ≠ {} →
      run.enable tick = false ∧ ∃ first, run.Spell first tick := by
  obtain ⟨early, gap, timing⟩ := run.accepted.timing
  refine ⟨?_, fun tick => exists_spell, fun first finish spell =>
    spell.disciplined timing consecutive, ?_⟩
  · intro tick within disabled
    have idle := idle_of_disabled timing consecutive within disabled
    have quiet := quiet_of_disabled timing consecutive within disabled
    exact ⟨quiet, Engine.active_eq_false_iff.mpr idle⟩
  · intro tick within raised
    exact follows_spell timing consecutive within raised

/-- A frame that collides in its first octet and is sent by the next attempt.  Each nibble is on
the line for two ticks. -/
def slowScenario : Scenario ScriptedSource ZeroWords where
  source := { frames := [{ entries := [.octet (.byte 0xA5), .octet .poisoned] }] }
  words := {}
  inputs count := { collision := count = 10 }

def slowRun :
    Run { Config.brief with byteTicks := 4, slotBytes := 8 } ScriptedSource ZeroWords :=
  (slowScenario.run? { Config.brief with byteTicks := 4, slotBytes := 8 } 50).get
    (by decide +kernel)

/-- The attempt with the jam lasts for three bytes and the other one for seven, of which the third
is the poisoned octet. -/
theorem signals_in_spells_slowRun :
    slowRun.Steady ∧ slowRun.Disciplined 4 16 ∧ slowRun.Disciplined 20 48 ∧
      (slowRun.outputs 28).signals.error = true ∧
      (slowRun.outputs 31).signals.error = (slowRun.outputs 28).signals.error ∧
      (slowRun.outputs 29).signals.clockEnable = false ∧
      (slowRun.outputs 16).signals = .quiet ∧
      (slowRun.outputs 48).status = { ok := true } ∧ ∃ first, slowRun.Spell first 48 := by
  have steady : slowRun.Steady := fun count _ => (Nat.zero_add count).symm
  obtain ⟨quiet, _, disciplined, follows⟩ := signals_in_spells steady.consecutive
  have enabled : ∀ tick < 48, 4 ≤ tick ∧ tick < 16 ∨ 20 ≤ tick → slowRun.enable tick = true := by
    decide +kernel
  have jammed : slowRun.Spell 4 16 := by
    refine ⟨by decide, by decide +kernel, fun tick after before => ?_, fun last same => ?_⟩
    · exact enabled tick (by lia) (.inl ⟨after, before⟩)
    · obtain rfl : last = 3 := Nat.succ.inj same.symm
      decide +kernel
  have sent : slowRun.Spell 20 48 := by
    refine ⟨by decide, by decide +kernel, fun tick after before => ?_, fun last same => ?_⟩
    · exact enabled tick before (.inr after)
    · obtain rfl : last = 19 := Nat.succ.inj same.symm
      decide +kernel
  have whole := disciplined 20 48 sent
  have status : (slowRun.outputs 48).status = { ok := true } := by decide +kernel
  refine ⟨steady, disciplined 4 16 jammed, whole, by decide +kernel, ?_, ?_, ?_, status, ?_⟩
  · exact whole.paired 31 28 (by decide) (by decide) (by decide) (by decide) (by decide)
  · exact (whole.clocked 29 (by decide) (by decide)).trans (by decide)
  · exact (quiet 16 (by decide +kernel) (by decide +kernel)).1
  · exact (follows 48 (by decide +kernel) (by rw [status]; decide)).2

end Run

end HalfDuplex
