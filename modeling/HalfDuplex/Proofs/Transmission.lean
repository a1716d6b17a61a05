import HalfDuplex.Proofs.Run

/-!
# The station's own transmission

From its first tick to its last an attempt is `Driven`: it keeps transmit enable on the
line.  `Engine.Sends` says what a tick is as seen from the line, which is all that the
deferral timer has to do with: the line rests, an attempt starts, goes on or stops.
-/

namespace HalfDuplex

namespace Sequencer

/-- An attempt is in progress that has transmit enable on the line. -/
structure Driven (sequencer : Sequencer) : Prop where
  active : sequencer.stage ≠ .idle
  enabled : sequencer.held.enable = true

/-- What the line shows on the tick that left an attempt with this sequencer. -/
def onLine (sequencer : Sequencer) : Signals :=
  { sequencer.held with
    clockEnable := decide ((sequencer.elapsed - 1) % sequencer.plan.nibbleTicks = 0) }

@[simp]
theorem onLine_error (sequencer : Sequencer) :
    sequencer.onLine.error = sequencer.held.error :=
  rfl

variable {σ : Type} [ByteSource σ] {now : Tick} {collision : Bool}
  {sequencer next : Sequencer} {source after : σ} {step : SequencerStep}

theorem Boundary.active {ending : Option Ending}
    (active : sequencer.stage ≠ .idle)
    (boundary : Boundary now sequencer source next after ending) :
    next.stage ≠ .idle := by
  cases boundary with
  | octet | starved | pad | firstCheck => nofun
  | preamble | check | sent | marked | jamming | jamOver => exact active
  | abandoned | abandonedStarved => nofun

theorem driving_driven (active : sequencer.stage ≠ .idle) : sequencer.driving.Driven := by
  refine ⟨?_, sequencer.dueSignals_enable⟩
  show sequencer.nextStage ≠ .idle
  unfold nextStage
  split
  · nofun
  · exact active

/-- A driven attempt stays driven until it ends, and then leaves the line quiet. -/
theorem Driven.moves (driven : sequencer.Driven)
    (moves : Moves now collision sequencer source next after step) :
    step.ending = none ∧ step.signals.enable = true ∧ next.Driven ∨
      step.ending ≠ none ∧ sequencer.highNext = false ∧ step.signals = .quiet ∧
        next.stage = .idle := by
  cases moves with
  | rests idle => exact absurd idle driven.active
  | holds active between => exact .inl ⟨rfl, driven.enabled, driven.active, driven.enabled⟩
  | continues active due high notOver =>
      have driven := driving_driven active
      exact .inl ⟨rfl, driven.enabled, driven.active, driven.enabled⟩
  | begins active due low boundary notOver =>
      have driven := driving_driven (boundary.active active)
      exact .inl ⟨rfl, driven.enabled, driven.active, driven.enabled⟩
  | ends active due low boundary => exact .inr ⟨nofun, low, rfl, rfl⟩

theorem Moves.elapsed
    (active : sequencer.stage ≠ .idle)
    (unended : step.ending = none)
    (moves : Moves now collision sequencer source next after step) :
    next.elapsed = sequencer.elapsed + 1 := by
  cases moves with
  | rests idle => exact absurd idle active
  | holds | continues => rfl
  | begins active due low boundary notOver =>
      exact congrArg (· + 1) boundary.counters.2.2.1
  | ends => cases unended

theorem Moves.active
    (active : sequencer.stage ≠ .idle)
    (unended : step.ending = none)
    (moves : Moves now collision sequencer source next after step) :
    next.stage ≠ .idle := by
  cases moves with
  | rests idle => exact absurd idle active
  | holds => exact active
  | continues => exact (driving_driven active).active
  | begins _ due low boundary notOver =>
      exact (driving_driven (boundary.active active)).active
  | ends => cases unended

/-- The tick after an attempt leaves the line quiet, and no collision is noticed on it. -/
theorem Moves.ended_idle {ending : Ending}
    (ended : step.ending = some ending)
    (moves : Moves now collision sequencer source next after step) :
    next.stage = .idle ∧ step.signals.enable = false ∧ step.collided = false := by
  cases moves with
  | rests => cases ended
  | holds => cases ended
  | continues => cases ended
  | begins => cases ended
  | ends => exact ⟨rfl, rfl, rfl⟩

/-- The tick after an attempt shows nothing. -/
theorem Moves.ended_quiet {ending : Ending}
    (ended : step.ending = some ending)
    (moves : Moves now collision sequencer source next after step) :
    next.stage = .idle ∧ step.signals = .quiet := by
  cases moves with
  | rests | holds | continues | begins => cases ended
  | ends => exact ⟨rfl, rfl⟩

/-- A tick of an attempt shows the signals that are held after it, with the clock enable on
the first tick of each nibble. -/
theorem Moves.shows
    (active : sequencer.stage ≠ .idle)
    (unended : step.ending = none)
    (moves : Moves now collision sequencer source next after step) :
    step.signals = next.onLine := by
  have elapsed := moves.elapsed active unended
  have clock : decide ((next.elapsed - 1) % next.plan.nibbleTicks = 0) =
      decide (sequencer.elapsed % sequencer.plan.nibbleTicks = 0) := by
    rw [elapsed, moves.plan, Nat.add_sub_cancel]
  rw [onLine, clock]
  cases moves with
  | rests idle => exact absurd idle active
  | holds active between =>
      rw [decide_eq_false between]
      rfl
  | continues active due =>
      rw [decide_eq_true due]
      rfl
  | begins active due =>
      rw [decide_eq_true due]
      rfl
  | ends => cases unended

end Sequencer

namespace Engine

variable {σ γ : Type} [ByteSource σ] {now : Tick} {collision : Bool}
  {engine next : Engine σ γ} {status : Indicators} {signals shown : Signals}
  {marks : List Mark}

theorem Settles.keeps {ending : Ending} {outcome : Option Outcome}
    (settles : Settles now engine ending next outcome) :
    next.sequencer = engine.sequencer ∧ next.deferral = engine.deferral := by
  cases settles <;> exact ⟨rfl, rfl⟩

variable [WordSource γ]

theorem Drives.deferral {step : SequencerStep}
    (drives : Drives now collision engine next step) :
    next.deferral = engine.deferral := by
  cases drives <;> rfl

/-- Without an attempt in progress there is nothing to proceed with. -/
theorem Proceeds.resting
    (idle : engine.sequencer.stage = .idle)
    (proceeds : Proceeds now collision engine next signals status marks) :
    next = engine ∧ signals = .quiet ∧ status = {} ∧ marks = [] := by
  cases proceeds with
  | goesOn drives unended =>
      obtain ⟨rfl, rfl⟩ := drives.resting idle
      exact ⟨rfl, rfl, rfl, rfl⟩
  | settles drives ended settles =>
      obtain ⟨_, rfl⟩ := drives.resting idle
      cases ended

theorem Proceeds.unstarted
    (proceeds : Proceeds now collision engine next signals status marks) :
    ¬ HasStart marks := by
  cases proceeds with
  | goesOn drives unended => simp
  | @settles driven _ step ending outcome drives ended settles =>
      rw [hasStart_append, not_or]
      refine ⟨Sequencer.not_hasStart_marksOfStep now step, ?_⟩
      cases outcome <;> simp [HasStart]

theorem Proceeds.deferral
    (proceeds : Proceeds now collision engine next signals status marks) :
    next.deferral = engine.deferral := by
  cases proceeds with
  | goesOn drives unended => exact drives.deferral
  | settles drives ended settles => exact settles.keeps.2.trans drives.deferral

/-- An attempt in progress goes on, or it stops. -/
theorem Proceeds.driven
    (driven : engine.sequencer.Driven)
    (proceeds : Proceeds now collision engine next signals status marks) :
    signals.enable = true ∧ next.sequencer.Driven ∨
      engine.sequencer.highNext = false ∧ signals = .quiet ∧
        next.sequencer.stage = .idle := by
  cases proceeds with
  | goesOn drives unended =>
      rcases driven.moves drives.moves with ⟨_, goesOn⟩ | ⟨ended, _⟩
      · exact .inl goesOn
      · exact absurd unended ended
  | settles drives ended settles =>
      rcases driven.moves drives.moves with ⟨unended, _⟩ | ⟨_, stops⟩
      · rw [unended] at ended
        cases ended
      · exact .inr (settles.keeps.1 ▸ stops)

variable {config : Config} {inputs : Inputs} {ready : Bool} {early gap : Tick}

/-- What a tick is as seen from the line. -/
inductive Sends (now : Tick) (inputs : Inputs) (engine next : Engine σ γ)
    (outputs : Outputs) (marks : List Mark) : Prop
  | rests {ready : Bool}
      (idle : engine.sequencer.stage = .idle)
      (idleNext : next.sequencer.stage = .idle)
      (advances : Deferral.Advances now inputs.carrier engine.deferral next.deferral ready)
      (unpoised : ready = true → ¬ engine.Poised now)
      (disabled : outputs.signals.enable = false)
      (unstarted : ¬ HasStart marks)
  | starts
      (idle : engine.sequencer.stage = .idle)
      (driven : next.sequencer.Driven)
      (high : next.sequencer.highNext = true)
      (advances : Deferral.Advances now inputs.carrier engine.deferral next.deferral true)
      (enabled : outputs.signals.enable = true)
      (started : HasStart marks)
  | goesOn {ready : Bool}
      (active : engine.sequencer.stage ≠ .idle)
      (driven : next.sequencer.Driven)
      (advances : Deferral.Advances now true engine.deferral next.deferral ready)
      (enabled : outputs.signals.enable = true)
      (unstarted : ¬ HasStart marks)
  | stops
      (active : engine.sequencer.stage ≠ .idle)
      (low : engine.sequencer.highNext = false)
      (idleNext : next.sequencer.stage = .idle)
      (advances : Deferral.Advances now inputs.carrier engine.deferral next.deferral false)
      (disabled : outputs.signals.enable = false)
      (unstarted : ¬ HasStart marks)
  | stopsOpen
      (active : engine.sequencer.stage ≠ .idle)
      (low : engine.sequencer.highNext = false)
      (advances : Deferral.Advances now inputs.carrier engine.deferral next.deferral true)

theorem Considers.deferral
    (considers : Considers now inputs ready signals engine next shown marks) :
    next.deferral = engine.deferral := by
  cases considers with
  | launches poised free drives => exact drives.deferral
  | holdsOff poised closed => rfl
  | passes unpoised => rfl

theorem Considers.passing
    (active : engine.sequencer.stage ≠ .idle)
    (considers : Considers now inputs ready signals engine next shown marks) :
    next = engine ∧ shown = signals ∧ marks = [] := by
  cases considers with
  | launches poised free drives => exact absurd poised.1 active
  | holdsOff poised closed => exact absurd poised.1 active
  | passes unpoised => exact ⟨rfl, rfl, rfl⟩

/-- While the deferral timer is not ready, no attempt starts. -/
theorem Considers.closed
    (considers : Considers now inputs false signals engine next shown marks) :
    next.sequencer = engine.sequencer ∧ next.deferral = engine.deferral ∧
      shown = signals ∧ marks = [] := by
  cases considers with
  | launches poised free drives => cases free
  | holdsOff poised closed => exact ⟨rfl, rfl, rfl, rfl⟩
  | passes unpoised => exact ⟨rfl, rfl, rfl, rfl⟩

/-- Every tick is one of the listed things as seen from the line. -/
theorem Ticks.sends {outputs : Outputs}
    (conforms : engine.Conforms config)
    (timing : config.Timing early gap)
    (settled : engine.sequencer.stage = .idle ∨ engine.sequencer.Driven)
    (ticks : Ticks now inputs engine next outputs marks) :
    Sends now inputs engine next outputs marks := by
  cases ticks with
  | @parts proceeded _ signals shown status before started deferral ready proceeds advances
      considers =>
      have unstarted := proceeds.unstarted
      have conformsThen := (conforms.proceeds proceeds).deferring advances.spans
      have deferralKept := proceeds.deferral
      rcases settled with idle | driven
      · obtain ⟨rfl, rfl, rfl, rfl⟩ := proceeds.resting idle
        replace advances :
            Deferral.Advances now inputs.carrier proceeded.deferral deferral ready := by
          simpa [Signals.quiet] using advances
        cases considers with
        | launches poised free drives =>
            obtain ⟨rfl, sequencer, _⟩ := conformsThen.launches timing drives
            let begun := proceeded.sequencer.start.loadPreamble
            have driven : begun.driving.Driven := Sequencer.driving_driven nofun
            subst free
            refine .starts idle ?_ ?_ ?_ driven.enabled (hasStart_started _ _ _)
            · rw [sequencer]
              exact ⟨driven.active, driven.enabled⟩
            · rw [sequencer]
              rfl
            · rw [drives.deferral]
              exact advances
        | holdsOff poised closed =>
            subst closed
            exact .rests idle idle advances nofun rfl not_hasStart_nil
        | passes unpoised =>
            exact .rests idle idle advances (fun _ => unpoised) rfl not_hasStart_nil
      · rw [deferralKept] at advances
        rcases proceeds.driven driven with ⟨enabled, drivenNext⟩ | ⟨low, rfl, idleNext⟩
        · have active : (proceeded.deferring deferral).sequencer.stage ≠ .idle :=
            drivenNext.active
          obtain ⟨rfl, rfl, rfl⟩ := considers.passing active
          rw [enabled, Bool.or_true] at advances
          rw [List.append_nil]
          exact .goesOn driven.active drivenNext advances enabled unstarted
        · replace advances :
              Deferral.Advances now inputs.carrier engine.deferral deferral ready := by
            simpa [Signals.quiet] using advances
          cases ready with
          | false =>
              obtain ⟨sequencer, deferralNext, rfl, rfl⟩ := considers.closed
              rw [List.append_nil]
              refine .stops driven.active low (sequencer ▸ idleNext) ?_ rfl unstarted
              rw [deferralNext]
              exact advances
          | true => exact .stopsOpen driven.active low (considers.deferral ▸ advances)

/-! ## Ticks with any readings of the timer

When the readings of the timer are arbitrary, the next attempt may start on the very tick
on which the line became quiet. -/

variable {sequencer : Sequencer} {source : σ} {outputs : Outputs}

/-- What a tick leaves once no attempt is in progress. -/
inductive Leaves (now : Tick) (inputs : Inputs) (sequencer : Sequencer) (source : σ)
    (next : Engine σ γ) (shown : Signals) (marks : List Mark) : Prop
  | rests
      (idle : next.sequencer.stage = .idle)
      (same : next.source = source)
      (disabled : shown.enable = false)
      (unstarted : ¬ HasStart marks)
  | starts {step : SequencerStep}
      (waiting : ByteSource.ready source = true)
      (moves :
        Sequencer.Moves now inputs.collision sequencer.start source next.sequencer
          next.source step)
      (same : shown = step.signals)
      (started : HasStart marks)
      (noticed : HasNotice marks ↔ step.collided = true)

/-- What a tick does to the attempt in progress, if there is one. -/
inductive Turns (now : Tick) (inputs : Inputs) (engine next : Engine σ γ)
    (outputs : Outputs) (marks : List Mark) : Prop
  | goesOn {step : SequencerStep}
      (active : engine.sequencer.stage ≠ .idle)
      (moves :
        Sequencer.Moves now inputs.collision engine.sequencer engine.source next.sequencer
          next.source step)
      (unended : step.ending = none)
      (shown : outputs.signals = step.signals)
      (unraised : outputs.status = {})
      (marked : marks = Sequencer.marksOfStep now step)
  | stops {stopped settled : Engine σ γ} {step : SequencerStep} {ending : Ending}
      {outcome : Option Outcome}
      (moves :
        Sequencer.Moves now inputs.collision engine.sequencer engine.source
          stopped.sequencer stopped.source step)
      (ended : step.ending = some ending)
      (settles : Settles now stopped ending settled outcome)
      (status : outputs.status = raised outcome)
      (leaves :
        Leaves now inputs stopped.sequencer settled.source next outputs.signals marks)
  | waits
      (idle : engine.sequencer.stage = .idle)
      (unraised : outputs.status = {})
      (leaves :
        Leaves now inputs engine.sequencer engine.source next outputs.signals marks)

theorem Considers.leaves {earlier : List Mark}
    (idle : engine.sequencer.stage = .idle)
    (quiet : signals.enable = false)
    (unstarted : ¬ HasStart earlier)
    (unnoticed : ¬ HasNotice earlier)
    (considers : Considers now inputs ready signals engine next shown marks) :
    Leaves now inputs engine.sequencer engine.source next shown (earlier ++ marks) := by
  cases considers with
  | launches poised free drives =>
      refine .starts poised.2.1 drives.moves rfl ?_ ?_
      · rw [hasStart_append]
        exact .inr (hasStart_started _ _ _)
      · rw [hasNotice_append, hasNotice_started, Sequencer.hasNotice_marksOfStep]
        exact or_iff_right unnoticed
  | holdsOff poised closed =>
      rw [List.append_nil]
      exact .rests idle rfl quiet unstarted
  | passes unpoised =>
      rw [List.append_nil]
      exact .rests idle rfl quiet unstarted

/-- Every tick does one of the listed things to the attempt in progress. -/
theorem Ticks.turns
    (ticks : Ticks now inputs engine next outputs marks) :
    Turns now inputs engine next outputs marks := by
  cases ticks with
  | @parts proceeded _ signals shown status before started deferral ready proceeds advances
      considers =>
      have unstarted := proceeds.unstarted
      by_cases idle : engine.sequencer.stage = .idle
      · obtain ⟨rfl, rfl, rfl, rfl⟩ := proceeds.resting idle
        have rested : (proceeded.deferring deferral).sequencer.stage = .idle := idle
        have leaves := considers.leaves rested rfl unstarted nofun
        exact .waits idle rfl leaves
      · cases proceeds with
        | goesOn drives unended =>
            have active : (proceeded.deferring deferral).sequencer.stage ≠ .idle :=
              drives.moves.active idle unended
            obtain ⟨rfl, rfl, rfl⟩ := considers.passing active
            rw [List.append_nil]
            exact .goesOn idle drives.moves unended rfl rfl rfl
        | settles drives ended settles =>
            obtain ⟨stage, quiet, unnoticed⟩ := drives.moves.ended_idle ended
            have rested : (proceeded.deferring deferral).sequencer.stage = .idle :=
              settles.keeps.1 ▸ stage
            have leaves := considers.leaves rested quiet unstarted (by simp [unnoticed])
            refine .stops drives.moves ended settles rfl ?_
            rw [← settles.keeps.1]
            exact leaves

omit [WordSource γ] in
theorem Leaves.rested
    (preamble : 0 < sequencer.plan.preambleBytes)
    (disabled : shown.enable = false)
    (leaves : Leaves now inputs sequencer source next shown marks) :
    next.source = source := by
  cases leaves with
  | rests idle same => exact same
  | starts waiting moves same =>
      have enabled := Sequencer.start_enabled preamble moves
      rw [← same, disabled] at enabled
      cases enabled

/-- A tick on which an attempt goes on is a tick of the sequencer. -/
theorem Ticks.goes_on
    (driven : engine.sequencer.Driven)
    (enabled : outputs.signals.enable = true)
    (unstarted : ¬ HasStart marks)
    (ticks : Ticks now inputs engine next outputs marks) :
    outputs.status = {} ∧
      ∃ step : SequencerStep, step.ending = none ∧ outputs.signals = step.signals ∧
        Sequencer.Moves now inputs.collision engine.sequencer engine.source next.sequencer
          next.source step := by
  cases ticks.turns with
  | goesOn active moves unended shown unraised =>
      exact ⟨unraised, _, unended, shown, moves⟩
  | stops moves ended settles status leaves =>
      cases leaves with
      | rests idle same disabled => cases disabled.symm.trans enabled
      | starts waiting moves shown started => exact absurd started unstarted
  | waits idle => exact absurd idle driven.active

/-- A tick on which an attempt stops ends it and settles it. -/
theorem Ticks.stops
    (conforms : engine.Conforms config)
    (timing : config.Timing early gap)
    (driven : engine.sequencer.Driven)
    (disabled : outputs.signals.enable = false)
    (ticks : Ticks now inputs engine next outputs marks) :
    ∃ (stopped settled : Engine σ γ) (step : SequencerStep) (ending : Ending)
        (outcome : Option Outcome),
      Sequencer.Moves now inputs.collision engine.sequencer engine.source stopped.sequencer
        stopped.source step ∧ step.ending = some ending ∧
      Settles now stopped ending settled outcome ∧ next.source = settled.source ∧
      outputs.status = raised outcome := by
  cases ticks.turns with
  | goesOn active moves unended shown =>
      rcases driven.moves moves with ⟨_, enabled, _⟩ | ⟨ended, _⟩
      · rw [← shown, disabled] at enabled
        cases enabled
      · exact absurd unended ended
  | @stops stopped settled step ending outcome moves ended settles status leaves =>
      have preamble : 0 < stopped.sequencer.plan.preambleBytes := by
        rw [moves.plan, conforms.preambleBytes]
        exact timing.preambleBytes_pos
      exact ⟨stopped, settled, step, ending, outcome, moves, ended, settles,
        leaves.rested preamble disabled, status⟩
  | waits idle => exact absurd idle driven.active

/-- A tick shows what the sequencer holds after it, and nothing at all when no attempt is in
progress then. -/
theorem Ticks.shows
    (conforms : engine.Conforms config)
    (timing : config.Timing early gap)
    (ticks : Ticks now inputs engine next outputs marks) :
    next.sequencer.stage = .idle ∧ outputs.signals = .quiet ∨
      next.sequencer.stage ≠ .idle ∧ outputs.signals = next.sequencer.onLine := by
  cases ticks with
  | @parts proceeded _ signals shown _ _ _ deferral ready proceeds advances considers =>
      have conformsThen := (conforms.proceeds proceeds).deferring advances.spans
      have rested (idle : proceeded.sequencer.stage = .idle) (quiet : signals = .quiet) :
          next.sequencer.stage = .idle ∧ shown = .quiet ∨
            next.sequencer.stage ≠ .idle ∧ shown = next.sequencer.onLine := by
        cases considers with
        | launches poised free drives =>
            obtain ⟨rfl, _⟩ := conformsThen.launches timing drives
            have begun : ((proceeded.deferring deferral).begin now).sequencer.stage ≠ .idle := nofun
            exact .inr ⟨drives.moves.active begun rfl, drives.moves.shows begun rfl⟩
        | holdsOff poised closed => exact .inl ⟨idle, quiet⟩
        | passes unpoised => exact .inl ⟨idle, quiet⟩
      cases proceeds with
      | goesOn drives unended =>
          by_cases idle : engine.sequencer.stage = .idle
          · obtain ⟨rfl, rfl⟩ := drives.resting idle
            exact rested idle rfl
          · have active : (proceeded.deferring deferral).sequencer.stage ≠ .idle :=
              drives.moves.active idle unended
            obtain ⟨rfl, rfl, _⟩ := considers.passing active
            exact .inr ⟨active, drives.moves.shows idle unended⟩
      | settles drives ended settles =>
          have ends := drives.moves.ended_quiet ended
          exact rested (settles.keeps.1 ▸ ends.1) ends.2

theorem Ticks.status_of_idle
    (idle : engine.sequencer.stage = .idle)
    (ticks : Ticks now inputs engine next outputs marks) :
    outputs.status = {} := by
  cases ticks.turns with
  | goesOn active => exact absurd idle active
  | stops moves ended =>
      obtain ⟨_, _, rfl⟩ := moves.resting idle
      cases ended
  | waits _ unraised => exact unraised

/-- A tick on which the line stays quiet between two attempts leaves the source alone. -/
theorem Ticks.rests
    (conforms : engine.Conforms config)
    (timing : config.Timing early gap)
    (idle : engine.sequencer.stage = .idle)
    (disabled : outputs.signals.enable = false)
    (ticks : Ticks now inputs engine next outputs marks) :
    next.source = engine.source := by
  cases ticks.turns with
  | goesOn active => exact absurd idle active
  | stops moves ended =>
      obtain ⟨_, _, rfl⟩ := moves.resting idle
      cases ended
  | waits _ unraised leaves =>
      have preamble : 0 < engine.sequencer.plan.preambleBytes := by
        rw [conforms.preambleBytes]
        exact timing.preambleBytes_pos
      exact leaves.rested preamble disabled

/-- A tick on which an attempt starts is the first tick of the sequencer. -/
theorem Ticks.launches
    (idle : engine.sequencer.stage = .idle)
    (enabled : outputs.signals.enable = true)
    (ticks : Ticks now inputs engine next outputs marks) :
    ByteSource.ready engine.source = true ∧
      ∃ step : SequencerStep, outputs.signals = step.signals ∧
        Sequencer.Moves now inputs.collision engine.sequencer.start engine.source
          next.sequencer next.source step := by
  cases ticks.turns with
  | goesOn active => exact absurd idle active
  | stops moves ended =>
      obtain ⟨_, _, rfl⟩ := moves.resting idle
      cases ended
  | waits _ unraised leaves =>
      cases leaves with
      | rests idleNext same disabled => cases disabled.symm.trans enabled
      | starts waiting moves shown => exact ⟨waiting, _, shown, moves⟩

end Engine

end HalfDuplex
