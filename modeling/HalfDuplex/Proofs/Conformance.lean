import HalfDuplex.Proofs.Collisions
import HalfDuplex.Proofs.Timing
import HalfDuplex.Proofs.Transitions.Engine

/-!
# Engines that conform to a configuration

The plan of the sequencer, the limits of the collision window and the spans of the
deferral timer are set once from the configuration.  An engine that has them
`Conforms`, and no tick changes that.
-/

namespace HalfDuplex

variable {σ γ : Type}

namespace Sequencer

variable [ByteSource σ] {now : Tick} {sequencer next : Sequencer} {source after : σ}

theorem Moves.plan {collision : Bool} {step : SequencerStep}
    (moves : Moves now collision sequencer source next after step) :
    next.plan = sequencer.plan := by
  cases moves with
  | rests | holds | continues => rfl
  | begins active due low boundary notOver => exact boundary.counters.1
  | ends active due low boundary => exact boundary.counters.1

end Sequencer

/-- The lengths that an attempt is made of, as the configuration gives them. -/
theorem LinePlan.ofConfig_eq_ok {config : Config} {plan : LinePlan}
    (planned : LinePlan.ofConfig config = .ok plan) :
    plan = {
      nibbleTicks := config.nibbleTicks
      preambleBytes := config.preambleBytes.toNat
      preambleNibbles := config.preambleBytes.toNat * 2
      jamNibbles := config.jamBytes.toNat * 2
      minFrame := config.minFrameBytes.toNat } := by
  unfold LinePlan.ofConfig at planned
  cases preamble : config.preambleNibbles with
  | error fault =>
      rw [preamble] at planned
      cases planned
  | ok preambleNibbles =>
      cases jam : config.jamNibbles with
      | error fault =>
          rw [preamble, jam] at planned
          cases planned
      | ok jamNibbles =>
          rw [preamble, jam] at planned
          cases planned
          unfold Config.preambleNibbles at preamble
          unfold Config.jamNibbles at jam
          rw [checkedMul_eq_ok_iff] at preamble jam
          rw [← preamble.2, ← jam.2]

theorem Deferral.ofConfig_eq_ok {config : Config} {deferral : Deferral} {now : Tick}
    (setUp : Deferral.ofConfig config now = .ok deferral) :
    config.earlyTicks = .ok deferral.earlyTicks ∧
      config.gapTicks = .ok deferral.gapTicks ∧ deferral.state = .early now := by
  unfold Deferral.ofConfig at setUp
  cases early : config.earlyTicks with
  | error fault =>
      rw [early] at setUp
      cases setUp
  | ok earlyTicks =>
      cases gap : config.gapTicks with
      | error fault =>
          rw [early, gap] at setUp
          cases setUp
      | ok gapTicks =>
          rw [early, gap] at setUp
          cases setUp
          exact ⟨rfl, rfl, rfl⟩

theorem Sequencer.ofConfig_eq_ok {config : Config} {sequencer : Sequencer}
    (setUp : Sequencer.ofConfig config = .ok sequencer) :
    ∃ plan, LinePlan.ofConfig config = .ok plan ∧ sequencer = { plan } := by
  unfold Sequencer.ofConfig at setUp
  cases planned : LinePlan.ofConfig config with
  | error fault =>
      rw [planned] at setUp
      cases setUp
  | ok plan =>
      rw [planned] at setUp
      cases setUp
      exact ⟨plan, rfl, rfl⟩

namespace Engine

def supplied (engine : Engine σ γ) (change : σ → σ) : Engine σ γ :=
  { engine with source := change engine.source }

/-- The engine has the plan, the limits and the spans of a configuration. -/
structure Conforms (config : Config) (engine : Engine σ γ) : Prop where
  plan : LinePlan.ofConfig config = .ok engine.sequencer.plan
  limits : engine.window.limits = CollisionLimits.ofConfig config
  earlyTicks : config.earlyTicks = .ok engine.deferral.earlyTicks
  gapTicks : config.gapTicks = .ok engine.deferral.gapTicks

/-- What an engine is that was set up. -/
theorem ofConfig_eq_ok {config : Config} {engine : Engine σ γ} {now : Tick}
    {source : σ} {words : γ}
    (setUp : (Engine.ofConfig config source words now).value = .ok (.ok engine)) :
    config.Accepted ∧ ∃ deferral sequencer,
      Deferral.ofConfig config now = .ok deferral ∧
        Sequencer.ofConfig config = .ok sequencer ∧
        engine = {
          config, source, deferral, sequencer
          window := CollisionWindow.ofConfig config words } := by
  simp only [Engine.ofConfig, Traced.value_bind_eq_ok_iff, Traced.value_lift] at setUp
  obtain ⟨answer, checked, built⟩ := setUp
  cases answer with
  | some error => simp at built
  | none =>
      simp only [Traced.value_bind_eq_ok_iff, Traced.value_lift, Traced.value_record,
        Traced.value_pure, Except.ok.injEq] at built
      obtain ⟨gap, gapEqual, _, _, deferral, deferralEqual, sequencer, sequencerEqual,
        rfl⟩ := built
      exact ⟨checked, deferral, sequencer, deferralEqual, sequencerEqual, rfl⟩

namespace Conforms

variable {config : Config} {engine next : Engine σ γ} {now : Tick}

theorem supplied (conforms : engine.Conforms config) (change : σ → σ) :
    (engine.supplied change).Conforms config :=
  ⟨conforms.plan, conforms.limits, conforms.earlyTicks, conforms.gapTicks⟩

theorem preambleBytes (conforms : engine.Conforms config) :
    engine.sequencer.plan.preambleBytes = config.preambleBytes.toNat := by
  rw [LinePlan.ofConfig_eq_ok conforms.plan]

theorem begin (conforms : engine.Conforms config) (now : Tick) :
    (engine.begin now).Conforms config :=
  ⟨conforms.plan, conforms.limits, conforms.earlyTicks, conforms.gapTicks⟩

theorem deferring {deferral : Deferral}
    (conforms : engine.Conforms config)
    (spans :
      deferral.earlyTicks = engine.deferral.earlyTicks ∧
        deferral.gapTicks = engine.deferral.gapTicks) :
    (engine.deferring deferral).Conforms config :=
  ⟨conforms.plan, conforms.limits, spans.1.symm ▸ conforms.earlyTicks,
    spans.2.symm ▸ conforms.gapTicks⟩

section Settling

variable [ByteSource σ]

theorem settles {ending : Ending} {outcome : Option Outcome}
    (conforms : engine.Conforms config)
    (settles : Settles now engine ending next outcome) :
    next.Conforms config := by
  obtain ⟨plan, limits, earlyTicks, gapTicks⟩ := conforms
  cases settles <;> exact ⟨plan, limits, earlyTicks, gapTicks⟩

end Settling

section Ticking

variable [ByteSource σ] [WordSource γ]

theorem drives {collision : Bool} {step : SequencerStep}
    (conforms : engine.Conforms config)
    (drives : Drives now collision engine next step) :
    next.Conforms config := by
  cases drives with
  | plain moves unnoticed =>
      exact ⟨moves.plan.symm ▸ conforms.plan, conforms.limits, conforms.earlyTicks,
        conforms.gapTicks⟩
  | struck moves noticed judges =>
      exact ⟨moves.plan.symm ▸ conforms.plan, judges.limits.trans conforms.limits,
        conforms.earlyTicks, conforms.gapTicks⟩

theorem proceeds {collision : Bool} {signals : Signals} {status : Indicators}
    {marks : List Mark}
    (conforms : engine.Conforms config)
    (proceeds : Proceeds now collision engine next signals status marks) :
    next.Conforms config := by
  cases proceeds with
  | goesOn drives unended => exact conforms.drives drives
  | settles drives ended settles => exact (conforms.drives drives).settles settles

/-- An attempt that is launched drives the first nibble of its preamble. -/
theorem launches {collision : Bool} {step : SequencerStep} {early gap : Tick}
    (conforms : engine.Conforms config)
    (timing : config.Timing early gap)
    (drives : Drives now collision (engine.begin now) next step) :
    step = engine.sequencer.start.loadPreamble.driving.shown collision true ∧
      next.sequencer = engine.sequencer.start.loadPreamble.driving.sampled collision ∧
        next.source = engine.source := by
  have preamble : 0 < engine.sequencer.plan.preambleBytes := by
    rw [conforms.preambleBytes]
    exact timing.preambleBytes_pos
  cases drives with
  | plain moves unnoticed => exact Sequencer.start_moves preamble moves
  | struck moves noticed judges => exact Sequencer.start_moves preamble moves

theorem considers {inputs : Inputs} {ready : Bool} {signals shown : Signals}
    {marks : List Mark}
    (conforms : engine.Conforms config)
    (considers : Considers now inputs ready signals engine next shown marks) :
    next.Conforms config := by
  cases considers with
  | launches poised free drives => exact (conforms.begin now).drives drives
  | holdsOff poised closed =>
      exact ⟨conforms.plan, conforms.limits, conforms.earlyTicks, conforms.gapTicks⟩
  | passes unpoised => exact conforms

theorem ticks {inputs : Inputs} {outputs : Outputs} {marks : List Mark}
    (conforms : engine.Conforms config)
    (ticks : Ticks now inputs engine next outputs marks) :
    next.Conforms config := by
  cases ticks with
  | parts proceeds advances considers =>
      exact ((conforms.proceeds proceeds).deferring advances.spans).considers considers

end Ticking

/-- An engine that was set up conforms to its configuration. -/
theorem of_setUp {source : σ} {words : γ}
    (setUp : (Engine.ofConfig config source words now).value = .ok (.ok engine)) :
    engine.Conforms config := by
  obtain ⟨_, deferral, sequencer, deferralEqual, sequencerEqual, rfl⟩ :=
    ofConfig_eq_ok setUp
  obtain ⟨plan, planned, rfl⟩ := Sequencer.ofConfig_eq_ok sequencerEqual
  obtain ⟨earlyTicks, gapTicks, _⟩ := Deferral.ofConfig_eq_ok deferralEqual
  exact ⟨planned, rfl, earlyTicks, gapTicks⟩

end Conforms

end Engine

end HalfDuplex
