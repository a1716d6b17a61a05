import HalfDuplex.Engine
import HalfDuplex.Proofs.Transitions.CollisionWindow
import HalfDuplex.Proofs.Transitions.Deferral
import HalfDuplex.Proofs.Transitions.Sequencer

/-!
# The transitions of the engine

A tick of the engine has three parts, and each of them has a relation here that lists
what it can do: `Proceeds` for the attempt in progress, `Deferral.Advances` for the
deferral timer and `Considers` for the start of a new attempt.  `Ticks` joins them, and
`tick_yields` reads it off a tick that ran through, together with the marks that the
tick leaves.
-/

namespace HalfDuplex

namespace Engine

variable {σ γ : Type}

def stepped (engine : Engine σ γ) (sequencer : Sequencer) (source : σ) : Engine σ γ :=
  { engine with sequencer, source }

def judged (engine : Engine σ γ) (window : CollisionWindow γ) (verdict : Verdict) :
    Engine σ γ :=
  { engine with window, verdict := some verdict }

def counted (engine : Engine σ γ) : Engine σ γ :=
  { engine with stats := engine.stats.countCollision }

/-- The engine that holds an attempt off and notes whether carrier was the reason. -/
def heldOff (engine : Engine σ γ) (carrier : Bool) : Engine σ γ :=
  { engine with deferred := engine.deferred || carrier }

def deferring (engine : Engine σ γ) (deferral : Deferral) : Engine σ γ :=
  { engine with deferral }

/-- An attempt may start as far as source, sequencer and backoff are concerned. -/
def Poised [ByteSource σ] (engine : Engine σ γ) (now : Tick) : Prop :=
  engine.sequencer.stage = .idle ∧ ByteSource.ready engine.source = true ∧
    engine.backoffDone now = true

section Settling

variable [ByteSource σ]

/-- The engine after the frame in flight came to its outcome. -/
def finished (engine : Engine σ γ) (outcome : Outcome) : Engine σ γ :=
  { engine with
    stats := engine.stats.countOutcome outcome
    verdict := none
    backoffUntil := none
    window := engine.window.reset
    source := ByteSource.release engine.source }

/-- The engine that will try the frame in flight again. -/
def backingOff (engine : Engine σ γ) (due : Tick) : Engine σ γ :=
  { engine with
    stats := engine.stats.countCollision
    verdict := none
    backoffUntil := some due
    source := ByteSource.rewind engine.source }

/-- The ways in which an attempt that ended is settled. -/
inductive Settles (now : Tick) (engine : Engine σ γ) :
    Ending → Engine σ γ → Option Outcome → Prop
  | sent :
      Settles now engine .sent (engine.finished .ok) (some .ok)
  | underflow :
      Settles now engine .underflow (engine.finished .underflow) (some .underflow)
  | retry {slots : Nat} {delay : Tick}
      (verdict : engine.verdict = some (.retry slots delay)) :
      Settles now engine .jammed (engine.backingOff (now + delay)) none
  | giveUp
      (verdict : engine.verdict = some .giveUp) :
      Settles now engine .jammed (engine.counted.finished .gaveUp) (some .gaveUp)
  | late
      (verdict : engine.verdict = some .late) :
      Settles now engine .jammed (engine.finished .lateCollision) (some .lateCollision)
  | unjudged
      (verdict : engine.verdict = none) :
      Settles now engine .jammed engine.rewindSource none

theorem finish_yields {engine next : Engine σ γ} {now : Tick} {outcome : Outcome}
    {answer : Option Outcome} {events : List Event}
    (yields : (engine.finish now outcome).Yields events (next, answer)) :
    next = engine.finished outcome ∧ answer = some outcome ∧
      marksOf now events = [.completed outcome] := by
  simp only [finish, Traced.yields_bind, Traced.yields_record, Traced.yields_pure,
    Prod.mk.injEq] at yields
  obtain ⟨_, _, _, rfl, ⟨rfl, rfl, rfl⟩, rfl⟩ := yields
  exact ⟨rfl, rfl, rfl⟩

theorem settle_yields {engine next : Engine σ γ} {now : Tick} {ending : Ending}
    {answer : Option Outcome} {events : List Event}
    (yields : (engine.settle now ending).Yields events (next, answer)) :
    Settles now engine ending next answer ∧
      marksOf now events = (answer.map .completed).toList := by
  unfold settle at yields
  split at yields
  · obtain ⟨rfl, rfl, marked⟩ := finish_yields yields
    exact ⟨.sent, marked⟩
  · obtain ⟨rfl, rfl, marked⟩ := finish_yields yields
    exact ⟨.underflow, marked⟩
  · split at yields
    · rename_i slots delay verdict
      simp only [Traced.yields_bind, Traced.yields_lift, Traced.yields_record,
        Traced.yields_pure, Prod.mk.injEq, checkedAdd_eq_ok_iff] at yields
      obtain ⟨_, _, _, ⟨rfl, _, rfl⟩, ⟨_, _, _, rfl, ⟨rfl, rfl, rfl⟩, rfl⟩, rfl⟩ := yields
      exact ⟨.retry verdict, rfl⟩
    · rename_i verdict
      obtain ⟨rfl, rfl, marked⟩ := finish_yields yields
      exact ⟨.giveUp verdict, marked⟩
    · rename_i verdict
      obtain ⟨rfl, rfl, marked⟩ := finish_yields yields
      exact ⟨.late verdict, marked⟩
    · rename_i verdict
      simp only [Traced.yields_bind, Traced.yields_record, Traced.yields_pure,
        Prod.mk.injEq] at yields
      obtain ⟨_, _, _, rfl, ⟨rfl, rfl, rfl⟩, rfl⟩ := yields
      exact ⟨.unjudged verdict, rfl⟩

end Settling

section Ticking

variable [ByteSource σ] [WordSource γ]

/-- What a tick of the sequencer does to the engine. -/
inductive Drives (now : Tick) (collision : Bool) (engine : Engine σ γ) :
    Engine σ γ → SequencerStep → Prop
  | plain {sequencer : Sequencer} {source : σ} {step : SequencerStep}
      (moves :
        Sequencer.Moves now collision engine.sequencer engine.source sequencer source step)
      (unnoticed : step.collided = false) :
      Drives now collision engine (engine.stepped sequencer source) step
  | struck {sequencer : Sequencer} {source : σ} {step : SequencerStep}
      {window : CollisionWindow γ} {verdict : Verdict}
      (moves :
        Sequencer.Moves now collision engine.sequencer engine.source sequencer source step)
      (noticed : step.collided = true)
      (judges : CollisionWindow.Judges now engine.window window verdict) :
      Drives now collision engine
        ((engine.stepped sequencer source).judged window verdict) step

theorem drive_yields {engine next : Engine σ γ} {now : Tick} {collision : Bool}
    {step : SequencerStep} {events : List Event}
    (yields : (engine.drive now collision).Yields events (next, step)) :
    Drives now collision engine next step ∧
      marksOf now events = Sequencer.marksOfStep now step := by
  simp only [drive, Traced.yields_bind] at yields
  obtain ⟨⟨sequencer, source, shown⟩, _, _, steps, yields, rfl⟩ := yields
  obtain ⟨moves, marked⟩ := Sequencer.step_yields steps
  split at yields
  · rename_i noticed
    simp only [Traced.yields_bind, Traced.yields_pure, Prod.mk.injEq] at yields
    obtain ⟨⟨window, verdict⟩, _, _, collides, ⟨rfl, rfl, rfl⟩, rfl⟩ := yields
    obtain ⟨judges, unmarked⟩ := CollisionWindow.collide_yields collides
    exact ⟨.struck moves noticed judges, by simp [marked, unmarked]⟩
  · rename_i unnoticed
    simp only [Traced.yields_pure, Prod.mk.injEq] at yields
    obtain ⟨rfl, rfl, rfl⟩ := yields
    exact ⟨.plain moves (by simpa using unnoticed), by simp [marked]⟩

theorem Drives.moves {engine next : Engine σ γ} {now : Tick} {collision : Bool}
    {step : SequencerStep}
    (drives : Drives now collision engine next step) :
    Sequencer.Moves now collision engine.sequencer engine.source next.sequencer
      next.source step := by
  cases drives with
  | plain moves unnoticed => exact moves
  | struck moves noticed judges => exact moves

theorem Drives.resting {engine next : Engine σ γ} {now : Tick} {collision : Bool}
    {step : SequencerStep}
    (idle : engine.sequencer.stage = .idle)
    (drives : Drives now collision engine next step) :
    next = engine ∧ step = {} := by
  cases drives with
  | plain moves unnoticed =>
      obtain ⟨rfl, rfl, rfl⟩ := moves.resting idle
      exact ⟨rfl, rfl⟩
  | struck moves noticed judges =>
      obtain ⟨_, _, rfl⟩ := moves.resting idle
      cases noticed

def raised (outcome : Option Outcome) : Indicators :=
  match outcome with
  | some outcome => outcome.indicators
  | none => {}

/-- What a tick can do to the attempt in progress. -/
inductive Proceeds (now : Tick) (collision : Bool) (engine : Engine σ γ) :
    Engine σ γ → Signals → Indicators → List Mark → Prop
  | goesOn {next : Engine σ γ} {step : SequencerStep}
      (drives : Drives now collision engine next step)
      (unended : step.ending = none) :
      Proceeds now collision engine next step.signals {}
        (Sequencer.marksOfStep now step)
  | settles {driven next : Engine σ γ} {step : SequencerStep} {ending : Ending}
      {outcome : Option Outcome}
      (drives : Drives now collision engine driven step)
      (ended : step.ending = some ending)
      (settles : Settles now driven ending next outcome) :
      Proceeds now collision engine next step.signals (raised outcome)
        (Sequencer.marksOfStep now step ++ (outcome.map .completed).toList)

theorem proceed_yields {engine next : Engine σ γ} {now : Tick} {collision : Bool}
    {signals : Signals} {status : Indicators} {events : List Event}
    (yields : (engine.proceed now collision).Yields events (next, signals, status)) :
    Proceeds now collision engine next signals status (marksOf now events) := by
  simp only [proceed, Traced.yields_bind] at yields
  obtain ⟨⟨driven, step⟩, _, _, drove, yields, rfl⟩ := yields
  obtain ⟨drives, marked⟩ := drive_yields drove
  simp only at yields
  split at yields
  · rename_i unended
    simp only [Traced.yields_pure, Prod.mk.injEq] at yields
    obtain ⟨rfl, rfl, rfl, rfl⟩ := yields
    rw [List.append_nil, marked]
    exact .goesOn drives unended
  · rename_i ending ended
    simp only [Traced.yields_bind] at yields
    obtain ⟨⟨settled, outcome⟩, _, _, settled, yields, rfl⟩ := yields
    obtain ⟨settles, completed⟩ := settle_yields settled
    cases outcome with
    | none =>
        simp only [Traced.yields_pure, Prod.mk.injEq] at yields
        obtain ⟨rfl, rfl, rfl, rfl⟩ := yields
        have proceeds := Proceeds.settles drives ended settles
        rwa [← marked, ← completed, ← marksOf_append, ← List.append_nil (_ ++ _),
          List.append_assoc] at proceeds
    | some outcome =>
        simp only [Traced.yields_pure, Prod.mk.injEq] at yields
        obtain ⟨rfl, rfl, rfl, rfl⟩ := yields
        have proceeds := Proceeds.settles drives ended settles
        rwa [← marked, ← completed, ← marksOf_append, ← List.append_nil (_ ++ _),
          List.append_assoc] at proceeds

/-- What a tick can do about a new attempt. -/
inductive Considers (now : Tick) (inputs : Inputs) (ready : Bool) (signals : Signals)
    (engine : Engine σ γ) : Engine σ γ → Signals → List Mark → Prop
  | launches {next : Engine σ γ} {step : SequencerStep}
      (poised : engine.Poised now)
      (free : ready = true)
      (drives : Drives now inputs.collision (engine.begin now) next step) :
      Considers now inputs ready signals engine next step.signals
        (.started (engine.window.nextAttempt now).number now ::
          Sequencer.marksOfStep now step)
  | holdsOff
      (poised : engine.Poised now)
      (closed : ready = false) :
      Considers now inputs ready signals engine (engine.heldOff inputs.carrier) signals []
  | passes
      (unpoised : ¬ engine.Poised now) :
      Considers now inputs ready signals engine engine signals []

theorem active_eq_false_iff {sequencer : Sequencer} :
    sequencer.active = false ↔ sequencer.stage = .idle := by
  simp [Sequencer.active, Stage.active]

theorem consider_yields {engine next : Engine σ γ} {now : Tick} {inputs : Inputs}
    {ready : Bool} {signals shown : Signals} {events : List Event}
    (yields : (engine.consider now inputs ready signals).Yields events (next, shown)) :
    Considers now inputs ready signals engine next shown (marksOf now events) := by
  unfold consider at yields
  split at yields
  · rename_i mayStart
    simp only [Bool.and_eq_true, Bool.not_eq_true', active_eq_false_iff] at mayStart
    have poised : engine.Poised now := ⟨mayStart.1.1, mayStart.1.2, mayStart.2⟩
    split at yields
    · rename_i free
      simp only [launch, Traced.yields_bind, Traced.yields_record, Traced.yields_pure,
        Prod.mk.injEq] at yields
      obtain ⟨_, _, _, rfl, ⟨⟨driven, step⟩, _, _, drove, ⟨rfl, rfl, rfl⟩, rfl⟩,
        rfl⟩ := yields
      obtain ⟨drives, marked⟩ := drive_yields drove
      have considers : Considers now inputs ready signals engine _ _ _ :=
        .launches poised free drives
      simpa [marked, Event.mark?] using considers
    · rename_i closed
      simp only [Traced.yields_pure, Prod.mk.injEq] at yields
      obtain ⟨rfl, rfl, rfl⟩ := yields
      exact .holdsOff poised (by simpa using closed)
  · rename_i unable
    simp only [Traced.yields_pure, Prod.mk.injEq] at yields
    obtain ⟨rfl, rfl, rfl⟩ := yields
    refine .passes fun poised => unable ?_
    simp [active_eq_false_iff.mpr poised.1, poised.2.1, poised.2.2]

/-- What a tick of the engine does: it proceeds with the attempt in progress, advances
the deferral timer, and considers a new attempt. -/
inductive Ticks (now : Tick) (inputs : Inputs) (engine : Engine σ γ) :
    Engine σ γ → Outputs → List Mark → Prop
  | parts {proceeded next : Engine σ γ} {signals shown : Signals} {status : Indicators}
      {settled started : List Mark} {deferral : Deferral} {ready : Bool}
      (proceeds : Proceeds now inputs.collision engine proceeded signals status settled)
      (advances :
        Deferral.Advances now (inputs.carrier || signals.enable) proceeded.deferral
          deferral ready)
      (considers :
        Considers now inputs ready signals (proceeded.deferring deferral) next shown
          started) :
      Ticks now inputs engine next { signals := shown, status } (settled ++ started)

/-- A tick runs through exactly when its three parts do. -/
theorem tick_yields_iff {engine next : Engine σ γ} {now : Tick} {inputs : Inputs}
    {outputs : Outputs} {events : List Event} :
    (engine.tick now inputs).Yields events (next, outputs) ↔
      ∃ proceeded signals before deferral ready between after,
        (engine.proceed now inputs.collision).Yields before
            (proceeded, signals, outputs.status) ∧
          (proceeded.deferral.tick now (inputs.carrier || signals.enable)).Yields between
            (deferral, ready) ∧
          ((proceeded.deferring deferral).consider now inputs ready signals).Yields after
            (next, outputs.signals) ∧
          events = before ++ (between ++ after) := by
  simp only [tick, Traced.yields_bind, Traced.yields_pure, Prod.mk.injEq]
  constructor
  · rintro ⟨⟨proceeded, signals, status⟩, before, _, proceeds, ⟨⟨deferral, ready⟩, between, _,
      advances, ⟨⟨considered, shown⟩, after, _, considers, ⟨rfl, rfl, rfl⟩, rfl⟩, rfl⟩, rfl⟩
    exact ⟨proceeded, signals, before, deferral, ready, between, after, proceeds, advances,
      considers, by simp⟩
  · rintro ⟨proceeded, signals, before, deferral, ready, between, after, proceeds, advances,
      considers, rfl⟩
    exact ⟨_, _, _, proceeds, ⟨_, _, _, advances, ⟨_, _, _, considers, ⟨rfl, rfl, rfl⟩, rfl⟩,
      rfl⟩, by simp⟩

/-- A tick that ran through did its three parts, one after the other. -/
theorem tick_yields {engine next : Engine σ γ} {now : Tick} {inputs : Inputs}
    {outputs : Outputs} {events : List Event}
    (yields : (engine.tick now inputs).Yields events (next, outputs)) :
    Ticks now inputs engine next outputs (marksOf now events) := by
  obtain ⟨proceeded, signals, before, deferral, ready, between, after, proceeds, advances,
    considers, rfl⟩ := tick_yields_iff.mp yields
  obtain ⟨advances, unmarked⟩ := Deferral.tick_yields advances
  have ticks :=
    Ticks.parts (proceed_yields proceeds) advances (consider_yields considers)
  simpa [unmarked] using ticks

end Ticking

end Engine

end HalfDuplex
