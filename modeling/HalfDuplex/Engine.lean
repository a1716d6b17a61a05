import HalfDuplex.CollisionWindow
import HalfDuplex.Deferral
import HalfDuplex.Sequencer

/-!
# The transmit engine

The engine joins the deferral timer, the collision window and the sequencer.  On each
tick it samples carrier and collision once and then works in a fixed order: the
attempt in progress goes on, an attempt that ended is settled, the deferral timer
advances with the station's own transmission counted as carrier, and at last a new
attempt may start.

A frame is in the engine's hands from its first attempt to its outcome.  Exactly one
indicator is raised for it, on the tick on which its source releases it.

The time is a parameter of each tick, so nothing here assumes that successive
readings are consecutive.
-/

namespace HalfDuplex

/-- The inputs sampled on a tick. -/
structure Inputs where
  carrier : Bool := false
  collision : Bool := false
  deriving DecidableEq, Repr

/-- What the engine shows on a tick. -/
structure Outputs where
  signals : Signals := .quiet
  status : Indicators := {}
  deriving DecidableEq, Repr

/-- Counts over the life of an engine.  A count that reaches the bound of its width
stays there. -/
structure Statistics where
  sent : Nat := 0
  collisions : Nat := 0
  lateCollisions : Nat := 0
  gaveUp : Nat := 0
  underflows : Nat := 0
  deferrals : Nat := 0
  deriving DecidableEq, Repr

namespace Statistics

def countOutcome (stats : Statistics) : Outcome → Statistics
  | .ok => { stats with sent := saturatingSucc countLimit stats.sent }
  | .gaveUp => { stats with gaveUp := saturatingSucc countLimit stats.gaveUp }
  | .lateCollision =>
      { stats with lateCollisions := saturatingSucc countLimit stats.lateCollisions }
  | .underflow => { stats with underflows := saturatingSucc countLimit stats.underflows }

def countCollision (stats : Statistics) : Statistics :=
  { stats with collisions := saturatingSucc countLimit stats.collisions }

def countDeferral (stats : Statistics) : Statistics :=
  { stats with deferrals := saturatingSucc countLimit stats.deferrals }

end Statistics

/-- A transmit engine over a byte source `σ`, whose backoffs are drawn from `γ`.  The verdict
is that on a collision whose jam is not over, and `deferred` notes that the next attempt was
held off by carrier. -/
structure Engine (σ γ : Type) where
  config : Config
  source : σ
  deferral : Deferral
  window : CollisionWindow γ
  sequencer : Sequencer
  verdict : Option Verdict := none
  backoffUntil : Option Tick := none
  deferred : Bool := false
  stats : Statistics := {}
  deriving DecidableEq, Repr

namespace Engine

variable {σ γ : Type}

/-- An engine that begins at `now` with a full gap, unless the configuration breaks a
rule. -/
def ofConfig (config : Config) (source : σ) (words : γ) (now : Tick) :
    Traced (Except ConfigError (Engine σ γ)) := do
  match ← .lift config.firstError with
  | some error => return .error error
  | none =>
      let gap ← .lift config.gapTicks
      .record (.engineSetUp now config.byteTime gap)
      let deferral ← .lift (Deferral.ofConfig config now)
      let sequencer ← .lift (Sequencer.ofConfig config)
      return .ok {
        config
        source
        deferral
        window := CollisionWindow.ofConfig config words
        sequencer }

/-- Whether a frame is in the engine's hands: driven, jammed or backing off. -/
def busy (engine : Engine σ γ) : Bool :=
  engine.sequencer.active || engine.backoffUntil.isSome || 0 < engine.window.collisions

def attempt (engine : Engine σ γ) : Option Attempt :=
  engine.window.attempt

def collisions (engine : Engine σ γ) : Nat :=
  engine.window.collisions

def stage (engine : Engine σ γ) : Stage :=
  engine.sequencer.stage

/-- Whether a backoff, if there is one, is over at `now`. -/
def backoffDone (engine : Engine σ γ) (now : Tick) : Bool :=
  match engine.backoffUntil with
  | some due => due ≤ now
  | none => true

def begin (engine : Engine σ γ) (now : Tick) : Engine σ γ :=
  { engine with
    window := engine.window.begin now
    sequencer := engine.sequencer.start
    backoffUntil := none
    stats := if engine.deferred then engine.stats.countDeferral else engine.stats
    deferred := false }

variable [ByteSource σ]

def rewindSource (engine : Engine σ γ) : Engine σ γ :=
  { engine with source := ByteSource.rewind engine.source }

/-- Settles the frame in flight with its outcome and turns to the next one. -/
def finish (engine : Engine σ γ) (now : Tick) (outcome : Outcome) :
    Traced (Engine σ γ × Option Outcome) := do
  .record (.frameCompleted now outcome engine.window.collisions)
  return ({ engine with
      stats := engine.stats.countOutcome outcome
      verdict := none
      backoffUntil := none
      window := engine.window.reset
      source := ByteSource.release engine.source },
    some outcome)

/-- Settles an attempt that ended, and the frame with it unless it is tried again. -/
def settle (engine : Engine σ γ) (now : Tick) (ending : Ending) :
    Traced (Engine σ γ × Option Outcome) :=
  match ending with
  | .sent => engine.finish now .ok
  | .underflow => engine.finish now .underflow
  | .jammed =>
      match engine.verdict with
      | some (.retry slots delay) => do
          let due ← .lift (checkedAdd wideLimit now delay)
          .record (.retryScheduled now slots due)
          return ({ engine with
              stats := engine.stats.countCollision
              verdict := none
              backoffUntil := some due }.rewindSource,
            none)
      | some .giveUp =>
          { engine with stats := engine.stats.countCollision }.finish now .gaveUp
      | some .late => engine.finish now .lateCollision
      | none => do
          .record (.verdictMissing now)
          return (engine.rewindSource, none)

variable [WordSource γ]

/-- One tick of the sequencer, with a collision that it noticed judged at once. -/
def drive (engine : Engine σ γ) (now : Tick) (collision : Bool) :
    Traced (Engine σ γ × SequencerStep) := do
  let (sequencer, source, step) ← engine.sequencer.step now collision engine.source
  let engine := { engine with sequencer, source }
  if step.collided then
    let (window, verdict) ← engine.window.collide now
    return ({ engine with window, verdict := some verdict }, step)
  else
    return (engine, step)

/-- The attempt in progress goes on for a tick, and is settled if it ended. -/
def proceed (engine : Engine σ γ) (now : Tick) (collision : Bool) :
    Traced (Engine σ γ × Signals × Indicators) := do
  let (engine, step) ← engine.drive now collision
  match step.ending with
  | none => return (engine, step.signals, {})
  | some ending =>
      let (engine, outcome) ← engine.settle now ending
      match outcome with
      | none => return (engine, step.signals, {})
      | some outcome => return (engine, step.signals, outcome.indicators)

def launch (engine : Engine σ γ) (now : Tick) (collision : Bool) :
    Traced (Engine σ γ × Signals) := do
  let attempt := engine.window.nextAttempt now
  .record (.attemptStarted attempt.number now)
  let (engine, step) ← (engine.begin now).drive now collision
  return (engine, step.signals)

/-- Starts an attempt if a frame waits, the line is free and no backoff is running.
Carrier that is all that holds an attempt off is noted. -/
def consider (engine : Engine σ γ) (now : Tick) (inputs : Inputs) (ready : Bool)
    (signals : Signals) : Traced (Engine σ γ × Signals) :=
  if !engine.sequencer.active && ByteSource.ready engine.source &&
      engine.backoffDone now then
    if ready then
      engine.launch now inputs.collision
    else
      return ({ engine with deferred := engine.deferred || inputs.carrier }, signals)
  else
    return (engine, signals)

def tick (engine : Engine σ γ) (now : Tick) (inputs : Inputs) :
    Traced (Engine σ γ × Outputs) := do
  let (engine, signals, status) ← engine.proceed now inputs.collision
  let (deferral, ready) ←
    engine.deferral.tick now (inputs.carrier || signals.enable)
  let (engine, signals) ← { engine with deferral }.consider now inputs ready signals
  return (engine, { signals, status })

end Engine

end HalfDuplex
