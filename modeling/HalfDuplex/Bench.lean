import HalfDuplex.Engine
import HalfDuplex.Receiver
import HalfDuplex.Source.Script

/-!
# The test bench

The bench runs an engine over scripted frames against a scripted medium and the
modelled receiver, one clock tick after the other from tick zero.

The script of the medium has two parts.  Carrier is asserted over given windows of
time.  Collisions are queued as offsets into attempts: each attempt takes the next
one, and it is asserted for the single tick that lies so far after the first tick of
the attempt.
-/

namespace HalfDuplex

/-- An engine on the test bench, with what was recorded so far.  Of each window of carrier the
first tick is included and the last one excluded. -/
structure Bench (γ : Type) where
  engine : Engine ScriptedSource γ
  receiver : Receiver
  now : Tick := 0
  reporter : Reporter := {}
  offsets : List Tick := []
  pending : Option Tick := none
  carrierWindows : List (Tick × Tick) := []
  wasEnabled : Bool := false
  starts : Array Tick := #[]
  hits : Array Tick := #[]
  statuses : Array (Tick × Indicators) := #[]

namespace Bench

variable {γ : Type}

/-- A bench at tick zero, unless the configuration breaks a rule. -/
def ofConfig (config : Config) (words : γ) :
    Traced (Except ConfigError (Bench γ)) := do
  match ← Engine.ofConfig config ScriptedSource.empty words 0 with
  | .error error => return .error error
  | .ok engine =>
      return .ok {
        engine
        receiver := { minLength := config.minFrameBytes.toNat + Checksum.trailerLength } }

def send (bench : Bench γ) (frame : ScriptedFrame) : Bench γ :=
  { bench with
    engine := { bench.engine with source := bench.engine.source.push frame } }

/-- The bench with one more collision, `offset` ticks into an attempt.  A collision
cannot be seen on the first tick of an attempt, so the least offset is one. -/
def collide (bench : Bench γ) (offset : Tick) : Bench γ :=
  { bench with offsets := bench.offsets ++ [max offset 1] }

def assertCarrier (bench : Bench γ) (first last : Tick) : Bench γ :=
  { bench with carrierWindows := bench.carrierWindows ++ [(first, last)] }

def clearRecords (bench : Bench γ) : Bench γ :=
  { bench with starts := #[], hits := #[] }

def carrierAt (bench : Bench γ) (now : Tick) : Bool :=
  bench.carrierWindows.any fun (first, last) => first ≤ now && now < last

/-- The bench with the start of an attempt noted, if one started on this tick, and the
collision of that attempt scheduled. -/
def noteStart (bench : Bench γ) (enable : Bool) : Except Fault (Bench γ) :=
  if enable && !bench.wasEnabled then
    let starts := bench.starts.push bench.now
    match bench.offsets with
    | [] => .ok { bench with starts, pending := none, wasEnabled := enable }
    | offset :: offsets => do
        let due ← checkedAdd wideLimit bench.now offset
        return { bench with starts, offsets, pending := some due, wasEnabled := enable }
  else
    .ok { bench with wasEnabled := enable }

def noteStatus (bench : Bench γ) (status : Indicators) : Except Fault (Bench γ) := do
  let reporter ← bench.reporter.observe status
  return { bench with
    reporter
    statuses :=
      if status = {} then bench.statuses else bench.statuses.push (bench.now, status) }

def noteHit (bench : Bench γ) (collision : Bool) : Traced (Bench γ) :=
  if collision then do
    .record (.collisionAsserted bench.now)
    return { bench with hits := bench.hits.push bench.now }
  else
    return bench

variable [WordSource γ]

def step (bench : Bench γ) : Traced (Bench γ × Outputs) := do
  let now := bench.now
  let inputs : Inputs :=
    { carrier := bench.carrierAt now, collision := bench.pending = some now }
  let bench ← bench.noteHit inputs.collision
  let (engine, outputs) ← bench.engine.tick now inputs
  let bench ← .lift ({ bench with engine }.noteStart outputs.signals.enable)
  let receiver ← bench.receiver.sample now outputs.signals
  let bench ← .lift ({ bench with receiver }.noteStatus outputs.status)
  let next ← .lift (checkedAdd wideLimit now 1)
  return ({ bench with now := next }, outputs)

def run (bench : Bench γ) (ticks : Nat) : Traced (Bench γ) := do
  let (bench, _) ← Traced.repeatUntil
    (fun bench : Bench γ => do
      let (bench, _) ← bench.step
      return (bench, (none : Option Unit)))
    ticks bench
  return bench

def stepToStart (bench : Bench γ) : Traced (Bench γ × Option Tick) := do
  let now := bench.now
  let (bench, outputs) ← bench.step
  let started := outputs.signals.enable && bench.starts.back? = some now
  return (bench, if started then some now else none)

/-- Runs until the next attempt starts, at most a given number of ticks, and yields the
first tick of that attempt. -/
def runUntilStart (bench : Bench γ) (limit : Nat) :
    Traced (Bench γ × Except WaitError Tick) := do
  let (bench, started) ← Traced.repeatUntil stepToStart limit bench
  match started with
  | some start => return (bench, .ok start)
  | none => return (bench, .error .timeout)

/-- Runs a tick, and yields what the reporter makes of the indicators seen so far once
that is an outcome or a conflict. -/
def stepToOutcome (bench : Bench γ) :
    Traced (Bench γ × Option (Except WaitError Outcome)) := do
  let (bench, _) ← bench.step
  match bench.reporter.outcome with
  | .ok none => return (bench, none)
  | .ok (some outcome) => return (bench, some (.ok outcome))
  | .error error => return (bench, some (.error error))

def runUntilOutcome (bench : Bench γ) (limit : Nat) :
    Traced (Bench γ × Except WaitError Outcome) := do
  let (bench, answer) ←
    Traced.repeatUntil stepToOutcome limit { bench with reporter := .clear }
  match answer with
  | some answer => return (bench, answer)
  | none => return (bench, .error .timeout)

end Bench

end HalfDuplex
