import HalfDuplex.Checksum
import HalfDuplex.Config
import HalfDuplex.Source.Basic
import HalfDuplex.Traced

/-!
# The transmit sequencer

The sequencer drives one attempt onto the line: preamble, octets of the frame,
padding and checksum, one nibble for each clock enable and the low nibble of a byte
first.  It decides what comes next only at the boundary between two bytes, where it
pulls an octet from the source or gives way to a collision.

A collision is noticed on the tick on which it is sampled and takes effect at the
next byte boundary, as a jam.  A preamble that is cut short is owed and added to the
jam.  At the boundary a starved source wins over a pending collision.

The functions below follow that structure: `load` and `abandon` say what a byte
boundary brings, `present` drives a nibble, and `step` is one tick.

The byte in flight, its error mark, the signals held and the trailer are not set back when
an attempt begins.  Until they are overwritten they are those of an earlier attempt.
-/

namespace HalfDuplex

/-- The fixed lengths that an attempt is made of, the delimiter counted as preamble. -/
structure LinePlan where
  nibbleTicks : Tick
  preambleBytes : Nat
  preambleNibbles : Nat
  jamNibbles : Nat
  minFrame : Nat
  deriving DecidableEq, Repr

def LinePlan.ofConfig (config : Config) : Except Fault LinePlan := do
  let preambleNibbles ← config.preambleNibbles
  let jamNibbles ← config.jamNibbles
  return {
    nibbleTicks := config.nibbleTicks
    preambleBytes := config.preambleBytes.toNat
    preambleNibbles
    jamNibbles
    minFrame := config.minFrameBytes.toNat }

/-- The state of an attempt.  A collision that was noticed is pending in `aborting` until it
takes effect, `position` counts the bytes of preamble or checksum that were begun, and
`length` counts octets and padding. -/
structure Sequencer where
  plan : LinePlan
  stage : Stage := .idle
  elapsed : Tick := 0
  nibbles : Nat := 0
  position : Nat := 0
  length : Nat := 0
  aborting : Bool := false
  /-- The byte in flight. -/
  byte : UInt8 := 0
  /-- The nibbles in flight are driven as an error. -/
  error : Bool := false
  highNext : Bool := false
  held : Signals := .quiet
  checksum : Checksum := .start
  /-- The trailer that is sent, once its first byte was due. -/
  trailer : Vector UInt8 Checksum.trailerLength := .replicate _ 0
  deriving DecidableEq, Repr

/-- What one tick of the sequencer shows.  How an attempt ended is shown on the first tick
after it. -/
structure SequencerStep where
  signals : Signals := .quiet
  collided : Bool := false
  ending : Option Ending := none
  deriving DecidableEq, Repr

namespace Sequencer

def ofConfig (config : Config) : Except Fault Sequencer := do
  let plan ← LinePlan.ofConfig config
  return { plan }

def active (sequencer : Sequencer) : Bool :=
  sequencer.stage.active

/-- The sequencer at the beginning of an attempt, whose first nibble is driven on the
next step. -/
def start (sequencer : Sequencer) : Sequencer :=
  { sequencer with
    stage := .preamble
    elapsed := 0
    nibbles := 0
    position := 0
    length := 0
    aborting := false
    highNext := false
    checksum := .start }

/-- Takes up an octet, or a byte of padding, as the next byte to drive. -/
def takeUp (sequencer : Sequencer) (stage : Stage) (octet : Octet) :
    Except Fault Sequencer := do
  let length ← checkedAdd wideLimit sequencer.length 1
  return { sequencer with
    stage
    length
    byte := octet.value
    error := octet.isPoisoned
    checksum := sequencer.checksum.update octet.value }

def takeUpMarker (sequencer : Sequencer) : Sequencer :=
  { sequencer with stage := .underflow, byte := 0, error := true }

/-- A byte boundary in the preamble that is not complete. -/
def loadPreamble (sequencer : Sequencer) : Sequencer :=
  let closing := sequencer.position + 1 = sequencer.plan.preambleBytes
  { sequencer with
    position := sequencer.position + 1
    byte := if closing then frameDelimiter else preambleByte
    error := false }

/-- The sequencer as it turns to the checksum. -/
def beginTrailer (sequencer : Sequencer) : Sequencer :=
  { sequencer with stage := .trailer, position := 0 }

/-- The trailer at a byte boundary in the checksum: that of the frame when the first of its
bytes is due, and the one stored then when another is. -/
def dueTrailer (sequencer : Sequencer) : Vector UInt8 Checksum.trailerLength :=
  if sequencer.position = 0 then sequencer.checksum.trailerBytes else sequencer.trailer

/-- A byte boundary in the checksum. -/
def loadTrailer (sequencer : Sequencer) : Sequencer × Option Ending :=
  let trailer := sequencer.dueTrailer
  match trailer[sequencer.position]? with
  | some byte =>
      ({ sequencer with
          trailer
          position := sequencer.position + 1
          byte
          error := false }, none)
  | none => (sequencer, some .sent)

/-- A byte boundary after the last octet of the frame. -/
def loadPad (sequencer : Sequencer) : Except Fault (Sequencer × Option Ending) :=
  if sequencer.length < sequencer.plan.minFrame then do
    let sequencer ← sequencer.takeUp .pad (.byte 0)
    return (sequencer, none)
  else
    return sequencer.beginTrailer.loadTrailer

/-- The nibbles of preamble that an abort at this byte boundary leaves owed. -/
def preambleOwed (sequencer : Sequencer) : Except Fault Nat :=
  match sequencer.stage with
  | .preamble => checkedSub sequencer.plan.preambleNibbles sequencer.nibbles
  | _ => .ok 0

/-- Begins the jam, which is over at once if it is empty. -/
def beginJam (sequencer : Sequencer) : Traced (Sequencer × Option Ending) := do
  let owed ← .lift sequencer.preambleOwed
  let nibbles ← .lift (checkedAdd countLimit sequencer.plan.jamNibbles owed)
  .record (.jamBegun nibbles)
  return ({ sequencer with stage := .jam nibbles, error := false },
    if nibbles = 0 then some .jammed else none)

/-- The nibble that is due. -/
def dueNibble (sequencer : Sequencer) : UInt8 :=
  match sequencer.stage with
  | .jam _ => jamNibble
  | _ => if sequencer.highNext then sequencer.byte >>> 4 else sequencer.byte &&& 0x0F

def dueSignals (sequencer : Sequencer) : Signals where
  clockEnable := true
  enable := true
  error := sequencer.error
  data := sequencer.dueNibble

/-- The sequencer after the nibble that is due: one nibble less of a jam, or the other
half of the octet in flight. -/
def advance (sequencer : Sequencer) : Except Fault Sequencer :=
  match sequencer.stage with
  | .jam remaining => do
      let remaining ← checkedSub remaining 1
      return { sequencer with stage := .jam remaining }
  | _ => return { sequencer with highNext := !sequencer.highNext }

/-- Shows the held signals and notices a collision sampled on this tick. -/
def sample (sequencer : Sequencer) (collision clockEnable : Bool) :
    Traced (Sequencer × SequencerStep) :=
  let signals := { sequencer.held with clockEnable }
  if collision && !sequencer.aborting && sequencer.stage.abortable then do
    .record (.collisionLatched sequencer.stage sequencer.nibbles)
    return ({ sequencer with aborting := true }, { signals, collided := true })
  else
    return (sequencer, { signals })

def hold (sequencer : Sequencer) (collision : Bool) :
    Traced (Sequencer × SequencerStep) := do
  let elapsed ← .lift (checkedAdd wideLimit sequencer.elapsed 1)
  { sequencer with elapsed }.sample collision false

def present (sequencer : Sequencer) (collision : Bool) :
    Traced (Sequencer × SequencerStep) := do
  let held := sequencer.dueSignals
  let sequencer ← .lift sequencer.advance
  let nibbles ← .lift (checkedAdd countLimit sequencer.nibbles 1)
  let elapsed ← .lift (checkedAdd wideLimit sequencer.elapsed 1)
  { sequencer with held, nibbles, elapsed }.sample collision true

def rest (sequencer : Sequencer) : Sequencer :=
  { sequencer with stage := .idle, held := .quiet }

variable {σ : Type} [ByteSource σ]

def loadData (sequencer : Sequencer) (now : Tick) (source : σ) :
    Traced (Sequencer × σ × Option Ending) := do
  let (source, pull) ← .lift (ByteSource.pull source now)
  match pull with
  | .octet (.byte value) =>
      let sequencer ← .lift (sequencer.takeUp .data (.byte value))
      return (sequencer, source, none)
  | .octet .poisoned =>
      .record (.octetPoisoned sequencer.length now)
      let sequencer ← .lift (sequencer.takeUp .data .poisoned)
      return (sequencer, source, none)
  | .starved =>
      .record (.underflow now sequencer.length)
      return (sequencer.takeUpMarker, source, none)
  | .finished =>
      let (sequencer, ending) ← .lift { sequencer with position := 0 }.loadPad
      return (sequencer, source, ending)

/-- What a byte boundary brings: the next byte to drive, or the end of the attempt. -/
def load (sequencer : Sequencer) (now : Tick) (source : σ) :
    Traced (Sequencer × σ × Option Ending) :=
  match sequencer.stage with
  | .idle => return (sequencer, source, none)
  | .preamble =>
      if sequencer.position < sequencer.plan.preambleBytes then
        return (sequencer.loadPreamble, source, none)
      else
        sequencer.loadData now source
  | .data => sequencer.loadData now source
  | .pad => do
      let (sequencer, ending) ← .lift sequencer.loadPad
      return (sequencer, source, ending)
  | .trailer =>
      let (sequencer, ending) := sequencer.loadTrailer
      return (sequencer, source, ending)
  | .underflow => return (sequencer, source, some .underflow)
  | .jam remaining =>
      return (sequencer, source, if remaining = 0 then some .jammed else none)

/-- What a byte boundary brings when a collision is pending.  Among the octets of the
frame the source is still asked for one, because starvation wins over the collision;
an octet that it hands over is lost. -/
def abandon (sequencer : Sequencer) (now : Tick) (source : σ) :
    Traced (Sequencer × σ × Option Ending) :=
  let sequencer := { sequencer with aborting := false }
  match sequencer.stage with
  | .data => do
      let (source, pull) ← .lift (ByteSource.pull source now)
      if pull = .starved then
        .record (.underflowPending now)
        return (sequencer.takeUpMarker, source, none)
      else
        let (sequencer, ending) ← sequencer.beginJam
        return (sequencer, source, ending)
  | _ => do
      let (sequencer, ending) ← sequencer.beginJam
      return (sequencer, source, ending)

/-- What a byte boundary brings, a pending collision considered. -/
def boundary (sequencer : Sequencer) (now : Tick) (source : σ) :
    Traced (Sequencer × σ × Option Ending) :=
  if sequencer.aborting && sequencer.stage.abortable then
    sequencer.abandon now source
  else
    sequencer.load now source

def stepBoundary (sequencer : Sequencer) (now : Tick) (collision : Bool) (source : σ) :
    Traced (Sequencer × σ × SequencerStep) := do
  let (sequencer, source, ending) ← sequencer.boundary now source
  match ending with
  | some ending =>
      .record (.attemptEnded now ending sequencer.nibbles)
      return (sequencer.rest, source, { ending := some ending })
  | none =>
      let (sequencer, step) ← sequencer.present collision
      return (sequencer, source, step)

/-- One tick with the collision input sampled on it. -/
def step (sequencer : Sequencer) (now : Tick) (collision : Bool) (source : σ) :
    Traced (Sequencer × σ × SequencerStep) :=
  if sequencer.stage = .idle then
    return (sequencer, source, {})
  else do
    let phase ← .lift (checkedMod sequencer.elapsed sequencer.plan.nibbleTicks)
    if phase ≠ 0 then
      let (sequencer, step) ← sequencer.hold collision
      return (sequencer, source, step)
    else if sequencer.highNext then
      let (sequencer, step) ← sequencer.present collision
      return (sequencer, source, step)
    else
      sequencer.stepBoundary now collision source

end Sequencer

end HalfDuplex
