import HalfDuplex.Fault

/-!
# Timing configuration

A configuration gives the lengths of a transmission in byte times and the
number of clock ticks in a byte time.  The derived quantities below are what the
state machines use: spans in ticks, and lengths in nibbles.

A span is a product of two 32-bit fields and always fits its width.  Three
derived quantities may not: the early part of the gap doubles a span, the gap
subtracts the slack, and a length in nibbles doubles a 32-bit field in place.
Those are the ones that can end in a `Fault`.

`Config.firstError` checks the rules in a fixed order and names the first one
that is broken.
-/

namespace HalfDuplex

/-- Timing of a half-duplex station, by default that of ten-megabit Ethernet.  A byte time
splits into two nibbles, the preamble includes its delimiter, a frame is padded to its least
length without the checksum, and the gap is shortened by the slack, in ticks, because inputs
are sampled late. -/
structure Config where
  byteTicks : UInt32 := 8
  preambleBytes : UInt32 := 8
  slotBytes : UInt32 := 64
  ipgBytes : UInt32 := 12
  pipelineSlack : UInt32 := 4
  jamBytes : UInt32 := 4
  minFrameBytes : UInt32 := 60
  backoffSlotBytes : UInt32 := 64
  maxCollisions : UInt8 := 16
  backoffLimit : UInt8 := 10
  deriving DecidableEq, Repr

/-- A rule that a configuration breaks, in the order in which the rules are checked. -/
inductive ConfigError where
  | zeroByteTime
  | oddByteTime
  | noPreamble
  | zeroSlot
  | gapTooShort
  | earlyPhaseTooLong
  | zeroCollisions
  | backoffLimit
  | zeroBackoffSlot
  deriving DecidableEq, Repr

def ConfigError.name : ConfigError → String
  | .zeroByteTime => "ZeroByteTime"
  | .oddByteTime => "OddByteTime"
  | .noPreamble => "NoPreamble"
  | .zeroSlot => "ZeroSlot"
  | .gapTooShort => "GapTooShort"
  | .earlyPhaseTooLong => "EarlyPhaseTooLong"
  | .zeroCollisions => "ZeroCollisions"
  | .backoffLimit => "BackoffLimit"
  | .zeroBackoffSlot => "ZeroBackoffSlot"

namespace Config

/-- The default timing with backoff slots of a single byte time, which keeps the
longest backoff short enough to simulate. -/
def shortBackoff : Config :=
  { backoffSlotBytes := 1 }

variable (config : Config)

def byteTime : Tick :=
  config.byteTicks.toNat

def nibbleTicks : Tick :=
  config.byteTime / 2

def slotTicks : Tick :=
  config.slotBytes.toNat * config.byteTime

def ipgTicks : Tick :=
  config.ipgBytes.toNat * config.byteTime

/-- Ticks in the early part of the gap, its first two thirds. -/
def earlyTicks : Except Fault Tick := do
  let doubled ← checkedMul wideLimit config.ipgTicks 2
  return doubled / 3

/-- Idle ticks that have to pass between two transmissions. -/
def gapTicks : Except Fault Tick :=
  checkedSub config.ipgTicks config.pipelineSlack.toNat

def jamNibbles : Except Fault Nat :=
  checkedMul countLimit config.jamBytes.toNat 2

def preambleNibbles : Except Fault Nat :=
  checkedMul countLimit config.preambleBytes.toNat 2

def backoffSlotTicks : Tick :=
  config.backoffSlotBytes.toNat * config.byteTime

/-- The first rule that the configuration breaks, if it breaks any.  The spans
are only computed once the rules before them hold. -/
def firstError : Except Fault (Option ConfigError) :=
  if config.byteTicks = 0 then
    .ok (some .zeroByteTime)
  else if config.byteTicks % 2 ≠ 0 then
    .ok (some .oddByteTime)
  else if config.preambleBytes = 0 then
    .ok (some .noPreamble)
  else if config.slotBytes = 0 then
    .ok (some .zeroSlot)
  else if config.ipgTicks ≤ config.pipelineSlack.toNat then
    .ok (some .gapTooShort)
  else do
    let early ← config.earlyTicks
    let gap ← config.gapTicks
    if gap ≤ early then
      return some .earlyPhaseTooLong
    else if config.maxCollisions = 0 then
      return some .zeroCollisions
    else if 31 < config.backoffLimit then
      return some .backoffLimit
    else if config.backoffSlotBytes = 0 then
      return some .zeroBackoffSlot
    else
      return none

/-- A configuration is accepted when it can be checked and breaks no rule. -/
def Accepted : Prop :=
  config.firstError = .ok none

instance : Decidable config.Accepted :=
  match found : config.firstError with
  | .ok none => isTrue found
  | .ok (some _) => isFalse (by simp [Accepted, found])
  | .error _ => isFalse (by simp [Accepted, found])

end Config

end HalfDuplex
