import HalfDuplex.Frame

/-!
# The transmit line

What the station drives, tick by tick, and the stages through which one attempt
passes.  A byte takes two nibbles, the low one first; a nibble is held for
several ticks, and the clock enable marks the first of them.

A stage carries only what distinguishes it from the others.  The octet in flight
and the counters of the attempt belong to the sequencer.
-/

namespace HalfDuplex

def preambleByte : UInt8 := 0x55

/-- The start-of-frame delimiter, which closes the preamble. -/
def frameDelimiter : UInt8 := 0xD5

def jamNibble : UInt8 := 0x5

/-- The signals driven during one tick. -/
structure Signals where
  clockEnable : Bool := false
  enable : Bool := false
  error : Bool := false
  data : UInt8 := 0
  deriving DecidableEq, Repr

def Signals.quiet : Signals := {}

/-- Where an attempt stands.  Of the jam `remaining` nibbles are left. -/
inductive Stage where
  | idle
  | preamble
  | data
  | pad
  | trailer
  | underflow
  | jam (remaining : Nat)
  deriving DecidableEq, Repr

namespace Stage

def name : Stage → String
  | .idle => "Idle"
  | .preamble => "Preamble"
  | .data => "Data"
  | .pad => "Pad"
  | .trailer => "Fcs"
  | .underflow => "Underflow"
  | .jam _ => "Jam"

/-- Whether a collision in this stage aborts the attempt. -/
def abortable : Stage → Bool
  | .preamble | .data | .pad | .trailer => true
  | .idle | .underflow | .jam _ => false

def active (stage : Stage) : Bool :=
  stage ≠ .idle

end Stage

/-- How an attempt ended. -/
inductive Ending where
  | sent
  | jammed
  | underflow
  deriving DecidableEq, Repr

def Ending.name : Ending → String
  | .sent => "Sent"
  | .jammed => "Jammed"
  | .underflow => "Underflow"

end HalfDuplex
