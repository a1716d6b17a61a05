import HalfDuplex.Reception
import HalfDuplex.Status

/-!
# Events

The noteworthy happenings that the state machines record while they run.  An event
is a value of its own: how it is worded and how urgent it is are two functions on
it, and nothing else in the library depends on the wording.
-/

namespace HalfDuplex

inductive Level where
  | trace
  | debug
  | info
  | warn
  deriving DecidableEq, Repr

def Level.name : Level → String
  | .trace => "TRACE"
  | .debug => "DEBUG"
  | .info => "INFO"
  | .warn => "WARN"

/-- Something that happened in the station, at the receiver or on the test bench. -/
inductive Event where
  | engineSetUp (now byteTime gap : Tick)
  | carrierSensed (now : Tick)
  | lateDeferralEntered (now : Tick)
  | gapCompleted (now : Tick)
  | collisionLate (elapsed : Tick)
  | collisionLimit (count limit : Nat)
  | collisionBackoff (count : Nat) (elapsed : Tick) (slots : Nat) (delay : Tick)
  | collisionLatched (stage : Stage) (nibbles : Nat)
  | jamBegun (nibbles : Nat)
  | underflowPending (now : Tick)
  | underflow (now : Tick) (length : Nat)
  | octetPoisoned (length : Nat) (now : Tick)
  | attemptEnded (now : Tick) (ending : Ending) (nibbles : Nat)
  | attemptStarted (number : Nat) (now : Tick)
  | retryScheduled (now : Tick) (slots : Nat) (due : Tick)
  | verdictMissing (now : Tick)
  | frameCompleted (now : Tick) (outcome : Outcome) (collisions : Nat)
  | burstReceived (nibbles : Nat) (start finish : Tick)
      (length : Except ReceiveError Nat)
  | collisionAsserted (now : Tick)

namespace Event

def level : Event → Level
  | .engineSetUp .. => .debug
  | .carrierSensed .. => .trace
  | .lateDeferralEntered .. => .trace
  | .gapCompleted .. => .trace
  | .collisionLate .. => .debug
  | .collisionLimit .. => .debug
  | .collisionBackoff .. => .debug
  | .collisionLatched .. => .trace
  | .jamBegun .. => .trace
  | .underflowPending .. => .warn
  | .underflow .. => .warn
  | .octetPoisoned .. => .debug
  | .attemptEnded .. => .trace
  | .attemptStarted .. => .debug
  | .retryScheduled .. => .trace
  | .verdictMissing .. => .warn
  | .frameCompleted .. => .info
  | .burstReceived .. => .debug
  | .collisionAsserted .. => .trace

def receptionText : Except ReceiveError Nat → String
  | .ok length => s!"Ok({length})"
  | .error error =>
      let name := error.name
      s!"Err({name})"

def message : Event → String
  | .engineSetUp now byteTime gap =>
      s!"Setup MAC at {now} ({byteTime} ticks per byte, gap {gap} ticks)"
  | .carrierSensed now => s!"Carrier at {now}, deferring"
  | .lateDeferralEntered now => s!"Entering late deferral at {now}"
  | .gapCompleted now => s!"Gap complete at {now}"
  | .collisionLate elapsed => s!"Late collision {elapsed} ticks into attempt"
  | .collisionLimit count limit => s!"Collision {count} of {limit}, giving up"
  | .collisionBackoff count elapsed slots delay =>
      s!"Collision {count} at {elapsed} ticks into attempt, " ++
        s!"backoff {slots} slots ({delay} ticks)"
  | .collisionLatched stage nibbles =>
      let name := stage.name
      s!"Collision latched in {name} after {nibbles} nibbles"
  | .jamBegun nibbles => s!"Jamming for {nibbles} nibbles"
  | .underflowPending now => s!"Source underflow at {now} with pending collision"
  | .underflow now length => s!"Source underflow at {now} after {length} bytes"
  | .octetPoisoned length now => s!"Forwarding poisoned byte {length} at {now}"
  | .attemptEnded now ending nibbles =>
      let name := ending.name
      s!"Attempt done at {now} ({name}, {nibbles} nibbles)"
  | .attemptStarted number now => s!"Starting attempt {number} at {now}"
  | .retryScheduled now slots due =>
      s!"Jam complete at {now}, retry after {slots} slots at {due}"
  | .verdictMissing now =>
      s!"Jam complete at {now} with no collision verdict, retrying"
  | .frameCompleted now outcome collisions =>
      let name := outcome.name
      s!"Frame complete at {now}: {name} ({collisions} collisions)"
  | .burstReceived nibbles start finish length =>
      let text := receptionText length
      s!"Received {nibbles} nibbles ({start}..{finish}): {text}"
  | .collisionAsserted now => s!"Asserting collision at {now}"

end Event

end HalfDuplex
