import HalfDuplex.Reception
import HalfDuplex.Traced

/-!
# The modelled receiver

The receiver watches the transmit line tick by tick.  A burst begins on the first
tick with transmit enable and ends on the first tick without it; in between a nibble
is taken on each clock enable.  Each burst is decoded when it ends.
-/

namespace HalfDuplex

/-- A burst as seen by the receiver, which ends with the first tick without transmit enable. -/
structure Received where
  start : Tick
  finish : Tick
  result : Except ReceiveError (List UInt8)

/-- The state of the receiver.  The least length of a frame counts the checksum. -/
structure Receiver where
  minLength : Nat
  active : Option Tick := none
  nibbles : Array (Option UInt8) := #[]
  bursts : Array Received := #[]

namespace Receiver

def nibble (signals : Signals) : Option UInt8 :=
  if signals.error then none else some (signals.data &&& 0x0F)

/-- The receiver with the nibble of a tick, if there is a new one. -/
def collect (receiver : Receiver) (signals : Signals) : Receiver :=
  if signals.clockEnable then
    { receiver with nibbles := receiver.nibbles.push (nibble signals) }
  else
    receiver

/-- The receiver after a burst from `start` to `now`. -/
def finish (receiver : Receiver) (start now : Tick) : Traced Receiver := do
  let result := Reception.decode receiver.nibbles.toList receiver.minLength
  .record (.burstReceived receiver.nibbles.size start now (result.map List.length))
  return { receiver with
    active := none
    bursts := receiver.bursts.push { start, finish := now, result } }

def sample (receiver : Receiver) (now : Tick) (signals : Signals) : Traced Receiver :=
  match receiver.active, signals.enable with
  | none, true => return { receiver with active := some now, nibbles := #[] }.collect signals
  | some start, false => receiver.finish start now
  | none, false => return receiver
  | some _, true => return receiver.collect signals

end Receiver

end HalfDuplex
