import HalfDuplex.Config
import HalfDuplex.Traced

/-!
# Deferral

The deferral timer decides on each tick whether a transmission may start.  The
medium has to be quiet for the gap between two packets, and the gap has two parts.
Carrier in the early part starts the gap again; carrier in the late part is
ignored.  Once the gap is complete the timer stays ready for as long as there is no
carrier.

The station's own transmission counts as carrier, so that the gap after a packet is
timed by the same rule.
-/

namespace HalfDuplex

/-- Where the deferral timer stands: in a gap whose first quiet tick is `since`, on the tick
that completes a gap, or after that. -/
inductive DeferralState where
  | idle
  | early (since : Tick)
  | late (since : Tick)
  | ready
  deriving DecidableEq, Repr

/-- The deferral timer. -/
structure Deferral where
  earlyTicks : Tick
  gapTicks : Tick
  state : DeferralState
  deriving DecidableEq, Repr

namespace Deferral

def ofConfig (config : Config) (now : Tick) : Except Fault Deferral := do
  let earlyTicks ← config.earlyTicks
  let gapTicks ← config.gapTicks
  return { earlyTicks, gapTicks, state := .early now }

/-- The timer at the start of a gap that begins one tick after `now`. -/
def restart (timer : Deferral) (now : Tick) : Except Fault Deferral := do
  let since ← checkedAdd wideLimit now 1
  return { timer with state := .early since }

def tickQuiet (timer : Deferral) (now : Tick) (carrier : Bool) :
    Traced (Deferral × Bool) :=
  if carrier then do
    .record (.carrierSensed now)
    let timer ← .lift (timer.restart now)
    return (timer, false)
  else
    return ({ timer with state := .idle }, true)

def tickLate (timer : Deferral) (since now : Tick) : Traced (Deferral × Bool) := do
  let due ← .lift (checkedAdd wideLimit since timer.gapTicks)
  if due ≤ now then
    .record (.gapCompleted now)
    return ({ timer with state := .ready }, true)
  else
    return ({ timer with state := .late since }, false)

/-- A tick in the early part of the gap, which may turn out to be over. -/
def tickEarly (timer : Deferral) (since now : Tick) (carrier : Bool) :
    Traced (Deferral × Bool) := do
  let due ← .lift (checkedAdd wideLimit since timer.earlyTicks)
  if due ≤ now then
    .record (.lateDeferralEntered now)
    timer.tickLate since now
  else if carrier then
    let timer ← .lift (timer.restart now)
    return (timer, false)
  else
    return (timer, false)

/-- One tick with the carrier sampled on it: the timer after the tick, and whether a
transmission may start on it. -/
def tick (timer : Deferral) (now : Tick) (carrier : Bool) : Traced (Deferral × Bool) :=
  match timer.state with
  | .idle | .ready => timer.tickQuiet now carrier
  | .early since => timer.tickEarly since now carrier
  | .late since => timer.tickLate since now

end Deferral

end HalfDuplex
