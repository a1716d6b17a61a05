import HalfDuplex.Fault

/-!
# Outcomes and status indicators

A frame ends in one of four outcomes, and the engine shows it by raising one of
four indicators for a single tick.  A `Reporter` latches the indicators sampled on
each tick: it keeps their union and the number of times one was raised.  One raised
indicator is an outcome; two are a conflict, even if they were the same.
-/

namespace HalfDuplex

/-- How the transmission of a frame ended, all retries included. -/
inductive Outcome where
  | ok
  | gaveUp
  | lateCollision
  | underflow
  deriving DecidableEq, Repr

def Outcome.name : Outcome → String
  | .ok => "Ok"
  | .gaveUp => "GaveUp"
  | .lateCollision => "LateCollision"
  | .underflow => "Underflow"

/-- The status indicators raised on a tick. -/
structure Indicators where
  ok : Bool := false
  gaveUp : Bool := false
  lateCollision : Bool := false
  underflow : Bool := false
  deriving DecidableEq, Repr

namespace Indicators

def none : Indicators := {}

def union (left right : Indicators) : Indicators where
  ok := left.ok || right.ok
  gaveUp := left.gaveUp || right.gaveUp
  lateCollision := left.lateCollision || right.lateCollision
  underflow := left.underflow || right.underflow

def count (indicators : Indicators) : Nat :=
  indicators.ok.toNat + indicators.gaveUp.toNat +
    indicators.lateCollision.toNat + indicators.underflow.toNat

/-- The indicators as the bits of a number, in the order of the fields. -/
def bits (indicators : Indicators) : Nat :=
  indicators.ok.toNat + 2 * indicators.gaveUp.toNat +
    4 * indicators.lateCollision.toNat + 8 * indicators.underflow.toNat

/-- The indicators given by the low four bits of a number. -/
def ofBits (bits : Nat) : Indicators where
  ok := bits.testBit 0
  gaveUp := bits.testBit 1
  lateCollision := bits.testBit 2
  underflow := bits.testBit 3

def names (indicators : Indicators) : List String :=
  (if indicators.ok then ["OK"] else []) ++
    (if indicators.gaveUp then ["GAVE_UP"] else []) ++
    (if indicators.lateCollision then ["LATE_COLLISION"] else []) ++
    (if indicators.underflow then ["UNDERFLOW"] else [])

def display (indicators : Indicators) : String :=
  match indicators.names with
  | [] => "(empty)"
  | names => String.intercalate " | " names

end Indicators

namespace Outcome

def indicators : Outcome → Indicators
  | .ok => { ok := true }
  | .gaveUp => { gaveUp := true }
  | .lateCollision => { lateCollision := true }
  | .underflow => { underflow := true }

/-- The outcome that a set of indicators stands for, if exactly one is raised. -/
def ofIndicators? (raised : Indicators) : Option Outcome :=
  [ok, gaveUp, lateCollision, underflow].find? fun outcome =>
    outcome.indicators = raised

@[simp]
theorem ofIndicators?_indicators (outcome : Outcome) :
    ofIndicators? outcome.indicators = some outcome := by
  cases outcome <;> rfl

end Outcome

/-- Why waiting for an outcome ended without one. -/
inductive WaitError where
  | timeout
  | conflictingStatus (seen : Indicators)
  deriving DecidableEq, Repr

def WaitError.message : WaitError → String
  | .timeout => ""
  | .conflictingStatus seen => seen.display

/-- The indicators seen since the last frame. -/
structure Reporter where
  seen : Indicators := {}
  pulses : Nat := 0
  deriving DecidableEq, Repr

namespace Reporter

def clear : Reporter := {}

/-- The reporter after the indicators of one more tick. -/
def observe (reporter : Reporter) (raised : Indicators) : Except Fault Reporter := do
  let pulses ← checkedAdd countLimit reporter.pulses raised.count
  return { seen := reporter.seen.union raised, pulses }

/-- The outcome of the frame, once an indicator was raised. -/
def outcome (reporter : Reporter) : Except WaitError (Option Outcome) :=
  match reporter.pulses with
  | 0 => .ok none
  | 1 => .ok (Outcome.ofIndicators? reporter.seen)
  | _ => .error (.conflictingStatus reporter.seen)

end Reporter

end HalfDuplex
