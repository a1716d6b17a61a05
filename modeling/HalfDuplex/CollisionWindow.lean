import HalfDuplex.Config
import HalfDuplex.Random.Words
import HalfDuplex.Traced

/-!
# Collisions and backoff

A collision in the first slot time of an attempt is ordinary: the frame is tried
again after a random backoff, until it has met too many of them.  A later collision
is fatal.

The backoff is drawn uniformly below a power of two whose exponent grows with the
number of collisions up to a limit.  One word is drawn for each retry and for
nothing else.
-/

namespace HalfDuplex

/-- How a collision lies to the collision window: inside it, or at its end or later. -/
inductive CollisionKind where
  | ordinary
  | late
  deriving DecidableEq, Repr

def CollisionKind.name : CollisionKind → String
  | .ordinary => "Ordinary"
  | .late => "Late"

/-- What follows from a collision. -/
inductive Verdict where
  /-- The frame is tried again, `delay` ticks or `slots` backoff slots after the jam. -/
  | retry (slots : Nat) (delay : Tick)
  | giveUp
  | late
  deriving DecidableEq, Repr

/-- An attempt to send a frame. -/
structure Attempt where
  number : Nat
  start : Tick
  deriving DecidableEq, Repr

/-- The bounds that collisions are judged by. -/
structure CollisionLimits where
  slotTicks : Tick
  byteTime : Tick
  backoffSlotTicks : Tick
  maxCollisions : Nat
  backoffLimit : Nat
  deriving DecidableEq, Repr

def CollisionLimits.ofConfig (config : Config) : CollisionLimits where
  slotTicks := config.slotTicks
  byteTime := config.byteTime
  backoffSlotTicks := config.backoffSlotTicks
  maxCollisions := config.maxCollisions.toNat
  backoffLimit := config.backoffLimit.toNat

/-- The collisions of the frame in flight, its current attempt, and the source that
backoffs are drawn from. -/
structure CollisionWindow (γ : Type) where
  limits : CollisionLimits
  collisions : Nat := 0
  attempt : Option Attempt := none
  words : γ
  deriving DecidableEq, Repr

namespace CollisionWindow

def collisionLimit : Nat := 0x100

variable {γ : Type}

def ofConfig (config : Config) (words : γ) : CollisionWindow γ where
  limits := CollisionLimits.ofConfig config
  words := words

def reset (window : CollisionWindow γ) : CollisionWindow γ :=
  { window with collisions := 0, attempt := none }

def nextAttempt (window : CollisionWindow γ) (now : Tick) : Attempt where
  number := window.collisions
  start := now

def begin (window : CollisionWindow γ) (now : Tick) : CollisionWindow γ :=
  { window with attempt := some (window.nextAttempt now) }

/-- Ticks since the current attempt began, and none without an attempt. -/
def elapsed (window : CollisionWindow γ) (now : Tick) : Tick :=
  match window.attempt with
  | some attempt => now - attempt.start
  | none => 0

def elapsedBytes (window : CollisionWindow γ) (now : Tick) : Except Fault Tick :=
  checkedDiv (window.elapsed now) window.limits.byteTime

def classify (window : CollisionWindow γ) (now : Tick) : CollisionKind :=
  if window.elapsed now < window.limits.slotTicks then .ordinary else .late

variable [WordSource γ]

/-- Draws the number of backoff slots for the collisions met so far. -/
def backoffSlots (window : CollisionWindow γ) :
    Except Fault (CollisionWindow γ × Nat) := do
  let range ← checkedPowerOfTwo (min window.collisions window.limits.backoffLimit)
  let (word, words) := WordSource.next window.words
  return ({ window with words }, word.toNat % range)

/-- Judges a collision at `now`, which ends the current attempt. -/
def collide (window : CollisionWindow γ) (now : Tick) :
    Traced (CollisionWindow γ × Verdict) :=
  let elapsed := window.elapsed now
  match window.classify now with
  | .late => do
      .record (.collisionLate elapsed)
      return ({ window with attempt := none }, .late)
  | .ordinary => do
      let window : CollisionWindow γ :=
        { window with
          attempt := none
          collisions := saturatingSucc collisionLimit window.collisions }
      if window.limits.maxCollisions ≤ window.collisions then
        .record (.collisionLimit window.collisions window.limits.maxCollisions)
        return (window, .giveUp)
      else
        let (window, slots) ← .lift window.backoffSlots
        let delay ← .lift (checkedMul wideLimit slots window.limits.backoffSlotTicks)
        .record (.collisionBackoff window.collisions elapsed slots delay)
        return (window, .retry slots delay)

end CollisionWindow

end HalfDuplex
