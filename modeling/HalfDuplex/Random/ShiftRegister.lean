import HalfDuplex.Random.Words

/-!
# The shift register behind backoff

A 32-bit Galois register: each step shifts right by one place, and the bit that
falls out, when it is set, flips the tapped places.  A word is made of thirty-two
successive output bits, the first of them in the highest place.

The register with all bits clear would never leave that state, so a zero seed is
replaced by a fixed one.
-/

namespace HalfDuplex

/-- A 32-bit Galois feedback shift register. -/
structure ShiftRegister where
  state : UInt32
  deriving DecidableEq, Repr

namespace ShiftRegister

/-- The places flipped by a set output bit, those of `x^32 + x^22 + x^2 + x + 1`. -/
def taps : UInt32 := 0x80200003

def defaultSeed : UInt32 := 0xACE1ACE1

def ofSeed (seed : UInt32) : ShiftRegister :=
  ⟨if seed = 0 then defaultSeed else seed⟩

/-- The register started from a seed of four bytes, the lowest byte first. -/
def ofSeedBytes (first second third fourth : UInt8) : ShiftRegister :=
  ofSeed (first.toUInt32 ||| second.toUInt32 <<< 8 |||
    third.toUInt32 <<< 16 ||| fourth.toUInt32 <<< 24)

def shift (state : UInt32) : UInt32 :=
  if state &&& 1 = 1 then (state >>> 1) ^^^ taps else state >>> 1

/-- One shift: the bit that falls out, and the register after it. -/
def step (register : ShiftRegister) : Bool × ShiftRegister :=
  (register.state &&& 1 = 1, ⟨shift register.state⟩)

def bits : (count : Nat) → (register : ShiftRegister) → List Bool × ShiftRegister
  | 0, register => ([], register)
  | count + 1, register =>
      let (bit, register) := register.step
      let (rest, register) := bits count register
      (bit :: rest, register)

/-- The word whose highest place is the first of the given bits. -/
def wordOfBits (places : List Bool) : UInt32 :=
  places.foldl (fun word bit => word <<< 1 ||| bit.toUInt32) 0

/-- The next word, made of thirty-two output bits. -/
def nextWord (register : ShiftRegister) : UInt32 × ShiftRegister :=
  let (places, register) := register.bits 32
  (wordOfBits places, register)

instance : WordSource ShiftRegister where
  next := nextWord

instance : Inhabited ShiftRegister where
  default := ofSeed defaultSeed

end ShiftRegister

end HalfDuplex
