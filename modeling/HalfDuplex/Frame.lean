/-!
# Frames

A frame is a bounded list of octets, destination address through payload,
without preamble and checksum.  An octet may have been corrupted before it got
here; such an octet keeps its place in the frame and is driven as an error.

The bound is part of the type, so a frame that exists is never too long.
-/

namespace HalfDuplex

/-- One place of a frame: a data byte, or one that was corrupted before it reached the
station. -/
inductive Octet where
  | byte (value : UInt8)
  | poisoned
  deriving DecidableEq, Repr

namespace Octet

/-- The value driven for an octet, which is zero for a corrupted one. -/
def value : Octet → UInt8
  | .byte value => value
  | .poisoned => 0

def isPoisoned : Octet → Bool
  | .byte _ => false
  | .poisoned => true

def lowNibble (octet : Octet) : UInt8 :=
  octet.value &&& 0x0F

def highNibble (octet : Octet) : UInt8 :=
  octet.value >>> 4

end Octet

def maxFrameLength : Nat := 1514

/-- A frame ready to be queued. -/
structure Frame where
  octets : List Octet := []
  length_le : octets.length ≤ maxFrameLength := by decide
  deriving DecidableEq, Repr

namespace Frame

def empty : Frame := {}

def length (frame : Frame) : Nat :=
  frame.octets.length

/-- The frame made of the given octets, unless they are too many. -/
def ofOctets? (octets : List Octet) : Option Frame :=
  if fits : octets.length ≤ maxFrameLength then some ⟨octets, fits⟩ else none

def ofBytes? (data : List UInt8) : Option Frame :=
  ofOctets? (data.map .byte)

/-- The frame with one more octet at its end, unless it is full. -/
def push? (frame : Frame) (octet : Octet) : Option Frame :=
  ofOctets? (frame.octets ++ [octet])

theorem ofOctets?_eq_some_iff {octets : List Octet} {frame : Frame} :
    ofOctets? octets = some frame ↔ octets = frame.octets := by
  unfold ofOctets?
  split
  · rename_i fits
    constructor
    · intro equality
      cases equality
      rfl
    · intro equality
      cases frame
      cases equality
      rfl
  · rename_i tooLong
    simp only [reduceCtorEq, false_iff]
    intro equality
    exact tooLong (equality ▸ frame.length_le)

theorem ofOctets?_eq_none_iff {octets : List Octet} :
    ofOctets? octets = none ↔ maxFrameLength < octets.length := by
  unfold ofOctets?
  split <;> simp_all

end Frame

end HalfDuplex
