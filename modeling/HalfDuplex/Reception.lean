import HalfDuplex.Checksum
import HalfDuplex.Line

/-!
# Reception of a burst

What a receiver makes of the nibbles of one burst.  Nibbles pair up to bytes, the
frame starts after the first clean delimiter, and the checksum is verified over
contents and trailer together.  A nibble received with the error signal has no
value, and a byte has none if one of its nibbles lacks it.

The checks are made in a fixed order, and a burst is refused for the first one that
it fails.
-/

namespace HalfDuplex

/-- Why a burst was refused. -/
inductive ReceiveError where
  | alignment
  | noDelimiter
  | frameCheck
  | padding
  deriving DecidableEq, Repr

def ReceiveError.name : ReceiveError → String
  | .alignment => "Alignment"
  | .noDelimiter => "NoSfd"
  | .frameCheck => "FrameCheck"
  | .padding => "Padding"

/-- The contents of a frame that carries its checksum, which is cut off.  The least
length counts the checksum. -/
def openFrame (frame : List UInt8) (minLength : Nat) : Except ReceiveError (List UInt8) :=
  if frame.length < Checksum.trailerLength ∨
      Checksum.ofBytes frame ≠ Checksum.intactResidual then
    .error .frameCheck
  else if frame.length < minLength then
    .error .padding
  else
    .ok (frame.take (frame.length - Checksum.trailerLength))

namespace Reception

/-- The byte of two nibbles, of which the low one was received first. -/
def joinNibbles : Option UInt8 → Option UInt8 → Option UInt8
  | some low, some high => some (low ||| high <<< 4)
  | _, _ => none

/-- The bytes of successive pairs of nibbles; a nibble without partner is dropped. -/
def pairNibbles : List (Option UInt8) → List (Option UInt8)
  | low :: high :: rest => joinNibbles low high :: pairNibbles rest
  | _ => []

def afterDelimiter : List (Option UInt8) → Option (List (Option UInt8))
  | [] => none
  | byte :: rest => if byte = some frameDelimiter then some rest else afterDelimiter rest

def cleanBytes : List (Option UInt8) → Option (List UInt8)
  | [] => some []
  | none :: _ => none
  | some byte :: rest => (cleanBytes rest).map (byte :: ·)

/-- The contents of a burst given by its nibbles, in the order received. -/
def decode (nibbles : List (Option UInt8)) (minLength : Nat) :
    Except ReceiveError (List UInt8) :=
  if nibbles.length % 2 ≠ 0 then
    .error .alignment
  else
    match afterDelimiter (pairNibbles nibbles) with
    | none => .error .noDelimiter
    | some rest =>
        match cleanBytes rest with
        | none => .error .frameCheck
        | some frame => openFrame frame minLength

end Reception

end HalfDuplex
