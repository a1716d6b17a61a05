import HalfDuplex.Fault
import HalfDuplex.Frame

/-!
# Byte sources

The sequencer pulls one octet in each byte time from a source that owns the frame
in flight.  A collision rewinds the frame to its first octet; a frame whose
outcome is known is released.

A source may be late.  It then answers `Pull.starved`, and the attempt cannot go
on.  Pulling can also stop with a `Fault`, because a paced source adds to the time
of its last answer.
-/

namespace HalfDuplex

/-- What a source answers when it is asked for the next octet. -/
inductive Pull where
  | octet (octet : Octet)
  | finished
  | starved
  deriving DecidableEq, Repr

/-- A state that supplies frames octet by octet.  A release does away with the frame in front,
and a rewind goes back to its first octet. -/
class ByteSource (σ : Type) where
  ready : σ → Bool
  pull : σ → (now : Tick) → Except Fault (σ × Pull)
  rewind : σ → σ
  release : σ → σ

end HalfDuplex
