import HalfDuplex.Source.Basic

/-!
# Scripted sources

A scripted frame says what its source does with each octet: supply it, supply it
corrupted, or stall for good.  It may also be paced, with a least number of ticks
between two octets.  A replay of the frame stalls in the same places.

Three rules share one pull, and their order is part of the behaviour: the end of
the frame comes first, the pace second and a stall last.  The first octet of an
attempt is never paced.
-/

namespace HalfDuplex

/-- What a scripted source does in one place of a frame: it supplies an octet, or nothing from
here on. -/
inductive ScriptEntry where
  | octet (octet : Octet)
  | stall
  deriving DecidableEq, Repr

/-- A frame with the least number of ticks from one octet to the next. -/
structure ScriptedFrame where
  entries : List ScriptEntry
  cadence : Tick := 0
  deriving DecidableEq, Repr

namespace ScriptedFrame

def ofBytes (data : List UInt8) : ScriptedFrame :=
  { entries := data.map fun value => .octet (.byte value) }

/-- A frame of clean data with a stall before the octet at `index`, or after the
last octet. -/
def stallingAt (data : List UInt8) (index : Nat) : Except Fault ScriptedFrame :=
  let frame := ofBytes data
  if index ≤ frame.entries.length then
    .ok { frame with entries := frame.entries.take index ++ .stall :: frame.entries.drop index }
  else
    .error (.insertionPastEnd index frame.entries.length)

def paced (frame : ScriptedFrame) (ticks : Tick) : ScriptedFrame :=
  { frame with cadence := ticks }

end ScriptedFrame

/-- Any number of scripted frames, of which the first is the one in flight. -/
structure ScriptedSource where
  frames : List ScriptedFrame := []
  cursor : Nat := 0
  last : Option Tick := none
  deriving DecidableEq, Repr

namespace ScriptedSource

def empty : ScriptedSource := {}

def push (source : ScriptedSource) (frame : ScriptedFrame) : ScriptedSource :=
  { source with frames := source.frames ++ [frame] }

def length (source : ScriptedSource) : Nat :=
  source.frames.length

/-- Whether the pace of the frame in front holds the next octet back at `now`. -/
def heldBack (source : ScriptedSource) (cadence now : Tick) : Except Fault Bool :=
  match source.last with
  | none => .ok false
  | some last => do
      let due ← checkedAdd wideLimit last cadence
      return now < due

def pull (source : ScriptedSource) (now : Tick) :
    Except Fault (ScriptedSource × Pull) :=
  match source.frames with
  | [] => .ok (source, .starved)
  | frame :: _ =>
      match frame.entries[source.cursor]? with
      | none => .ok (source, .finished)
      | some entry => do
          if ← source.heldBack frame.cadence now then
            return (source, .starved)
          else
            match entry with
            | .octet octet =>
                return ({ source with cursor := source.cursor + 1, last := some now }, .octet octet)
            | .stall => return (source, .starved)

def rewind (source : ScriptedSource) : ScriptedSource :=
  { source with cursor := 0, last := none }

def release (source : ScriptedSource) : ScriptedSource :=
  { frames := source.frames.tail }

instance : ByteSource ScriptedSource where
  ready source := !source.frames.isEmpty
  pull := pull
  rewind := rewind
  release := release

end ScriptedSource

end HalfDuplex
