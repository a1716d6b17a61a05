import HalfDuplex.Source.Basic

/-!
# The frame queue

A queue holds up to `capacity` whole frames, first in, first out.  Everything
that a frame needs is in memory, so a queue with a frame in it never starves;
only pulling from an empty queue does.

The bound on the number of frames is part of the type.
-/

namespace HalfDuplex

/-- Up to `capacity` frames, of which the first is the one in flight. -/
structure FrameQueue (capacity : Nat) where
  frames : List Frame
  cursor : Nat
  length_le : frames.length ≤ capacity

namespace FrameQueue

variable {capacity : Nat}

def empty (capacity : Nat) : FrameQueue capacity :=
  ⟨[], 0, Nat.zero_le capacity⟩

def length (queue : FrameQueue capacity) : Nat :=
  queue.frames.length

/-- The queue with one more frame at its end, unless it is full. -/
def enqueue? (queue : FrameQueue capacity) (frame : Frame) :
    Option (FrameQueue capacity) :=
  if room : (queue.frames ++ [frame]).length ≤ capacity then
    some { queue with frames := queue.frames ++ [frame], length_le := room }
  else
    none

/-- Adds a frame at the end of the queue; a frame that there is no room for is handed
back. -/
def enqueue (queue : FrameQueue capacity) (frame : Frame) :
    FrameQueue capacity × Option Frame :=
  match queue.enqueue? frame with
  | some next => (next, none)
  | none => (queue, some frame)

/-- The next octet of the frame in front; the time does not matter. -/
def pull (queue : FrameQueue capacity) : FrameQueue capacity × Pull :=
  match queue.frames with
  | [] => (queue, .starved)
  | frame :: _ =>
      match frame.octets[queue.cursor]? with
      | some octet => ({ queue with cursor := queue.cursor + 1 }, .octet octet)
      | none => (queue, .finished)

def rewind (queue : FrameQueue capacity) : FrameQueue capacity :=
  { queue with cursor := 0 }

def release (queue : FrameQueue capacity) : FrameQueue capacity where
  frames := queue.frames.tail
  cursor := 0
  length_le := by
    have bound := queue.length_le
    simp only [List.length_tail]
    omega

instance : ByteSource (FrameQueue capacity) where
  ready queue := !queue.frames.isEmpty
  pull queue _ := .ok queue.pull
  rewind := rewind
  release := release

theorem enqueue?_eq_some_iff
    {queue next : FrameQueue capacity} {frame : Frame} :
    queue.enqueue? frame = some next ↔
      next.frames = queue.frames ++ [frame] ∧ next.cursor = queue.cursor := by
  unfold enqueue?
  split
  · rename_i room
    cases next
    simp only [Option.some.injEq, mk.injEq]
    constructor
    · rintro ⟨framesEqual, cursorEqual⟩
      exact ⟨framesEqual.symm, cursorEqual.symm⟩
    · rintro ⟨framesEqual, cursorEqual⟩
      exact ⟨framesEqual.symm, cursorEqual.symm⟩
  · rename_i full
    simp only [reduceCtorEq, false_iff, not_and]
    intro framesEqual
    exact absurd (framesEqual ▸ next.length_le) full

/-- A frame is refused exactly when the queue is full. -/
theorem enqueue?_eq_none_iff {queue : FrameQueue capacity} {frame : Frame} :
    queue.enqueue? frame = none ↔ queue.length = capacity := by
  have bound := queue.length_le
  unfold enqueue? length
  simp only [List.length_append, List.length_singleton, dite_eq_right_iff,
    reduceCtorEq, imp_false]
  omega

/-- A full queue hands a frame back and stays as it is. -/
theorem enqueue_of_full {queue : FrameQueue capacity} (frame : Frame)
    (full : queue.length = capacity) :
    queue.enqueue frame = (queue, some frame) := by
  unfold enqueue
  rw [enqueue?_eq_none_iff.mpr full]

/-- A queue with room accepts a frame. -/
theorem enqueue_of_room {queue : FrameQueue capacity} (frame : Frame)
    (room : queue.length ≠ capacity) :
    ∃ next, queue.enqueue frame = (next, none) ∧
      next.frames = queue.frames ++ [frame] ∧ next.cursor = queue.cursor := by
  cases accepted : queue.enqueue? frame with
  | none => exact absurd (enqueue?_eq_none_iff.mp accepted) room
  | some next =>
      refine ⟨next, ?_, enqueue?_eq_some_iff.mp accepted⟩
      unfold enqueue
      rw [accepted]

end FrameQueue

end HalfDuplex
