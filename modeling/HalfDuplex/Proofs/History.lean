import HalfDuplex.CollisionWindow
import HalfDuplex.Proofs.Marks

/-!
# The history of a frame

A frame is tried once or several times and then has an outcome.  An `AttemptHistory`
holds what the marks tell of an attempt, a `FrameHistory` what they tell of a frame, and
an `OpenHistory` what they tell of a frame that is not completed, or of none.

The outcome of a regular history hangs on its last attempt alone, and every attempt
before it was jammed after an ordinary collision.  That the engine leaves only regular
histories is shown elsewhere; this module is about the marks alone.
-/

namespace HalfDuplex

/-- An attempt as its marks tell it: its number, when it started, when a collision was noticed
in it, and how it ended. -/
structure AttemptHistory where
  number : Nat
  start : Tick
  collision : Option Tick
  ending : Ending
  deriving DecidableEq, Repr

namespace AttemptHistory

/-- The marks of an attempt up to its end. -/
def opening (number : Nat) (start : Tick) (collision : Option Tick) : List Mark :=
  .started number start :: (collision.map .noticed).toList

def marks (attempt : AttemptHistory) : List Mark :=
  opening attempt.number attempt.start attempt.collision ++ [.ended attempt.ending]

/-- The attempt was jammed after a collision inside the collision window. -/
def Retried (config : Config) (attempt : AttemptHistory) : Prop :=
  attempt.ending = .jammed ∧
    ∃ now, attempt.collision = some now ∧ now - attempt.start < config.slotTicks

/-- The outcome that the last attempt on a frame stands for. -/
inductive Decides (config : Config) (attempt : AttemptHistory) : Outcome → Prop
  | ok
      (sent : attempt.ending = .sent)
      (unhindered : attempt.collision = none) :
      Decides config attempt .ok
  | underflow
      (starved : attempt.ending = .underflow) :
      Decides config attempt .underflow
  | lateCollision {now : Tick}
      (jammed : attempt.ending = .jammed)
      (noticed : attempt.collision = some now)
      (late : config.slotTicks ≤ now - attempt.start) :
      Decides config attempt .lateCollision
  | gaveUp {now : Tick}
      (jammed : attempt.ending = .jammed)
      (noticed : attempt.collision = some now)
      (ordinary : now - attempt.start < config.slotTicks)
      (limit : attempt.number + 1 = config.maxCollisions.toNat) :
      Decides config attempt .gaveUp

end AttemptHistory

/-- A completed frame as its marks tell it. -/
structure FrameHistory where
  retried : List AttemptHistory
  last : AttemptHistory
  outcome : Outcome
  deriving DecidableEq, Repr

namespace FrameHistory

/-- The attempts on a frame, the earliest one first. -/
def attempts (history : FrameHistory) : List AttemptHistory :=
  history.retried ++ [history.last]

def marks (history : FrameHistory) : List Mark :=
  history.attempts.flatMap AttemptHistory.marks ++ [.completed history.outcome]

/-- The attempts are numbered from zero, no more of them were made than collisions are
allowed, only ordinary collisions led to another attempt, and the last attempt decided
the outcome. -/
structure Regular (config : Config) (history : FrameHistory) : Prop where
  numbers : history.attempts.map AttemptHistory.number = List.range history.attempts.length
  few : history.attempts.length ≤ config.maxCollisions.toNat
  retries : ∀ attempt ∈ history.retried, attempt.Retried config
  decided : history.last.Decides config history.outcome

end FrameHistory

/-- A frame that is not completed, or none, as the marks tell it.  Of the attempt in progress
the start is known, and when a collision was noticed in it. -/
structure OpenHistory where
  retried : List AttemptHistory := []
  running : Option (Tick × Option Tick) := none
  deriving DecidableEq, Repr

namespace OpenHistory

def marks (history : OpenHistory) : List Mark :=
  history.retried.flatMap AttemptHistory.marks ++
    match history.running with
    | some (start, collision) =>
        AttemptHistory.opening history.retried.length start collision
    | none => []

/-- The attempts are numbered from zero, fewer of them have ended than collisions are
allowed, and only ordinary collisions led to another attempt. -/
structure Regular (config : Config) (history : OpenHistory) : Prop where
  numbers : history.retried.map AttemptHistory.number = List.range history.retried.length
  few : history.retried.length < config.maxCollisions.toNat
  retries : ∀ attempt ∈ history.retried, attempt.Retried config

/-- The attempt in progress, unless a collision was noticed in it. -/
def attempt (history : OpenHistory) : Option Attempt :=
  match history.running with
  | some (start, none) => some { number := history.retried.length, start }
  | _ => none

/-- The history with the attempt in progress ended and to be made again. -/
def retry (history : OpenHistory) (attempt : AttemptHistory) : OpenHistory :=
  { retried := history.retried ++ [attempt] }

/-- The history that the end of the attempt in progress completes. -/
def close (history : OpenHistory) (attempt : AttemptHistory) (outcome : Outcome) :
    FrameHistory :=
  { retried := history.retried, last := attempt, outcome }

variable {config : Config} {history : OpenHistory} {attempt : AttemptHistory}

theorem attempt_of_clear {history : OpenHistory} {start : Tick}
    (running : history.running = some (start, none)) :
    history.attempt = some { number := history.retried.length, start } := by
  rw [attempt, running]

theorem attempt_of_struck {history : OpenHistory} {start noticed : Tick}
    (running : history.running = some (start, some noticed)) :
    history.attempt = none := by
  rw [attempt, running]

theorem marks_of_running {start : Tick} {collision : Option Tick}
    (running : history.running = some (start, collision)) :
    history.marks =
      history.retried.flatMap AttemptHistory.marks ++
        AttemptHistory.opening history.retried.length start collision := by
  rw [marks, running]

theorem marks_of_waiting (waiting : history.running = none) :
    history.marks = history.retried.flatMap AttemptHistory.marks := by
  rw [marks, waiting, List.append_nil]

theorem numbers_append
    (regular : history.Regular config)
    (number : attempt.number = history.retried.length) :
    (history.retried ++ [attempt]).map AttemptHistory.number =
      List.range (history.retried ++ [attempt]).length := by
  rw [List.map_append, regular.numbers, List.length_append, List.length_singleton,
    List.range_succ, List.map_singleton, number]

theorem Regular.retry
    (regular : history.Regular config)
    (number : attempt.number = history.retried.length)
    (room : history.retried.length + 1 < config.maxCollisions.toNat)
    (retried : attempt.Retried config) :
    (history.retry attempt).Regular config := by
  refine ⟨numbers_append regular number, ?_, ?_⟩
  · simpa [OpenHistory.retry] using room
  · intro tested member
    rcases List.mem_append.mp member with earlier | last
    · exact regular.retries tested earlier
    · rw [List.mem_singleton.mp last]
      exact retried

theorem Regular.close {outcome : Outcome}
    (regular : history.Regular config)
    (number : attempt.number = history.retried.length)
    (decided : attempt.Decides config outcome) :
    (history.close attempt outcome).Regular config := by
  refine ⟨numbers_append regular number, ?_, regular.retries, decided⟩
  have few := regular.few
  simp only [FrameHistory.attempts, OpenHistory.close, List.length_append,
    List.length_singleton]
  omega

end OpenHistory

end HalfDuplex
