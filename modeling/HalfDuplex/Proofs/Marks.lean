import HalfDuplex.Traced

/-!
# The marks of a run

Of the events that the station records, four kinds carry the story of a frame: an
attempt started, a collision was noticed in it, it ended, and the frame was completed.
A `Mark` is such an event, with the reading of the timer on which a collision was
noticed, which the event itself does not hold.

Everything else that is recorded is left out here.  In particular the events of the
deferral timer and of the collision window leave no mark.
-/

namespace HalfDuplex

/-- A station in the story of a frame.  An attempt is told with its number and its start. -/
inductive Mark where
  | started (number : Nat) (now : Tick)
  | noticed (now : Tick)
  | ended (ending : Ending)
  | completed (outcome : Outcome)
  deriving DecidableEq, Repr

def Mark.outcome? : Mark → Option Outcome
  | .completed outcome => some outcome
  | _ => none

def outcomesOf (marks : List Mark) : List Outcome :=
  marks.filterMap Mark.outcome?

/-- An attempt started, as marks tell it. -/
def HasStart (marks : List Mark) : Prop :=
  ∃ number now, Mark.started number now ∈ marks

/-- A collision was noticed, as marks tell it. -/
def HasNotice (marks : List Mark) : Prop :=
  ∃ now, Mark.noticed now ∈ marks

namespace Mark

def isStart : Mark → Bool
  | .started _ _ => true
  | _ => false

def isNotice : Mark → Bool
  | .noticed _ => true
  | _ => false

end Mark

theorem any_isStart_iff (marks : List Mark) :
    marks.any Mark.isStart = true ↔ HasStart marks := by
  rw [List.any_eq_true]
  constructor
  · rintro ⟨mark, member, start⟩
    cases mark with
    | started number now => exact ⟨number, now, member⟩
    | noticed | ended | completed => cases start
  · rintro ⟨number, now, member⟩
    exact ⟨_, member, rfl⟩

theorem any_isNotice_iff (marks : List Mark) :
    marks.any Mark.isNotice = true ↔ HasNotice marks := by
  rw [List.any_eq_true]
  constructor
  · rintro ⟨mark, member, notice⟩
    cases mark with
    | noticed now => exact ⟨now, member⟩
    | started | ended | completed => cases notice
  · rintro ⟨now, member⟩
    exact ⟨_, member, rfl⟩

instance (marks : List Mark) : Decidable (HasStart marks) :=
  decidable_of_iff _ (any_isStart_iff marks)

instance (marks : List Mark) : Decidable (HasNotice marks) :=
  decidable_of_iff _ (any_isNotice_iff marks)

/-- The mark that an event leaves when it is recorded at `now`. -/
def Event.mark? (now : Tick) : Event → Option Mark
  | .attemptStarted number start => some (.started number start)
  | .collisionLatched _ _ => some (.noticed now)
  | .attemptEnded _ ending _ => some (.ended ending)
  | .frameCompleted _ outcome _ => some (.completed outcome)
  | _ => none

def marksOf (now : Tick) (events : List Event) : List Mark :=
  events.filterMap (Event.mark? now)

@[simp]
theorem outcomesOf_nil : outcomesOf [] = [] :=
  rfl

@[simp]
theorem outcomesOf_cons (mark : Mark) (marks : List Mark) :
    outcomesOf (mark :: marks) = mark.outcome?.toList ++ outcomesOf marks := by
  cases found : mark.outcome? <;>
    simp [outcomesOf, found]

@[simp]
theorem outcomesOf_append (before after : List Mark) :
    outcomesOf (before ++ after) = outcomesOf before ++ outcomesOf after := by
  simp [outcomesOf]

@[simp]
theorem not_hasStart_nil : ¬ HasStart [] :=
  nofun

@[simp]
theorem hasStart_append (before after : List Mark) :
    HasStart (before ++ after) ↔ HasStart before ∨ HasStart after := by
  simp [HasStart, exists_or]

@[simp]
theorem not_hasNotice_nil : ¬ HasNotice [] :=
  nofun

@[simp]
theorem hasNotice_append (before after : List Mark) :
    HasNotice (before ++ after) ↔ HasNotice before ∨ HasNotice after := by
  simp [HasNotice, exists_or]

@[simp]
theorem hasNotice_started (number : Nat) (now : Tick) (marks : List Mark) :
    HasNotice (.started number now :: marks) ↔ HasNotice marks := by
  simp [HasNotice]

@[simp]
theorem not_hasNotice_completed (outcome : Option Outcome) :
    ¬ HasNotice (outcome.map Mark.completed).toList := by
  cases outcome <;> simp [HasNotice]

theorem hasStart_started (number : Nat) (now : Tick) (marks : List Mark) :
    HasStart (.started number now :: marks) :=
  ⟨number, now, List.mem_cons_self⟩

@[simp]
theorem marksOf_nil (now : Tick) : marksOf now [] = [] :=
  rfl

@[simp]
theorem marksOf_cons (now : Tick) (event : Event) (events : List Event) :
    marksOf now (event :: events) =
      (event.mark? now).toList ++ marksOf now events := by
  cases found : event.mark? now <;>
    simp [marksOf, found]

@[simp]
theorem marksOf_append (now : Tick) (before after : List Event) :
    marksOf now (before ++ after) = marksOf now before ++ marksOf now after := by
  simp [marksOf]

end HalfDuplex
