import HalfDuplex.Proofs.Coherence
import HalfDuplex.Proofs.Mirroring

/-!
# Time is relative

Every component of the engine keeps times of its own: the start of the attempt, the first tick
of the gap, the end of the backoff and, in a scripted source, the last pull.  All of them are
readings of the timer, and they are only ever compared with later readings.  A run whose
readings are all later by the same `delay` is therefore the same run, with every time that is
kept later by `delay`, until a sum in it does not fit its width.

Nothing is assumed about the readings; they need not even grow.
-/

namespace HalfDuplex

/-- A frame store whose times can be put off. -/
class TimeShift (σ : Type) [ByteSource σ] [FrameStore σ] where
  later : Tick → σ → σ
  ready_later : ∀ delay source,
    ByteSource.ready (later delay source) = ByteSource.ready source
  offer_later : ∀ delay source item,
    FrameStore.offer (later delay source) item = later delay (FrameStore.offer source item)
  rewind_later : ∀ delay source,
    ByteSource.rewind (later delay source) = later delay (ByteSource.rewind source)
  release_later : ∀ delay source,
    ByteSource.release (later delay source) = later delay (ByteSource.release source)
  pull_later : ∀ delay source now,
    Shadows (fun left right => right = (later delay left.1, left.2))
      (ByteSource.pull source now) (ByteSource.pull (later delay source) (now + delay))

/-- A queue keeps no time. -/
instance {capacity : Nat} : TimeShift (FrameQueue capacity) where
  later _ queue := queue
  ready_later _ _ := rfl
  offer_later _ _ _ := rfl
  rewind_later _ _ := rfl
  release_later _ _ := rfl
  pull_later _ _ _ := .value rfl

namespace ScriptedSource

/-- The source as it is `delay` ticks later. -/
def later (delay : Tick) (source : ScriptedSource) : ScriptedSource :=
  { source with last := source.last.map (· + delay) }

theorem heldBack_later (source : ScriptedSource) (delay cadence now : Tick) :
    Shadows Eq (source.heldBack cadence now)
      ((source.later delay).heldBack cadence (now + delay)) := by
  unfold heldBack later
  cases source.last with
  | none => exact .value rfl
  | some last =>
      refine Shadows.chain (.checkedAdd wideLimit last cadence delay) ?_
      rintro due _ - rfl
      simp only [Nat.add_lt_add_iff_right]
      exact .value rfl

theorem pull_later (source : ScriptedSource) (delay now : Tick) :
    Shadows (fun left right => right = (left.1.later delay, left.2)) (source.pull now)
      ((source.later delay).pull (now + delay)) := by
  have frames : (source.later delay).frames = source.frames := rfl
  have cursor : (source.later delay).cursor = source.cursor := rfl
  unfold pull
  rw [frames, cursor]
  split
  · exact .value rfl
  · rename_i front rest held
    split
    · exact .value rfl
    · rename_i entry place
      refine (source.heldBack_later delay front.cadence now).chain ?_
      rintro early _ - rfl
      cases early with
      | true => exact .value rfl
      | false => cases entry <;> exact .value rfl

end ScriptedSource

instance : TimeShift ScriptedSource where
  later := ScriptedSource.later
  ready_later _ _ := rfl
  offer_later _ _ _ := rfl
  rewind_later _ _ := rfl
  release_later _ _ := rfl
  pull_later delay source now := source.pull_later delay now

namespace TimeShift

variable {σ : Type} [ByteSource σ] [FrameStore σ] [TimeShift σ]

/-- A source and what it is `delay` ticks later. -/
def likeness (delay : Tick) : Likeness σ σ where
  Alike source image := image = later delay source
  ready := by
    rintro source _ rfl
    exact ready_later delay source
  rewind := by
    rintro source _ rfl
    exact rewind_later delay source
  release := by
    rintro source _ rfl
    exact release_later delay source

theorem answers (delay : Tick) (source : σ) (now : Tick) :
    (likeness delay).Answers now (now + delay) source (later delay source) := by
  refine (pull_later delay source now).mono ?_
  rintro ⟨after, answer⟩ _ - rfl
  exact ⟨later delay after, rfl, rfl⟩

theorem offerAll_later (delay : Tick) (source : σ) (items : List (FrameStore.Item σ)) :
    FrameStore.offerAll (later delay source) items =
      later delay (FrameStore.offerAll source items) := by
  induction items generalizing source with
  | nil => rfl
  | cons item items inductionHypothesis =>
      show FrameStore.offerAll (FrameStore.offer (later delay source) item) items = _
      rw [offer_later]
      exact inductionHypothesis (FrameStore.offer source item)

theorem appends_later {change : σ → σ}
    (appends : FrameStore.Appends change)
    (delay : Tick) (source : σ) :
    change (later delay source) = later delay (change source) := by
  obtain ⟨items, offers⟩ := appends
  rw [offers, offers, offerAll_later]

end TimeShift

namespace Engine

variable {σ γ : Type}

variable [ByteSource σ] [FrameStore σ] [TimeShift σ]

/-- Two engines that differ by `delay` in every time that they keep, and in nothing that they
show. -/
structure DelayedBy (delay : Tick) (engine other : Engine σ γ) : Prop where
  stage : other.stage = engine.stage
  collisions : other.collisions = engine.collisions
  busy : other.busy = engine.busy
  stats : other.stats = engine.stats
  attempt : other.attempt = engine.attempt.map (Attempt.later delay)
  deferral : other.deferral.state = engine.deferral.state.later delay
  backoffUntil : other.backoffUntil = engine.backoffUntil.map (· + delay)
  source : other.source = TimeShift.later delay engine.source

theorem delayedBy_later (engine : Engine σ γ) (delay : Tick) :
    engine.DelayedBy delay (engine.later delay (TimeShift.later delay engine.source)) where
  stage := rfl
  collisions := rfl
  busy := by
    unfold busy later
    rw [Option.isSome_map]
    rfl
  stats := rfl
  attempt := rfl
  deferral := rfl
  backoffUntil := rfl
  source := rfl

end Engine

namespace Run

variable {config : Config} {σ γ : Type} [ByteSource σ] [WordSource γ] [FrameStore σ]
  [TimeShift σ] {run other : Run config σ γ} {delay : Tick}

/-- The second run is given what the first one is given, with all times later by `delay`: the
readings of the timer, and those that the source keeps. -/
def Delayed (delay : Tick) (run other : Run config σ γ) : Prop :=
  Mirrors delay (TimeShift.later delay run.source) run.supply run other

/-- Offering to a source and asking it is the same at any later time. -/
theorem feeds_later (run : Run config σ γ) (delay : Tick)
    (appends : ∀ tick, tick < run.length → FrameStore.Appends (run.supply tick)) :
    Feeds (TimeShift.likeness delay) delay (TimeShift.later delay run.source) run.supply
      run where
  begins := rfl
  supplied := by
    rintro tick _ within rfl
    exact TimeShift.appends_later (appends tick within) delay (run.engine tick).source
  answers := by
    intro other mirrors tick within reached accords asks
    have source := accords.alike
    have later := TimeShift.appends_later (appends tick within) delay (run.engine tick).source
    rw [source, later]
    exact TimeShift.answers delay (run.entering tick).source (run.reading tick)

/-- Only relative time matters.  Whatever the readings of the timer are, the run with all of
them later by `delay` goes on as long as the run itself, unless a sum does not fit on the tick
on which it stops.  Up to there it shows the same on every tick, and every time that it keeps
is later by `delay`. -/
theorem same_when_delayed (run : Run config σ γ) (delay : Tick)
    (appends : ∀ tick, tick < run.length → FrameStore.Appends (run.supply tick)) :
    (∃ other : Run config σ γ, Delayed delay run other ∧
      (other.length = run.length ∨
        other.length < run.length ∧ Overflows delay run.supply run other)) ∧
      ∀ other : Run config σ γ, Delayed delay run other →
        (∀ count, count ≤ run.length → count ≤ other.length →
          (run.engine count).DelayedBy delay (other.engine count)) ∧
        ∀ tick, tick < run.length → tick < other.length →
          other.outputs tick = run.outputs tick := by
  have feeds := feeds_later run delay appends
  constructor
  · exact feeds.exists_mirrored (Nat.le_refl run.length)
  · intro other delayed
    constructor
    · intro count within withinOther
      have accords := Mirrors.accords delayed feeds within withinOther
      have source := accords.alike
      rw [accords.engine, source]
      exact Engine.delayedBy_later (run.engine count) delay
    · intro tick within withinOther
      exact Mirrors.outputs delayed feeds within withinOther

/-- The timer that leaps ahead during the backoff, put off by a thousand ticks. -/
def delayedLeapScenario : Scenario ScriptedSource ZeroWords :=
  { leapScenario with
    origin := 1000
    reading := fun count => leapScenario.reading count + 1000 }

def delayedLeapRun : Run .brief ScriptedSource ZeroWords :=
  (delayedLeapScenario.run? .brief 21).get (by decide +kernel)

theorem same_when_delayed_leapRun :
    (∀ tick, tick < leapRun.length → FrameStore.Appends (leapRun.supply tick)) ∧
      Delayed 1000 leapRun delayedLeapRun ∧
      (leapRun.engine 7).attempt = some ⟨1, 16⟩ ∧
      (delayedLeapRun.engine 7).attempt = some ⟨1, 1016⟩ ∧
      (delayedLeapRun.engine 15).source.last = some 1018 ∧
      delayedLeapRun.outputs 18 = leapRun.outputs 18 := by
  have appends : ∀ tick, tick < leapRun.length → FrameStore.Appends (leapRun.supply tick) :=
    fun _ _ => ⟨[], fun _ => rfl⟩
  have delayed : Delayed 1000 leapRun delayedLeapRun :=
    ⟨rfl, rfl, rfl, fun _ _ _ => rfl, fun _ _ _ => rfl, fun _ _ _ => rfl⟩
  obtain ⟨_, same⟩ := same_when_delayed leapRun 1000 appends
  obtain ⟨engines, outputs⟩ := same delayedLeapRun delayed
  have attempt : (leapRun.engine 7).attempt = some ⟨1, 16⟩ := by decide +kernel
  have attemptDelayed := (engines 7 (by decide +kernel) (by decide +kernel)).attempt
  have sourceDelayed := (engines 15 (by decide +kernel) (by decide +kernel)).source
  have last : (leapRun.engine 15).source.last = some 18 := by decide +kernel
  rw [attempt] at attemptDelayed
  refine ⟨appends, delayed, attempt, attemptDelayed, ?_, ?_⟩
  · rw [sourceDelayed]
    show (leapRun.engine 15).source.last.map (· + 1000) = some 1018
    rw [last]
    rfl
  · exact outputs 18 (by decide +kernel) (by decide +kernel)

end Run

end HalfDuplex
