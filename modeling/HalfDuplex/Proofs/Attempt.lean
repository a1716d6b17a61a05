import HalfDuplex.Proofs.CutReception
import HalfDuplex.Proofs.LineRate
import HalfDuplex.Proofs.Soundness

/-!
# Attempts of a run

`Run.attempt` takes the attempt that starts on a tick out of its run.  Of the source it keeps
the frame in front and no other one, so that frames that are appended meanwhile make no
difference to it.

As long as the attempt in the run is in progress, the two stand alike and show the same, tick by
tick.  The attempt on its own has no fault then, and where it ends the engine settles it.

Main results: `Run.sound_attempt` and `Run.settles_attempt`.
-/

namespace HalfDuplex

namespace ScriptedSource

/-- Keeps the frame in front alone, which is all that a pull can tell. -/
def front : PullMap ScriptedSource ScriptedSource where
  apply source := { source with frames := source.frames.take 1 }
  pull source now := by
    rcases source with ⟨_ | ⟨frame, rest⟩, cursor, last⟩
    · rfl
    · simp only [ByteSource.pull, pull, List.take_succ_cons, List.take_zero]
      cases frame.entries[cursor]? with
      | none => rfl
      | some entry =>
          show Except.bind (heldBack ⟨frame :: rest, cursor, last⟩ frame.cadence now) _ = _
          cases heldBack ⟨frame :: rest, cursor, last⟩ frame.cadence now with
          | error fault => rfl
          | ok early => cases early <;> cases entry <;> rfl

variable {source after : ScriptedSource} {frame : ScriptedFrame} {rest : List ScriptedFrame}
  {change : ScriptedSource → ScriptedSource}

theorem front_apply (held : source.frames = frame :: rest) :
    front.apply source = { source with frames := [frame] } := by
  simp only [front, held, List.take_succ_cons, List.take_zero]

theorem frames_of_appends
    (appends : FrameStore.Appends change)
    (source : ScriptedSource) :
    ∃ added, (change source).frames = source.frames ++ added := by
  obtain ⟨items, offers⟩ := appends
  rw [offers]
  clear offers
  induction items generalizing source with
  | nil => exact ⟨[], (List.append_nil _).symm⟩
  | cons item items inductionHypothesis =>
      obtain ⟨added, later⟩ := inductionHypothesis (source.push item)
      refine ⟨item :: added, ?_⟩
      rw [FrameStore.offerAll, List.foldl_cons]
      exact later.trans (List.append_assoc _ _ _)

theorem front_of_appends
    (appends : FrameStore.Appends change)
    (held : source.frames = frame :: rest) :
    (∃ more, (change source).frames = frame :: more) ∧
      front.apply (change source) = front.apply source := by
  obtain ⟨added, grown⟩ := frames_of_appends appends source
  rw [held, List.cons_append] at grown
  have cursor : (change source).cursor = source.cursor := appends.cursor source
  refine ⟨⟨_, grown⟩, ?_⟩
  rw [front_apply held, front_apply grown, cursor, last_of_appends appends]

end ScriptedSource

theorem Sequencer.Moves.scriptedFrames {now : Tick} {collision : Bool}
    {sequencer next : Sequencer} {source after : ScriptedSource} {step : SequencerStep}
    (moves : Moves now collision sequencer source next after step) :
    after.frames = source.frames := by
  rcases moves.pulls with rfl | ⟨_, pulled⟩
  · rfl
  · cases ScriptedSource.pull_eq_ok pulled <;> rfl

namespace Engine

variable {σ γ : Type} [ByteSource σ] [WordSource γ] {now : Tick} {collision : Bool}
  {inputs : Inputs} {engine next : Engine σ γ} {signals : Signals} {status : Indicators}
  {outputs : Outputs} {step : SequencerStep} {events : List Event}

theorem value_of_drive (yields : (engine.drive now collision).Yields events (next, step)) :
    (engine.sequencer.step now collision engine.source).value =
      .ok (next.sequencer, next.source, step) := by
  simp only [drive, Traced.yields_bind] at yields
  obtain ⟨⟨sequencer, source, shown⟩, _, _, steps, left, _⟩ := yields
  have value := congrArg Traced.value steps
  by_cases noticed : shown.collided
  · simp only [if_pos noticed, Traced.yields_bind, Traced.yields_pure, Prod.mk.injEq] at left
    obtain ⟨_, _, _, _, ⟨_, rfl, rfl⟩, _⟩ := left
    exact value
  · simp only [if_neg noticed, Traced.yields_pure, Prod.mk.injEq] at left
    obtain ⟨_, rfl, rfl⟩ := left
    exact value

/-- What a tick does to the attempt in progress, told by the step of the sequencer. -/
inductive Steps (now : Tick) (inputs : Inputs) (engine next : Engine σ γ) (outputs : Outputs)
    (marks : List Mark) : Prop
  | goesOn {step : SequencerStep}
      (stepped : (engine.sequencer.step now inputs.collision engine.source).value =
        .ok (next.sequencer, next.source, step))
      (unended : step.ending = none)
      (shown : outputs.signals = step.signals)
      (unraised : outputs.status = {})
  | stops {stopped settled : Engine σ γ} {step : SequencerStep} {ending : Ending}
      {outcome : Option Outcome}
      (stepped : (engine.sequencer.step now inputs.collision engine.source).value =
        .ok (stopped.sequencer, stopped.source, step))
      (ended : step.ending = some ending)
      (settles : Settles now stopped ending settled outcome)
      (status : outputs.status = raised outcome)
      (rests : ¬ HasStart marks →
        next.source = settled.source ∧ outputs.signals = step.signals)

theorem proceed_drives
    (yields : (engine.proceed now collision).Yields events (next, signals, status)) :
    ∃ (driven : Engine σ γ) (step : SequencerStep) (before : List Event),
      (engine.drive now collision).Yields before (driven, step) ∧ signals = step.signals ∧
        (step.ending = none ∧ next = driven ∧ status = {} ∨
          ∃ ending outcome, step.ending = some ending ∧
            Settles now driven ending next outcome ∧ status = raised outcome) := by
  simp only [proceed, Traced.yields_bind] at yields
  obtain ⟨⟨driven, step⟩, before, _, drove, left, _⟩ := yields
  refine ⟨driven, step, before, drove, ?_⟩
  cases ended : step.ending with
  | none =>
      simp only [ended, Traced.yields_pure, Prod.mk.injEq] at left
      obtain ⟨_, rfl, rfl, rfl⟩ := left
      exact ⟨rfl, .inl ⟨rfl, rfl, rfl⟩⟩
  | some ending =>
      simp only [ended, Traced.yields_bind] at left
      obtain ⟨⟨settled, outcome⟩, _, _, settling, left, _⟩ := left
      have settles := (settle_yields settling).1
      cases outcome with
      | none | some =>
          simp only [Traced.yields_pure, Prod.mk.injEq] at left
          obtain ⟨_, rfl, rfl, rfl⟩ := left
          exact ⟨rfl, .inr ⟨_, _, rfl, settles, rfl⟩⟩

/-- A tick with an attempt in progress takes the sequencer one step further. -/
theorem steps_of_tick
    (active : engine.sequencer.stage ≠ .idle)
    (yields : (engine.tick now inputs).Yields events (next, outputs)) :
    Steps now inputs engine next outputs (marksOf now events) := by
  obtain ⟨proceeded, signals, _, deferral, ready, _, _, proceeds, _, considered, rfl⟩ :=
    tick_yields_iff.mp yields
  obtain ⟨driven, step, _, drove, rfl, turn⟩ := proceed_drives proceeds
  have stepped := value_of_drive drove
  have considers := consider_yields considered
  rcases turn with ⟨unended, rfl, unraised⟩ | ⟨ending, outcome, ended, settles, status⟩
  · have goesOn : (proceeded.deferring deferral).sequencer.stage ≠ .idle :=
      (drive_yields drove).1.moves.active active unended
    obtain ⟨rfl, shown, _⟩ := considers.passing goesOn
    exact .goesOn stepped unended shown unraised
  · refine .stops stepped ended settles status fun unstarted => ?_
    rw [marksOf_append, marksOf_append, hasStart_append, hasStart_append] at unstarted
    generalize marksOf now _ = marks at considers unstarted
    generalize outputs.signals = shown at considers ⊢
    cases considers with
    | launches => exact absurd (.inr (.inr (hasStart_started _ _ _))) unstarted
    | holdsOff | passes => exact ⟨rfl, rfl⟩

end Engine

namespace Run

variable {config : Config} {γ : Type} [WordSource γ] {run : Run config ScriptedSource γ}
  {frame : ScriptedFrame} {rest : List ScriptedFrame} {start age : Nat} {early gap : Tick}

/-- The attempt that starts on a tick, with the frame in front as its source. -/
def attempt (run : Run config ScriptedSource γ) (start : Nat) : Trial ScriptedSource where
  sequencer := (run.entering start).sequencer
  source := ScriptedSource.front.apply (run.entering start).source
  reading tick := run.reading (start + tick)
  collision tick := (run.inputs (start + tick)).collision

/-- The attempt is in progress, and stands in the run as it does on its own. -/
structure InProgress (run : Run config ScriptedSource γ) (frame : ScriptedFrame)
    (start age : Nat) : Prop where
  enters : (run.attempt start).entering age = .ok ((run.engine (start + age)).sequencer,
    ScriptedSource.front.apply (run.engine (start + age)).source)
  active : (run.engine (start + age)).sequencer.stage ≠ .idle
  lastStart : run.LastStart start (start + age)
  held : ∃ rest, (run.engine (start + age)).source.frames = frame :: rest
  shown : ∀ tick < age, (run.outputs (start + tick)).status = {} ∧
    ∃ step, (run.attempt start).shows tick = .ok step ∧ step.ending = none ∧
      (run.outputs (start + tick)).signals = step.signals

/-- The attempt is in progress, or has come to its end. -/
inductive Tracks (run : Run config ScriptedSource γ) (frame : ScriptedFrame)
    (start age : Nat) : Prop
  | inProgress (progress : run.InProgress frame start age)
  | finished {sequencer : Sequencer} {source : ScriptedSource} {tick : Nat} {step : SequencerStep}
      {ending : Ending}
      (enters : (run.attempt start).entering age = .ok (sequencer, source))
      (idle : sequencer.stage = .idle)
      (before : tick < age)
      (shown : (run.attempt start).shows tick = .ok step)
      (ended : step.ending = some ending)

/-- An attempt starts when none is in progress. -/
theorem idle_of_starts
    (timing : config.Timing early gap)
    (consecutive : run.Consecutive)
    (within : start < run.length)
    (starts : run.Starts start) :
    (run.engine start).sequencer.stage = .idle := by
  have holds := defers timing consecutive (Nat.le_of_lt within)
  rcases holds.settled with idle | driven
  · exact idle
  · rcases holds.stops timing consecutive within driven with
      ⟨_, _, unstarted, _⟩ | ⟨_, _, unstarted, _⟩
    · exact absurd starts unstarted
    · exact absurd starts unstarted

/-- The first tick of an attempt. -/
theorem inProgress_of_starts
    (timing : config.Timing early gap)
    (consecutive : run.Consecutive)
    (within : start < run.length)
    (starts : run.Starts start)
    (held : (run.entering start).source.frames = frame :: rest) :
    run.InProgress frame start 1 := by
  have idle : (run.entering start).sequencer.stage = .idle :=
    idle_of_starts timing consecutive within starts
  obtain ⟨preamblePositive, nibblePositive⟩ := plan_positive timing (Nat.le_of_lt within)
  cases (run.ticks within).turns with
  | goesOn active => exact absurd idle active
  | stops moves ended =>
      obtain ⟨_, _, rfl⟩ := moves.resting idle
      cases ended
  | waits _ unraised leaves =>
      cases leaves with
      | rests _ _ _ unstarted => exact absurd starts unstarted
      | @starts step waiting moves shown =>
          obtain ⟨stepEqual, next, source⟩ := Sequencer.start_moves preamblePositive moves
          have stepped := Sequencer.step_start nibblePositive preamblePositive
            (run.reading start) (run.inputs start).collision (run.attempt start).source
          rw [← stepEqual, ← next] at stepped
          have unended : step.ending = none := congrArg SequencerStep.ending stepEqual
          have front : (run.attempt start).source =
              ScriptedSource.front.apply (run.engine (start + 1)).source :=
            congrArg ScriptedSource.front.apply source.symm
          have begun : (run.entering start).sequencer.start.stage ≠ .idle := nofun
          refine ⟨?_, moves.active begun unended, starts.lastStart, ⟨rest, ?_⟩, ?_⟩
          · rw [← front]
            exact Trial.entering_succ rfl stepped
          · rw [source]
            exact held
          · intro tick only
            obtain rfl := Nat.lt_one_iff.mp only
            exact ⟨unraised, step, Trial.shows_of_entering rfl stepped, unended, shown⟩

/-- A step of the sequencer in the run is one of the attempt on its own. -/
theorem InProgress.steps {sequencer : Sequencer} {source : ScriptedSource}
    {step : SequencerStep}
    (appends : FrameStore.Appends (run.supply (start + age)))
    (progress : run.InProgress frame start age)
    (stepped : ((run.entering (start + age)).sequencer.step (run.reading (start + age))
      (run.inputs (start + age)).collision (run.entering (start + age)).source).value =
        .ok (sequencer, source, step)) :
    (run.attempt start).entering (age + 1) =
        .ok (sequencer, ScriptedSource.front.apply source) ∧
      (run.attempt start).shows age = .ok step := by
  obtain ⟨rest, held⟩ := progress.held
  have kept : ScriptedSource.front.apply (run.entering (start + age)).source =
      ScriptedSource.front.apply (run.engine (start + age)).source :=
    (ScriptedSource.front_of_appends appends held).2
  have alone : ((run.entering (start + age)).sequencer.step (run.reading (start + age))
      (run.inputs (start + age)).collision
      (ScriptedSource.front.apply (run.entering (start + age)).source)).value = _ :=
    Sequencer.value_step_map ScriptedSource.front _ _ _
  rw [stepped, kept] at alone
  exact ⟨Trial.entering_succ progress.enters alone, Trial.shows_of_entering progress.enters alone⟩

theorem InProgress.entering_held
    (appends : FrameStore.Appends (run.supply (start + age)))
    (progress : run.InProgress frame start age) :
    ∃ rest, (run.entering (start + age)).source.frames = frame :: rest := by
  obtain ⟨rest, held⟩ := progress.held
  exact (ScriptedSource.front_of_appends appends held).1

/-- No attempt starts while another one is in progress. -/
theorem InProgress.unstarted
    (timing : config.Timing early gap)
    (consecutive : run.Consecutive)
    (within : start + age < run.length)
    (progress : run.InProgress frame start age) :
    ¬ run.Starts (start + age) :=
  fun starts => progress.active (idle_of_starts timing consecutive within starts)

/-- A tick of the run takes the attempt on its own one tick further. -/
theorem Tracks.next
    (timing : config.Timing early gap)
    (consecutive : run.Consecutive)
    (within : start + age < run.length)
    (appends : FrameStore.Appends (run.supply (start + age)))
    (tracks : run.Tracks frame start age) :
    run.Tracks frame start (age + 1) := by
  cases tracks with
  | @finished sequencer source _ _ _ enters idle before shown ended =>
      have rests : (sequencer.step ((run.attempt start).reading age)
          ((run.attempt start).collision age) source).value = .ok (sequencer, source, {}) := by
        rw [Sequencer.step, if_pos idle]
        rfl
      exact .finished (Trial.entering_succ enters rests) idle (Nat.lt_succ_of_lt before) shown ended
  | inProgress progress =>
      have activeThen : (run.entering (start + age)).sequencer.stage ≠ .idle := progress.active
      cases Engine.steps_of_tick activeThen (run.ticked (start + age) within) with
      | @goesOn step stepped unended shown unraised =>
          obtain ⟨enters, shows⟩ := progress.steps appends stepped
          obtain ⟨moves, _⟩ := Sequencer.step_yields (Traced.yields_of_value stepped)
          obtain ⟨rest, held⟩ := progress.entering_held appends
          refine .inProgress ⟨enters, moves.active activeThen unended,
            progress.lastStart.next (progress.unstarted timing consecutive within),
            ⟨rest, moves.scriptedFrames.trans held⟩, fun tick before => ?_⟩
          rcases Nat.lt_succ_iff_lt_or_eq.mp before with earlier | rfl
          · exact progress.shown tick earlier
          · exact ⟨unraised, step, shows, unended, shown⟩
      | stops stepped ended =>
          obtain ⟨enters, shows⟩ := progress.steps appends stepped
          obtain ⟨moves, _⟩ := Sequencer.step_yields (Traced.yields_of_value stepped)
          exact .finished enters (moves.ended_idle ended).1 (Nat.lt_succ_self age) shows ended

/-- The tick on which an attempt has ended settles it. -/
theorem InProgress.ends {step : SequencerStep} {ending : Ending}
    (timing : config.Timing early gap)
    (consecutive : run.Consecutive)
    (within : start + age < run.length)
    (appends : FrameStore.Appends (run.supply (start + age)))
    (shown : (run.attempt start).shows age = .ok step)
    (ended : step.ending = some ending)
    (progress : run.InProgress frame start age) :
    ∃ (stopped settled : Engine ScriptedSource γ) (outcome : Option Outcome),
      Engine.Settles (run.reading (start + age)) stopped ending settled outcome ∧
        stopped.source.frames = (run.entering (start + age)).source.frames ∧
        (run.engine (start + age + 1)).source = settled.source ∧
        run.outputs (start + age) = { signals := step.signals, status := Engine.raised outcome } := by
  have activeThen : (run.entering (start + age)).sequencer.stage ≠ .idle := progress.active
  have unstarted := progress.unstarted timing consecutive within
  cases Engine.steps_of_tick activeThen (run.ticked (start + age) within) with
  | goesOn stepped unended =>
      cases shown.symm.trans (progress.steps appends stepped).2
      cases unended.symm.trans ended
  | @stops stopped settled _ _ outcome stepped endedThen settles status rests =>
      cases shown.symm.trans (progress.steps appends stepped).2
      cases ended.symm.trans endedThen
      obtain ⟨moves, _⟩ := Sequencer.step_yields (Traced.yields_of_value stepped)
      obtain ⟨source, signals⟩ := rests unstarted
      refine ⟨stopped, settled, outcome, settles, moves.scriptedFrames, source, ?_⟩
      rw [← signals, ← status]

/-- The attempt that starts on a tick is the last one of its frame, and settles it. -/
structure SettlesFrame (run : Run config ScriptedSource γ) (frame : ScriptedFrame)
    (start finish : Nat) (outcome : Outcome) : Prop where
  raised : (run.outputs finish).status = outcome.indicators
  unraised : ∀ tick, start ≤ tick → tick < finish → (run.outputs tick).status = {}
  unstarted : ∀ tick, start < tick → tick ≤ finish → ¬ run.Starts tick
  released : ∃ rest, (run.entering finish).source.frames = frame :: rest ∧
    (run.engine (finish + 1)).source = { frames := rest }

section

variable {noticed : Option Nat} {nibbles : List Signals} {duration count minLength : Nat}
  {ending : Ending} {outcome : Outcome}
  (timing : config.Timing early gap)
  (consecutive : run.Consecutive)
  (appends : ∀ tick, tick < run.length → FrameStore.Appends (run.supply tick))
  (starts : run.Starts start)
  (held : (run.entering start).source.frames = frame :: rest)

include timing consecutive appends starts held

theorem tracks (within : start + age < run.length) : run.Tracks frame start (age + 1) := by
  induction age with
  | zero => exact .inProgress (inProgress_of_starts timing consecutive within starts held)
  | succ age inductionHypothesis =>
      exact (inductionHypothesis (Nat.lt_of_succ_lt within)).next timing consecutive within
        (appends _ within)

/-- As the run has no fault, the attempt on its own has none. -/
theorem sound_attempt (within : start + duration ≤ run.length) :
    (run.attempt start).Sound duration := by
  intro tick upTo
  cases tick with
  | zero => exact ⟨_, rfl⟩
  | succ tick =>
      have before : start + tick < run.length :=
        Nat.lt_of_lt_of_le (Nat.add_lt_add_left upTo start) within
      cases tracks timing consecutive appends starts held before with
      | inProgress progress => exact ⟨_, progress.enters⟩
      | finished enters => exact ⟨_, enters⟩

/-- Up to its end an attempt is in progress. -/
theorem inProgress_of_runs
    (begun : 0 < duration)
    (within : start + duration ≤ run.length)
    (runs : (run.attempt start).Runs noticed nibbles duration ending) :
    run.InProgress frame start duration := by
  obtain ⟨age, rfl⟩ := Nat.exists_eq_add_one.mpr begun
  cases tracks timing consecutive appends starts held within with
  | inProgress progress => exact progress
  | finished enters idle before shown ended =>
      cases shown.symm.trans (runs.shown _ before)
      cases ended

/-- An attempt that is not jammed settles its frame on the tick after its last nibble. -/
theorem settles_attempt
    (final : ending = .sent ∧ outcome = .ok ∨ ending = .underflow ∧ outcome = .underflow)
    (begun : 0 < duration)
    (within : start + duration < run.length)
    (runs : (run.attempt start).Runs noticed nibbles duration ending) :
    run.SettlesFrame frame start (start + duration) outcome := by
  have progress := inProgress_of_runs timing consecutive appends starts held begun
    (Nat.le_of_lt within) runs
  obtain ⟨rest, heldThen⟩ := progress.entering_held (appends _ within)
  obtain ⟨stopped, settled, result, settles, frames, source, outputs⟩ :=
    progress.ends timing consecutive within (appends _ within) runs.ended rfl
  have completes : result = some outcome ∧ settled.source = ByteSource.release stopped.source := by
    rcases final with ⟨rfl, rfl⟩ | ⟨rfl, rfl⟩
    · cases settles
      exact ⟨rfl, rfl⟩
    · cases settles
      exact ⟨rfl, rfl⟩
  obtain ⟨rfl, released⟩ := completes
  constructor
  case raised => rw [outputs]; rfl
  case unraised =>
    intro tick atLeast before
    obtain ⟨age, rfl⟩ := Nat.exists_eq_add_of_le atLeast
    exact (progress.shown age (Nat.lt_of_add_lt_add_left before)).1
  case unstarted =>
    intro tick after upTo
    rcases Nat.lt_or_eq_of_le upTo with before | rfl
    · exact progress.lastStart.last tick after before
    · exact progress.unstarted timing consecutive within
  case released =>
    refine ⟨rest, heldThen, ?_⟩
    rw [source, released]
    show ({ frames := stopped.source.frames.tail } : ScriptedSource) = _
    rw [frames, heldThen, List.tail_cons]

/-- Up to the tick after its last nibble an attempt puts on the line what it shows on its own. -/
theorem signals_attempt {tick : Nat} {step : SequencerStep}
    (begun : 0 < duration)
    (within : start + duration < run.length)
    (runs : (run.attempt start).Runs noticed nibbles duration ending)
    (upTo : tick ≤ duration)
    (shown : (run.attempt start).shows tick = .ok step) :
    (run.outputs (start + tick)).signals = step.signals := by
  have progress := inProgress_of_runs timing consecutive appends starts held begun
    (Nat.le_of_lt within) runs
  rcases Nat.lt_or_eq_of_le upTo with before | rfl
  · obtain ⟨_, other, shows, _, signals⟩ := progress.shown tick before
    cases shown.symm.trans shows
    exact signals
  · cases shown.symm.trans runs.ended
    obtain ⟨_, _, _, _, _, _, outputs⟩ :=
      progress.ends timing consecutive within (appends _ within) runs.ended rfl
    rw [outputs]

/-- What a receiver makes of an attempt in a run is what it makes of the attempt on its own. -/
theorem received_attempt
    (begun : 0 < duration)
    (within : start + duration < run.length)
    (runs : (run.attempt start).Runs noticed nibbles duration ending)
    (upTo : count ≤ duration + 1) :
    (run.attempt start).received (run.receiver minLength start) count =
      .ok (run.receiver minLength (start + count)) := by
  induction count with
  | zero => rfl
  | succ count inductionHypothesis =>
      have received := inductionHypothesis (Nat.le_of_succ_le upTo)
      have before : count ≤ duration := Nat.le_of_succ_le_succ upTo
      obtain ⟨step, shown⟩ : ∃ step, (run.attempt start).shows count = .ok step := by
        rcases Nat.lt_or_eq_of_le before with earlier | rfl
        · exact ⟨_, runs.shown count earlier⟩
        · exact ⟨_, runs.ended⟩
      rw [Trial.received_succ received shown,
        ← signals_attempt timing consecutive appends starts held begun within runs before shown]
      rfl

end

end Run

end HalfDuplex
