import HalfDuplex.Proofs.Coherence
import HalfDuplex.Proofs.Observation
import Mathlib.Data.Nat.Count

/-!
# The statistics of a run

The counters of the engine are compared with what a run shows: the indicators that it
raised, the frames that left the source, the collisions that it noticed and the rewinds of
its source.

A counter is moved by the end of an attempt, while the collision that it counts was noticed
earlier, so the comparison needs the collision in flight: a collision is `open` from the
tick on which it is noticed to the end of its attempt.  `Engine.Books` says what a tick does
to the counters, `Run.Balances` adds up what the ticks did.

The rewinds of a source cannot be read off the engine.  They are counted by a `Tallied`
source, to which the engine is as indifferent as to being watched.
-/

namespace HalfDuplex

/-- The collision is an ordinary one. -/
def Verdict.isOrdinary : Verdict → Bool
  | .retry _ _ | .giveUp => true
  | .late => false

def Mark.ending? : Mark → Option Ending
  | .ended ending => some ending
  | _ => none

/-- The first end of an attempt that marks tell. -/
def firstEnding (marks : List Mark) : Option Ending :=
  marks.findSome? Mark.ending?

@[simp]
theorem firstEnding_nil : firstEnding [] = none :=
  rfl

@[simp]
theorem firstEnding_append (before after : List Mark) :
    firstEnding (before ++ after) = (firstEnding before).or (firstEnding after) :=
  List.findSome?_append

@[simp]
theorem firstEnding_started (number : Nat) (now : Tick) (marks : List Mark) :
    firstEnding (.started number now :: marks) = firstEnding marks :=
  rfl

@[simp]
theorem firstEnding_completed (outcome : Option Outcome) :
    firstEnding (outcome.map Mark.completed).toList = none := by
  cases outcome <;> rfl

@[simp]
theorem firstEnding_marksOfStep (now : Tick) (step : SequencerStep) :
    firstEnding (Sequencer.marksOfStep now step) = step.ending := by
  unfold Sequencer.marksOfStep
  cases step.collided <;> cases step.ending <;> rfl

/-- A counter after a tick on which what it counts may have happened. -/
def bumped (happened : Bool) (counter : Nat) : Nat :=
  if happened then saturatingSucc countLimit counter else counter

/-- No counter of outcomes or collisions has come to the bound at which it stays. -/
structure Statistics.Unsaturated (stats : Statistics) : Prop where
  sent : stats.sent + 1 < countLimit
  collisions : stats.collisions + 1 < countLimit
  lateCollisions : stats.lateCollisions + 1 < countLimit
  gaveUp : stats.gaveUp + 1 < countLimit
  underflows : stats.underflows + 1 < countLimit

theorem count_congr {p q : Nat → Prop} [DecidablePred p] [DecidablePred q] {count : Nat}
    (same : ∀ tick, tick < count → (p tick ↔ q tick)) :
    Nat.count p count = Nat.count q count :=
  Nat.le_antisymm (Nat.count_mono_left fun tick within => (same tick within).mp)
    (Nat.count_mono_left fun tick within => (same tick within).mpr)

theorem count_or {p q : Nat → Prop} [DecidablePred p] [DecidablePred q]
    (apart : ∀ tick, p tick → ¬ q tick) (count : Nat) :
    Nat.count (fun tick => p tick ∨ q tick) count = Nat.count p count + Nat.count q count := by
  induction count with
  | zero => simp
  | succ count inductionHypothesis =>
      rw [Nat.count_succ, Nat.count_succ, Nat.count_succ, inductionHypothesis]
      by_cases first : p count
      · simp [first, apart count first, Nat.add_right_comm]
      · simp [first, Nat.add_assoc]

theorem count_flag_succ (flag : Nat → Bool) (count : Nat) :
    Nat.count (fun tick => flag tick = true) (count + 1) =
      Nat.count (fun tick => flag tick = true) count + (flag count).toNat := by
  rw [Nat.count_succ]
  cases flag count <;> rfl

theorem eq_add_of_bumped {before after : Nat} {happened : Bool}
    (bump : after = bumped happened before)
    (unsaturated : after + 1 < countLimit) :
    after = before + happened.toNat := by
  unfold bumped saturatingSucc at bump
  cases happened with
  | false => exact bump
  | true =>
      rw [if_pos rfl] at bump
      rw [Bool.toNat_true]
      omega

theorem unsaturated_of_bumped {before after : Nat} {happened : Bool}
    (bump : after = bumped happened before)
    (unsaturated : after + 1 < countLimit) :
    before + 1 < countLimit := by
  have counted := eq_add_of_bumped bump unsaturated
  omega

/-! ## Counting the rewinds of a source -/

/-- A source together with the number of times that it was rewound. -/
structure Tallied (σ : Type) where
  source : σ
  rewinds : Nat := 0

namespace Tallied

variable {σ : Type} [ByteSource σ]

instance : ByteSource (Tallied σ) where
  ready tallied := ByteSource.ready tallied.source
  pull tallied now :=
    (ByteSource.pull tallied.source now).map fun answered =>
      ({ tallied with source := answered.1 }, answered.2)
  rewind tallied :=
    { source := ByteSource.rewind tallied.source, rewinds := tallied.rewinds + 1 }
  release tallied := { tallied with source := ByteSource.release tallied.source }

/-- Forgets how often a source was rewound. -/
def forget : SourceMap (Tallied σ) σ where
  apply := source
  ready _ := rfl
  pull tallied now := by
    cases pulled : ByteSource.pull tallied.source now <;>
      simp [ByteSource.pull, pulled, Except.map]
  rewind _ := rfl
  release _ := rfl

/-- A source that was not rewound yet. -/
def tally (source : σ) : Tallied σ where
  source

theorem rewinds_of_pull {tallied after : Tallied σ} {now : Tick} {answer : Pull}
    (pulled : ByteSource.pull tallied now = .ok (after, answer)) :
    after.rewinds = tallied.rewinds := by
  cases answered : ByteSource.pull tallied.source now with
  | error fault => simp [ByteSource.pull, answered, Except.map] at pulled
  | ok left =>
      simp only [ByteSource.pull, answered, Except.map, Except.ok.injEq,
        Prod.mk.injEq] at pulled
      rcases pulled with ⟨rfl, rfl⟩
      rfl

end Tallied

namespace Sequencer

theorem Moves.rewinds {σ : Type} [ByteSource σ] {now : Tick} {collision : Bool}
    {sequencer next : Sequencer} {source after : Tallied σ} {step : SequencerStep}
    (moves : Moves now collision sequencer source next after step) :
    after.rewinds = source.rewinds := by
  rcases moves.pulls with rfl | ⟨_, pulled⟩
  · rfl
  · exact Tallied.rewinds_of_pull pulled

end Sequencer

/-! ## What a tick does to the counters -/

namespace Engine

variable {σ τ γ : Type}

/-- An ordinary collision is open: its attempt is not over. -/
def pending (engine : Engine σ γ) : Bool :=
  engine.verdict.any Verdict.isOrdinary

@[simp]
theorem pending_stepped (engine : Engine σ γ) (sequencer : Sequencer) (source : σ) :
    (engine.stepped sequencer source).pending = engine.pending :=
  rfl

/-- A tick completes the jam of an ordinary collision. -/
def completesJam (engine : Engine σ γ) (marks : List Mark) : Bool :=
  firstEnding marks = some .jammed && engine.pending

theorem toNat_completesJam (engine : Engine σ γ) (marks : List Mark) :
    (engine.completesJam marks).toNat =
      if firstEnding marks = some .jammed then engine.pending.toNat else 0 := by
  unfold completesJam
  split <;> simp [*]

/-- A verdict stands exactly in an attempt that met a collision. -/
inductive Judging (engine : Engine σ γ) : Prop
  | idle
      (idle : engine.sequencer.stage = .idle)
      (unjudged : engine.verdict = none)
  | clear
      (clear : engine.sequencer.Clear)
      (unjudged : engine.verdict = none)
  | struck
      (struck : engine.sequencer.Struck)
      (judged : engine.verdict ≠ none)

/-- What a tick does to the counters and to the collision in flight. -/
structure Books (engine next : Engine (Tallied σ) γ) (status : Indicators)
    (marks : List Mark) : Prop where
  sent : next.stats.sent = bumped status.ok engine.stats.sent
  gaveUp : next.stats.gaveUp = bumped status.gaveUp engine.stats.gaveUp
  lateCollisions :
    next.stats.lateCollisions = bumped status.lateCollision engine.stats.lateCollisions
  underflows : next.stats.underflows = bumped status.underflow engine.stats.underflows
  collisions :
    next.stats.collisions = bumped (engine.completesJam marks) engine.stats.collisions
  rewinds :
    next.source.rewinds + status.gaveUp.toNat =
      engine.source.rewinds + (engine.completesJam marks).toNat
  pending :
    next.pending.toNat =
      (firstEnding marks = none && engine.pending).toNat +
        (HasNotice marks && next.pending).toNat
  unsent : engine.pending = true → firstEnding marks ≠ some .sent
  deferrals :
    next.stats.deferrals ≤ engine.stats.deferrals + (decide (HasStart marks)).toNat

section Ticking

variable [ByteSource σ] [WordSource γ] {engine driven next : Engine (Tallied σ) γ} {now : Tick}
  {collision : Bool} {step : SequencerStep} {signals shown : Signals} {status : Indicators}
  {marks : List Mark}

theorem Drives.rewinds (drives : Drives now collision engine next step) :
    next.source.rewinds = engine.source.rewinds :=
  drives.moves.rewinds

theorem Drives.stats (drives : Drives now collision engine next step) :
    next.stats = engine.stats := by
  cases drives <;> rfl

/-- A collision that a tick of the sequencer notices is the only one that is open. -/
theorem Judging.pending_of_drives
    (judging : engine.Judging)
    (drives : Drives now collision engine next step) :
    next.pending.toNat = engine.pending.toNat +
      (HasNotice (Sequencer.marksOfStep now step) && next.pending).toNat := by
  have quiet (uncollided : step.collided = false) :
      ¬ HasNotice (Sequencer.marksOfStep now step) := by
    rw [Sequencer.hasNotice_marksOfStep, uncollided]
    exact Bool.false_ne_true
  cases judging with
  | idle idle unjudged =>
      obtain ⟨rfl, rfl⟩ := drives.resting idle
      simp [quiet rfl]
  | clear clear unjudged =>
      have closed : engine.pending = false := by simp [pending, unjudged]
      cases drives with
      | plain moves unnoticed => simp [quiet unnoticed, closed]
      | struck moves noticed judges =>
          have marked := (Sequencer.hasNotice_marksOfStep now step).mpr noticed
          simp [marked, closed]
  | struck struck judged =>
      have uncollided := (struck.moves drives.moves).1
      cases drives with
      | plain moves unnoticed => simp [quiet unnoticed]
      | struck moves noticed => cases uncollided.symm.trans noticed

/-- A tick that only drives the line leaves the counters alone. -/
theorem Judging.books_of_drives
    (judging : engine.Judging)
    (drives : Drives now collision engine next step)
    (unended : step.ending = none) :
    engine.Books next {} (Sequencer.marksOfStep now step) := by
  have stats := drives.stats
  have ending : firstEnding (Sequencer.marksOfStep now step) = none := by
    rw [firstEnding_marksOfStep, unended]
  have uncompleted : engine.completesJam (Sequencer.marksOfStep now step) = false := by
    simp [completesJam, ending]
  refine {
    sent := congrArg Statistics.sent stats
    gaveUp := congrArg Statistics.gaveUp stats
    lateCollisions := congrArg Statistics.lateCollisions stats
    underflows := congrArg Statistics.underflows stats
    collisions := ?_
    rewinds := ?_
    pending := ?_
    unsent := ?_
    deferrals := ?_ }
  · rw [uncompleted, stats]
    rfl
  · rw [uncompleted, drives.rewinds]
  · rw [judging.pending_of_drives drives, ending]
    simp
  · rw [ending]
    exact fun _ => nofun
  · rw [stats]
    exact Nat.le_add_right _ _

omit [WordSource γ] in
/-- How the counters stand when an attempt is settled. -/
theorem Settles.books {ending : Ending} {outcome : Option Outcome}
    (settles : Settles now engine ending next outcome)
    (marked : firstEnding marks = some ending)
    (judged : ending = .jammed → engine.verdict ≠ none)
    (unjudged : ending = .sent → engine.verdict = none) :
    engine.Books next (raised outcome) marks := by
  have unsent : engine.pending = true → firstEnding marks ≠ some .sent := by
    rintro pending sent
    rw [marked] at sent
    rw [Engine.pending, unjudged (Option.some.inj sent)] at pending
    cases pending
  have closed {settled : Engine (Tallied σ) γ} (cleared : settled.verdict = none) :
      settled.pending.toNat =
        (firstEnding marks = none && engine.pending).toNat +
          (HasNotice marks && settled.pending).toNat := by
    simp [marked, Engine.pending, cleared]
  have uncompleted (other : ending ≠ .jammed) : engine.completesJam marks = false := by
    simp [completesJam, marked, other]
  cases settles with
  | sent =>
      have collisions := uncompleted nofun
      exact ⟨rfl, rfl, rfl, rfl, collisions ▸ rfl, collisions ▸ rfl, closed rfl, unsent,
        Nat.le_add_right _ _⟩
  | underflow =>
      have collisions := uncompleted nofun
      exact ⟨rfl, rfl, rfl, rfl, collisions ▸ rfl, collisions ▸ rfl, closed rfl, unsent,
        Nat.le_add_right _ _⟩
  | retry verdict =>
      have collisions : engine.completesJam marks = true := by
        simp [completesJam, marked, Engine.pending, verdict, Verdict.isOrdinary]
      exact ⟨rfl, rfl, rfl, rfl, collisions ▸ rfl, collisions ▸ rfl, closed rfl, unsent,
        Nat.le_add_right _ _⟩
  | giveUp verdict =>
      have collisions : engine.completesJam marks = true := by
        simp [completesJam, marked, Engine.pending, verdict, Verdict.isOrdinary]
      exact ⟨rfl, rfl, rfl, rfl, collisions ▸ rfl, collisions ▸ rfl, closed rfl, unsent,
        Nat.le_add_right _ _⟩
  | late verdict =>
      have collisions : engine.completesJam marks = false := by
        simp [completesJam, marked, Engine.pending, verdict, Verdict.isOrdinary]
      exact ⟨rfl, rfl, rfl, rfl, collisions ▸ rfl, collisions ▸ rfl, closed rfl, unsent,
        Nat.le_add_right _ _⟩
  | unjudged verdict => exact absurd verdict (judged rfl)

variable {config : Config} {early gap : Tick} {inputs : Inputs} {ready : Bool}
  {settled started : List Mark}

omit [WordSource γ] in
/-- Only an attempt that met a collision ends jammed, and such an attempt is not sent. -/
theorem Judging.ends {ending : Ending} {sequencer : Sequencer} {source : Tallied σ}
    (judging : engine.Judging)
    (moves :
      Sequencer.Moves now collision engine.sequencer engine.source sequencer source step)
    (ended : step.ending = some ending) :
    (ending = .jammed → engine.verdict ≠ none) ∧ (ending = .sent → engine.verdict = none) := by
  cases judging with
  | idle idle unjudged =>
      obtain ⟨_, _, rfl⟩ := moves.resting idle
      cases ended
  | clear clear unjudged =>
      have stops := clear.moves moves
      rw [ended] at stops
      exact ⟨fun jammed => absurd jammed stops.1, fun _ => unjudged⟩
  | struck struck judged =>
      have stops := (struck.moves moves).2
      rw [ended] at stops
      exact ⟨fun _ => judged, fun sent => absurd sent stops.1⟩

omit [ByteSource σ] [WordSource γ] in
theorem Books.of_stepped {sequencer : Sequencer} {source : Tallied σ}
    (rewinds : source.rewinds = engine.source.rewinds)
    (books : (engine.stepped sequencer source).Books next status marks) :
    engine.Books next status marks :=
  ⟨books.sent, books.gaveUp, books.lateCollisions, books.underflows, books.collisions,
    rewinds ▸ books.rewinds, books.pending, books.unsent, books.deferrals⟩

theorem Judging.books_of_proceeds
    (judging : engine.Judging)
    (proceeds : Proceeds now collision engine next signals status marks) :
    engine.Books next status marks := by
  cases proceeds with
  | goesOn drives unended => exact judging.books_of_drives drives unended
  | @settles driven _ step ending outcome drives ended settles =>
      cases drives with
      | struck moves noticed =>
          have uncollided := (moves.ended_idle ended).2.2
          cases uncollided.symm.trans noticed
      | plain moves unnoticed =>
          have marked : firstEnding
              (Sequencer.marksOfStep now step ++ (outcome.map Mark.completed).toList) =
                some ending := by
            simp [ended]
          obtain ⟨judged, unjudged⟩ := judging.ends moves ended
          exact (settles.books marked judged unjudged).of_stepped moves.rewinds

/-- No verdict stands once a tick has left no attempt in progress. -/
theorem Judging.rested
    (judging : engine.Judging)
    (proceeds : Proceeds now collision engine next signals status marks)
    (idle : next.sequencer.stage = .idle) :
    next.verdict = none ∧ ¬ HasNotice marks := by
  cases proceeds with
  | goesOn drives unended =>
      have idleBefore : engine.sequencer.stage = .idle := by
        by_contra active
        exact drives.moves.active active unended idle
      obtain ⟨rfl, rfl⟩ := drives.resting idleBefore
      refine ⟨?_, not_hasNotice_nil⟩
      cases judging with
      | idle _ unjudged => exact unjudged
      | clear clear => exact absurd idle clear.active
      | struck struck => exact absurd idle struck.active
  | settles drives ended settles =>
      have uncollided := (drives.moves.ended_idle ended).2.2
      refine ⟨settles.verdict_eq, ?_⟩
      rw [hasNotice_append, not_or, Sequencer.hasNotice_marksOfStep, uncollided]
      exact ⟨Bool.false_ne_true, not_hasNotice_completed _⟩

omit [ByteSource σ] [WordSource γ] in
theorem begin_stats (engine : Engine σ γ) (now : Tick) :
    ∃ deferrals, deferrals ≤ engine.stats.deferrals + 1 ∧
      (engine.begin now).stats = { engine.stats with deferrals } := by
  cases noted : engine.deferred with
  | false =>
      refine ⟨engine.stats.deferrals, Nat.le_succ _, ?_⟩
      simp [begin, noted]
  | true =>
      refine ⟨saturatingSucc countLimit engine.stats.deferrals, Nat.min_le_left _ _, ?_⟩
      simp [begin, noted, Statistics.countDeferral]

/-- An attempt that starts counts one deferral at most, and the only collision that can be
open after its first tick is its own. -/
theorem Books.launches {free : Engine (Tallied σ) γ}
    (conforms : free.Conforms config)
    (timing : config.Timing early gap)
    (books : engine.Books free status settled)
    (unstarted : ¬ HasStart settled)
    (unnoticed : ¬ HasNotice settled)
    (unjudged : free.verdict = none)
    (drives : Drives now collision (free.begin now) next step) :
    engine.Books next status
      (settled ++ .started (free.window.nextAttempt now).number now ::
        Sequencer.marksOfStep now step) := by
  obtain ⟨stepEqual, _, _⟩ := conforms.launches timing drives
  have unended : step.ending = none := by
    rw [stepEqual]
    rfl
  let launched := Mark.started (free.window.nextAttempt now).number now ::
    Sequencer.marksOfStep now step
  have ending : firstEnding (settled ++ launched) = firstEnding settled := by
    simp [launched, unended]
  have completes : engine.completesJam (settled ++ launched) =
      engine.completesJam settled := by
    rw [completesJam, ending, completesJam]
  have noticed : HasNotice (settled ++ launched) ↔
      HasNotice (Sequencer.marksOfStep now step) := by
    rw [hasNotice_append, hasNotice_started]
    exact or_iff_right unnoticed
  have closed : free.pending = false := by simp [Engine.pending, unjudged]
  have begun : (free.begin now).Judging :=
    .clear ⟨nofun, rfl, fun _ => nofun⟩ unjudged
  have opened := begun.pending_of_drives drives
  obtain ⟨deferrals, bound, beginStats⟩ := begin_stats free now
  have stats : next.stats = { free.stats with deferrals } :=
    drives.stats.trans beginStats
  have rewinds : next.source.rewinds = free.source.rewinds := drives.rewinds
  refine ⟨?_, ?_, ?_, ?_, ?_, ?_, ?_, ?_, ?_⟩
  · rw [stats]
    exact books.sent
  · rw [stats]
    exact books.gaveUp
  · rw [stats]
    exact books.lateCollisions
  · rw [stats]
    exact books.underflows
  · rw [stats, completes]
    exact books.collisions
  · rw [rewinds, completes]
    exact books.rewinds
  · have before := books.pending
    have closedThen : (free.begin now).pending = false := closed
    rw [closed] at before
    rw [closedThen, Bool.toNat_false, Nat.zero_add] at opened
    have zero := Nat.eq_zero_of_add_eq_zero_right before.symm
    rw [ending, zero, Nat.zero_add, opened, decide_eq_decide.mpr noticed]
  · rw [ending]
    exact books.unsent
  · have before := books.deferrals
    have started : HasStart (settled ++ launched) :=
      (hasStart_append _ _).mpr (.inr (hasStart_started _ _ _))
    rw [decide_eq_false unstarted] at before
    rw [stats, decide_eq_true started]
    exact bound.trans (Nat.succ_le_succ before)

theorem Considers.books {proceeded : Engine (Tallied σ) γ} {deferral : Deferral}
    (conforms : (proceeded.deferring deferral).Conforms config)
    (timing : config.Timing early gap)
    (books : engine.Books (proceeded.deferring deferral) status settled)
    (unstarted : ¬ HasStart settled)
    (rested : proceeded.sequencer.stage = .idle →
      proceeded.verdict = none ∧ ¬ HasNotice settled)
    (considers :
      Considers now inputs ready signals (proceeded.deferring deferral) next shown started) :
    engine.Books next status (settled ++ started) := by
  cases considers with
  | launches poised free drives =>
      obtain ⟨unjudged, unnoticed⟩ := rested poised.1
      exact books.launches conforms timing unstarted unnoticed unjudged drives
  | holdsOff poised closed =>
      rw [List.append_nil]
      exact { books with }
  | passes unpoised =>
      rw [List.append_nil]
      exact books

/-- What a tick does to the counters. -/
theorem Ticks.books {outputs : Outputs}
    (judging : engine.Judging)
    (conforms : engine.Conforms config)
    (timing : config.Timing early gap)
    (ticks : Ticks now inputs engine next outputs marks) :
    engine.Books next outputs.status marks := by
  cases ticks with
  | @parts proceeded _ _ _ _ _ _ deferral _ proceeds advances considers =>
      have conformsThen : (proceeded.deferring deferral).Conforms config :=
        (conforms.proceeds proceeds).deferring advances.spans
      have books := judging.books_of_proceeds proceeds
      exact considers.books conformsThen timing { books with } proceeds.unstarted
        (judging.rested proceeds)

end Ticking

/-- How often the source is rewound on a tick. -/
def rewinds [ByteSource σ] [WordSource γ] (engine : Engine σ γ) (now : Tick)
    (inputs : Inputs) : Nat :=
  match ((engine.mapSource Tallied.tally).tick now inputs).value with
  | .ok (next, _) => next.source.rewinds
  | .error _ => 0

theorem Coherent.judging [ByteSource σ] [FrameStore σ] [PullClock σ] {config : Config}
    {engine : Engine σ γ}
    (coherent : engine.Coherent config)
    (change : σ → τ) :
    (engine.mapSource change).Judging := by
  cases coherent with
  | idle idle _ unjudged => exact .idle idle unjudged
  | clear clear _ unjudged => exact .clear clear unjudged
  | struck struck _ judged => exact .struck struck (by simp [mapSource, judged])

end Engine

/-! ## The books of a run -/

namespace Run

variable {config : Config} {σ γ : Type} [ByteSource σ] [WordSource γ]
  (run : Run config σ γ) {count noticed : Nat}

/-- An ordinary collision is noticed on a tick. -/
def Latches (tick : Nat) : Prop :=
  run.Notices tick ∧ (run.engine (tick + 1)).pending = true

instance (tick : Nat) : Decidable (run.Latches tick) :=
  inferInstanceAs (Decidable (_ ∧ _))

/-- How the attempt that was in progress after the tick `noticed` ended, unless that is still
open ahead of the tick `count`. -/
def fate (noticed count : Nat) : Option Ending :=
  firstEnding (((List.range count).drop (noticed + 1)).flatMap run.marks)

/-- Number of the ordinary collisions noticed ahead of the tick `count` whose attempt came to
the given end, or to none yet. -/
def latched (fate : Option Ending) (count : Nat) : Nat :=
  Nat.count (fun tick => run.Latches tick ∧ run.fate tick count = fate) count

/-- Number of times that the source was rewound ahead of the tick `count`. -/
def rewinds : Nat → Nat
  | 0 => 0
  | count + 1 =>
      rewinds count + (run.entering count).rewinds (run.reading count) (run.inputs count)

/-- Number of frames that left the source ahead of the tick `count`. -/
def removed [FrameStore σ] : Nat → Nat
  | 0 => 0
  | count + 1 =>
      removed count +
        ((FrameStore.frames (run.entering count).source).length -
          (FrameStore.frames (run.engine (count + 1)).source).length)

variable {run}

theorem fate_succ (earlier : noticed < count) :
    run.fate noticed (count + 1) =
      (run.fate noticed count).or (firstEnding (run.marks count)) := by
  have inside : noticed + 1 ≤ (List.range count).length := by
    rw [List.length_range]
    exact earlier
  rw [fate, List.range_succ, List.drop_append_of_le_length inside, List.flatMap_append,
    firstEnding_append, List.flatMap_singleton, fate]

theorem fate_last (count : Nat) : run.fate count (count + 1) = none := by
  have nothing : (List.range (count + 1)).drop (count + 1) = [] :=
    List.drop_eq_nil_of_le (Nat.le_of_eq List.length_range)
  rw [fate, nothing, List.flatMap_nil, firstEnding_nil]

/-- A collision stays open as long as no attempt ends. -/
theorem latched_none_succ (count : Nat) :
    run.latched none (count + 1) =
      (if firstEnding (run.marks count) = none then run.latched none count else 0) +
        (decide (run.Latches count)).toNat := by
  unfold latched
  rw [Nat.count_succ]
  congr 1
  · split
    · rename_i unended
      refine count_congr fun tick before => ?_
      rw [fate_succ before, unended, Option.or_none]
    · rename_i ended
      refine Nat.count_iff_forall_not.mpr fun tick before => ?_
      rw [fate_succ before, Option.or_eq_none_iff]
      exact fun still => ended still.2.2
  · by_cases latches : run.Latches count
    · simp [latches, fate_last]
    · simp [latches]

/-- The open collisions come to the end that the attempt comes to. -/
theorem latched_some_succ (ending : Ending) (count : Nat) :
    run.latched (some ending) (count + 1) =
      run.latched (some ending) count +
        if firstEnding (run.marks count) = some ending then run.latched none count else 0 := by
  -- The two kinds of collision counted on the right are told apart by their fate so far.
  unfold latched
  rw [Nat.count_succ, fate_last, if_neg (fun latest => nomatch latest.2), Nat.add_zero]
  split
  · rename_i ended
    rw [← count_or fun tick first second => by cases first.2.symm.trans second.2]
    refine count_congr fun tick before => ?_
    rw [fate_succ before, ended, ← and_or_left]
    cases run.fate tick count <;> simp
  · rename_i other
    refine count_congr fun tick before => ?_
    rw [fate_succ before]
    cases run.fate tick count with
    | none => simp [other]
    | some earlier => simp

/-- Every collision is open, or its attempt came to an end. -/
theorem count_latches (count : Nat) :
    Nat.count run.Latches count =
      run.latched none count + run.latched (some .sent) count +
        run.latched (some .jammed) count + run.latched (some .underflow) count := by
  induction count with
  | zero => rfl
  | succ count inductionHypothesis =>
      have latest : (if run.Latches count then 1 else 0) =
          (decide (run.Latches count)).toNat := by
        by_cases latches : run.Latches count <;> simp [latches]
      rw [Nat.count_succ, inductionHypothesis, latest, latched_none_succ, latched_some_succ,
        latched_some_succ, latched_some_succ]
      cases firstEnding (run.marks count) with
      | none => simp; omega
      | some ending => cases ending <;> simp <;> omega

section Balance

variable [FrameStore σ] [PullClock σ]

omit [PullClock σ] in
/-- A tick takes as many frames from the source as it raises indicators. -/
theorem removed_succ
    (appends : ∀ tick, tick < run.length → FrameStore.Appends (run.supply tick))
    (within : count < run.length) :
    run.removed (count + 1) = run.removed count + (run.outputs count).status.count := by
  have taken :
      (FrameStore.frames (run.entering count).source).length -
          (FrameStore.frames (run.engine (count + 1)).source).length =
        (run.outputs count).status.count := by
    cases (resolves appends within).2 with
    | leaves unraised _ kept =>
        rw [kept, Nat.sub_self, unraised]
        rfl
    | releases outcome front raised _ released =>
        rw [released, List.length_cons, Nat.add_sub_cancel_left, raised]
        cases outcome <;> rfl
  rw [removed, taken]

/-- What a tick of a run does to the counters. -/
theorem books
    (unread : FrameStore.Unread run.source)
    (appends : ∀ tick, tick < run.length → FrameStore.Appends (run.supply tick))
    (within : count < run.length) :
    ∃ tallied : Engine (Tallied σ) γ,
      ((run.entering count).mapSource Tallied.tally).Books tallied (run.outputs count).status
        (run.marks count) ∧
      tallied.stats = (run.engine (count + 1)).stats ∧
      tallied.verdict = (run.engine (count + 1)).verdict ∧
      tallied.source.rewinds =
        (run.entering count).rewinds (run.reading count) (run.inputs count) := by
  obtain ⟨early, gap, timing⟩ := run.accepted.timing
  obtain ⟨coherent, _, _⟩ := run.coherent unread appends (Nat.le_of_lt within)
  have judging := (coherent.supplied (appends count within)).judging Tallied.tally
  have conforms := (run.conforms (Nat.le_of_lt within)).supplied (run.supply count)
  obtain ⟨tallied, yields, forgotten⟩ :=
    run.lifted_tick Tallied.forget Tallied.tally (fun _ => rfl) within
  have books :=
    (Engine.tick_yields yields).books judging (conforms.mapSource Tallied.tally) timing
  have rewinds : tallied.source.rewinds =
      (run.entering count).rewinds (run.reading count) (run.inputs count) := by
    unfold Engine.rewinds
    rw [yields]
  exact ⟨tallied, books, congrArg Engine.stats forgotten, congrArg Engine.verdict forgotten,
    rewinds⟩

/-- A collision is open after a tick when it was open before and its attempt goes on, or when
it was noticed on that tick. -/
theorem pending_succ
    (unread : FrameStore.Unread run.source)
    (appends : ∀ tick, tick < run.length → FrameStore.Appends (run.supply tick))
    (within : count < run.length) :
    (run.engine (count + 1)).pending.toNat =
      (if firstEnding (run.marks count) = none then (run.engine count).pending.toNat else 0) +
        (decide (run.Latches count)).toNat := by
  obtain ⟨tallied, books, _, verdict, _⟩ := run.books unread appends within
  have pendingNext : tallied.pending = (run.engine (count + 1)).pending := by
    rw [Engine.pending, verdict, Engine.pending]
  have kept : ((run.entering count).mapSource Tallied.tally).pending =
      (run.engine count).pending :=
    rfl
  have latches : decide (run.Latches count) =
      (HasNotice (run.marks count) && (run.engine (count + 1)).pending) := by
    rw [Bool.eq_iff_iff, decide_eq_true_iff, Bool.and_eq_true, decide_eq_true_iff]
    rfl
  rw [latches, ← pendingNext, books.pending, kept]
  split <;> simp [*]

/-- The counters of the engine agree with what the run showed. -/
structure Balances (run : Run config σ γ) (count : Nat) : Prop where
  sent : (run.engine count).stats.sent =
    Nat.count (fun tick => (run.outputs tick).status.ok) count
  gaveUp : (run.engine count).stats.gaveUp =
    Nat.count (fun tick => (run.outputs tick).status.gaveUp) count
  lateCollisions : (run.engine count).stats.lateCollisions =
    Nat.count (fun tick => (run.outputs tick).status.lateCollision) count
  underflows : (run.engine count).stats.underflows =
    Nat.count (fun tick => (run.outputs tick).status.underflow) count
  removed :
    (run.engine count).stats.sent + (run.engine count).stats.gaveUp +
      (run.engine count).stats.lateCollisions + (run.engine count).stats.underflows =
        run.removed count
  collisions :
    (run.engine count).stats.collisions = run.rewinds count + (run.engine count).stats.gaveUp
  completed : (run.engine count).stats.collisions = run.latched (some .jammed) count
  pending : run.latched none count = (run.engine count).pending.toNat
  unsent : run.latched (some .sent) count = 0
  deferrals : (run.engine count).stats.deferrals ≤ Nat.count run.Starts count

omit [PullClock σ] in
theorem balances_of_setUp : run.Balances 0 := by
  obtain ⟨_, deferral, sequencer, _, _, engineEqual⟩ := Engine.ofConfig_eq_ok run.setUp
  have stats : (run.engine 0).stats = {} := by rw [engineEqual]
  have closed : (run.engine 0).pending = false := by
    rw [engineEqual]
    rfl
  exact {
    sent := congrArg Statistics.sent stats
    gaveUp := congrArg Statistics.gaveUp stats
    lateCollisions := congrArg Statistics.lateCollisions stats
    underflows := congrArg Statistics.underflows stats
    removed := by
      rw [stats]
      rfl
    collisions := by
      rw [stats]
      rfl
    completed := congrArg Statistics.collisions stats
    pending := by
      rw [closed]
      rfl
    unsent := rfl
    deferrals := by
      rw [stats]
      exact Nat.zero_le _ }

/-- One tick keeps the books balanced. -/
theorem Balances.ticks
    (unread : FrameStore.Unread run.source)
    (appends : ∀ tick, tick < run.length → FrameStore.Appends (run.supply tick))
    (within : count < run.length)
    (unsaturated : (run.engine (count + 1)).stats.Unsaturated)
    (balances : run.Balances count) :
    run.Balances (count + 1) := by
  obtain ⟨tallied, books, stats, verdict, rewound⟩ := run.books unread appends within
  have bounded : tallied.stats.Unsaturated := stats ▸ unsaturated
  have sent : (run.engine (count + 1)).stats.sent =
      (run.engine count).stats.sent + (run.outputs count).status.ok.toNat :=
    stats ▸ eq_add_of_bumped books.sent bounded.sent
  have gaveUp : (run.engine (count + 1)).stats.gaveUp =
      (run.engine count).stats.gaveUp + (run.outputs count).status.gaveUp.toNat :=
    stats ▸ eq_add_of_bumped books.gaveUp bounded.gaveUp
  have lateCollisions : (run.engine (count + 1)).stats.lateCollisions =
      (run.engine count).stats.lateCollisions +
        (run.outputs count).status.lateCollision.toNat :=
    stats ▸ eq_add_of_bumped books.lateCollisions bounded.lateCollisions
  have underflows : (run.engine (count + 1)).stats.underflows =
      (run.engine count).stats.underflows + (run.outputs count).status.underflow.toNat :=
    stats ▸ eq_add_of_bumped books.underflows bounded.underflows
  have collisions : (run.engine (count + 1)).stats.collisions =
      (run.engine count).stats.collisions +
        ((run.engine count).completesJam (run.marks count)).toNat :=
    stats ▸ eq_add_of_bumped books.collisions bounded.collisions
  have rewinds : run.rewinds (count + 1) + (run.outputs count).status.gaveUp.toNat =
      run.rewinds count + ((run.engine count).completesJam (run.marks count)).toNat := by
    have tick : tallied.source.rewinds + (run.outputs count).status.gaveUp.toNat =
        0 + ((run.engine count).completesJam (run.marks count)).toNat :=
      books.rewinds
    rw [Run.rewinds, ← rewound]
    omega
  have unsent : (if firstEnding (run.marks count) = some .sent then
      (run.engine count).pending.toNat else 0) = 0 := by
    split
    · rename_i sent
      cases open? : (run.engine count).pending with
      | false => rfl
      | true => exact absurd sent (books.unsent open?)
    · rfl
  exact {
    sent := by rw [sent, balances.sent, count_flag_succ]
    gaveUp := by rw [gaveUp, balances.gaveUp, count_flag_succ]
    lateCollisions := by rw [lateCollisions, balances.lateCollisions, count_flag_succ]
    underflows := by rw [underflows, balances.underflows, count_flag_succ]
    removed := by
      rw [removed_succ appends within, ← balances.removed, sent, gaveUp, lateCollisions,
        underflows, Indicators.count]
      omega
    collisions := by
      rw [collisions, balances.collisions, gaveUp]
      omega
    completed := by
      rw [collisions, balances.completed, latched_some_succ, balances.pending,
        Engine.toNat_completesJam]
    pending := by
      rw [latched_none_succ, balances.pending, pending_succ unread appends within]
    unsent := by rw [latched_some_succ, balances.unsent, balances.pending, unsent]
    deferrals := by
      have tick : tallied.stats.deferrals ≤
          (run.engine count).stats.deferrals + (decide (run.Starts count)).toNat :=
        books.deferrals
      have before := balances.deferrals
      rw [Nat.count_succ, ← stats]
      by_cases starts : run.Starts count
      · rw [decide_eq_true starts, Bool.toNat_true] at tick
        rw [if_pos starts]
        omega
      · rw [decide_eq_false starts, Bool.toNat_false] at tick
        rw [if_neg starts]
        omega }

/-- Counters that are not saturated were not saturated a tick ago. -/
theorem unsaturated_before
    (unread : FrameStore.Unread run.source)
    (appends : ∀ tick, tick < run.length → FrameStore.Appends (run.supply tick))
    (within : count < run.length)
    (unsaturated : (run.engine (count + 1)).stats.Unsaturated) :
    (run.engine count).stats.Unsaturated := by
  obtain ⟨tallied, books, stats, _, _⟩ := run.books unread appends within
  have bounded : tallied.stats.Unsaturated := stats ▸ unsaturated
  exact {
    sent := unsaturated_of_bumped books.sent bounded.sent
    collisions := unsaturated_of_bumped books.collisions bounded.collisions
    lateCollisions := unsaturated_of_bumped books.lateCollisions bounded.lateCollisions
    gaveUp := unsaturated_of_bumped books.gaveUp bounded.gaveUp
    underflows := unsaturated_of_bumped books.underflows bounded.underflows }

theorem balances
    (unread : FrameStore.Unread run.source)
    (appends : ∀ tick, tick < run.length → FrameStore.Appends (run.supply tick))
    (within : count ≤ run.length)
    (unsaturated : (run.engine count).stats.Unsaturated) :
    run.Balances count := by
  induction count with
  | zero => exact balances_of_setUp
  | succ count inductionHypothesis =>
      have before := unsaturated_before unread appends within unsaturated
      have balances := inductionHypothesis (Nat.le_of_succ_le within) before
      exact balances.ticks unread appends within unsaturated

/-- The statistics account exactly for the run, as long as no counter is saturated.  The
outcomes counted are the indicators raised and the frames taken from the source.  The
collisions counted are the ordinary ones whose jam is over, each of which led to a rewind or
to the end of its frame; not counted are those whose attempt ended in an underflow, and one
that may be open.  An attempt is counted as deferred at most once. -/
theorem statistics_account_for_run
    (unread : FrameStore.Unread run.source)
    (appends : ∀ tick, tick < run.length → FrameStore.Appends (run.supply tick))
    (within : count ≤ run.length)
    (unsaturated : (run.engine count).stats.Unsaturated) :
    let stats := (run.engine count).stats
    stats.sent = Nat.count (fun tick => (run.outputs tick).status.ok) count ∧
    stats.gaveUp = Nat.count (fun tick => (run.outputs tick).status.gaveUp) count ∧
    stats.lateCollisions =
      Nat.count (fun tick => (run.outputs tick).status.lateCollision) count ∧
    stats.underflows = Nat.count (fun tick => (run.outputs tick).status.underflow) count ∧
    stats.sent + stats.gaveUp + stats.lateCollisions + stats.underflows =
      run.removed count ∧
    stats.collisions = run.rewinds count + stats.gaveUp ∧
    stats.collisions = run.latched (some .jammed) count ∧
    Nat.count run.Latches count =
      stats.collisions + run.latched (some .underflow) count + run.latched none count ∧
    run.latched none count ≤ 1 ∧
    stats.deferrals ≤ Nat.count run.Starts count := by
  have balances := balances unread appends within unsaturated
  have latches := run.count_latches count
  rw [balances.unsent, ← balances.completed] at latches
  refine ⟨balances.sent, balances.gaveUp, balances.lateCollisions, balances.underflows,
    balances.removed, balances.collisions, balances.completed, by omega, ?_,
    balances.deferrals⟩
  rw [balances.pending]
  exact Bool.toNat_le _

/-- Of five frames the first is given up, the second starves with a collision pending, the
third meets a late collision, the fourth is sent after a deferral, and the last has a
collision that is open when the run ends. -/
def mixedScenario : Scenario ScriptedSource ZeroWords where
  source := FrameStore.offerAll ScriptedSource.empty [
    ScriptedFrame.ofBytes [0xA5],
    { entries := [.octet (.byte 0x5A), .stall] },
    ScriptedFrame.ofBytes [0xA5],
    ScriptedFrame.ofBytes [0x5A],
    ScriptedFrame.ofBytes [0xA5]]
  words := {}
  inputs count := {
    carrier := count = 31
    collision := count = 3 ∨ count = 9 ∨ count = 17 ∨ count = 26 ∨ count = 49 }

def mixedRun : Run { Config.brief with slotBytes := 2 } ScriptedSource ZeroWords :=
  (mixedScenario.run? { Config.brief with slotBytes := 2 } 51).get (by decide +kernel)

theorem statistics_account_for_run_mixedRun :
    FrameStore.Unread mixedRun.source ∧
      (∀ tick, tick < mixedRun.length → FrameStore.Appends (mixedRun.supply tick)) ∧
      (mixedRun.engine 51).stats.Unsaturated ∧
      Nat.count (fun tick => (mixedRun.outputs tick).status.ok) 51 = 1 ∧
      mixedRun.removed 51 = 4 ∧ mixedRun.rewinds 51 = 1 ∧
      mixedRun.latched (some .jammed) 51 = 2 ∧
      Nat.count mixedRun.Latches 51 =
        2 + mixedRun.latched (some .underflow) 51 + mixedRun.latched none 51 ∧
      mixedRun.latched (some .underflow) 51 = 1 ∧ mixedRun.latched none 51 = 1 ∧
      0 < Nat.count mixedRun.Starts 51 := by
  have unread : FrameStore.Unread mixedRun.source := ⟨rfl, rfl⟩
  have appends : ∀ tick, tick < mixedRun.length →
      FrameStore.Appends (mixedRun.supply tick) :=
    fun _ _ => ⟨[], fun _ => rfl⟩
  have stats : (mixedRun.engine 51).stats = {
      sent := 1, collisions := 2, lateCollisions := 1, gaveUp := 1, underflows := 1,
      deferrals := 1 } := by
    decide +kernel
  have unsaturated : (mixedRun.engine 51).stats.Unsaturated := by
    rw [stats]
    exact ⟨by decide, by decide, by decide, by decide, by decide⟩
  obtain ⟨sent, _, _, _, removed, collisions, completed, latches, _, deferrals⟩ :=
    statistics_account_for_run unread appends (by decide +kernel) unsaturated
  rw [stats] at sent removed collisions completed latches deferrals
  exact ⟨unread, appends, unsaturated, sent.symm, removed.symm,
    Nat.add_right_cancel collisions.symm, completed.symm, latches, by decide +kernel,
    by decide +kernel, deferrals⟩

end Balance

end Run

end HalfDuplex
