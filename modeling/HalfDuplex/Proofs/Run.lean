import HalfDuplex.Proofs.Conformance

/-!
# Runs of the engine

A `Run` is an engine that was set up and then ticked a number of times without a fault.
Between two ticks anything may be done to the source; what is done, the readings of the
timer and the inputs are data of the run, and a statement that needs to restrict them
says so.

The engine after `count` ticks is `run.engine count`, and the tick with the number
`count` takes `run.entering count`, the engine with its source supplied, to
`run.engine (count + 1)`.
-/

namespace HalfDuplex

/-- An engine that was set up with a configuration, and ticked without a fault. -/
structure Run (config : Config) (σ γ : Type) [ByteSource σ] [WordSource γ] where
  /-- How often the engine was ticked. -/
  length : Nat
  /-- The source that the engine was set up with. -/
  source : σ
  /-- The source of backoffs that the engine was set up with. -/
  words : γ
  /-- The reading of the timer when the engine was set up. -/
  origin : Tick
  /-- What is done to the source ahead of a tick. -/
  supply : Nat → σ → σ
  /-- The reading of the timer on a tick. -/
  reading : Nat → Tick
  /-- The inputs sampled on a tick. -/
  inputs : Nat → Inputs
  /-- The engine after a number of ticks. -/
  engine : Nat → Engine σ γ
  /-- What the engine shows on a tick. -/
  outputs : Nat → Outputs
  /-- What is recorded on a tick. -/
  events : Nat → List Event
  /-- The engine was set up. -/
  setUp : (Engine.ofConfig config source words origin).value = .ok (.ok (engine 0))
  /-- Each tick ran through. -/
  ticked : ∀ count, count < length →
    (((engine count).supplied (supply count)).tick (reading count) (inputs count)).Yields
      (events count) (engine (count + 1), outputs count)

namespace Run

variable {config : Config} {σ γ : Type} [ByteSource σ] [WordSource γ]
  (run : Run config σ γ) {count : Nat}

/-- The engine as it enters a tick, with its source supplied. -/
def entering (count : Nat) : Engine σ γ :=
  (run.engine count).supplied (run.supply count)

/-- The marks left on a tick. -/
def marks (count : Nat) : List Mark :=
  marksOf (run.reading count) (run.events count)

/-- The marks of the ticks before `count`, the earliest one first. -/
def chronicle (count : Nat) : List Mark :=
  (List.range count).flatMap run.marks

/-- An attempt starts on a tick. -/
def Starts (count : Nat) : Prop :=
  HasStart (run.marks count)

/-- A collision is noticed on a tick. -/
def Notices (count : Nat) : Prop :=
  HasNotice (run.marks count)

instance (count : Nat) : Decidable (run.Starts count) :=
  inferInstanceAs (Decidable (HasStart _))

instance (count : Nat) : Decidable (run.Notices count) :=
  inferInstanceAs (Decidable (HasNotice _))

/-- The last attempt to start before the tick `count` is the one of the tick `start`. -/
structure LastStart (start count : Nat) : Prop where
  starts : run.Starts start
  before : start < count
  last : ∀ tick, start < tick → tick < count → ¬ run.Starts tick

variable {run} in
theorem LastStart.next {start : Nat}
    (lastStart : run.LastStart start count)
    (unstarted : ¬ run.Starts count) :
    run.LastStart start (count + 1) where
  starts := lastStart.starts
  before := Nat.lt_succ_of_lt lastStart.before
  last := by
    intro tick after before
    rcases Nat.lt_succ_iff_lt_or_eq.mp before with earlier | rfl
    · exact lastStart.last tick after earlier
    · exact unstarted

variable {run} in
theorem LastStart.earlier {start : Nat}
    (lastStart : run.LastStart start (count + 1))
    (started : start < count) :
    run.LastStart start count :=
  ⟨lastStart.starts, started, fun tick after before =>
    lastStart.last tick after (Nat.lt_succ_of_lt before)⟩

variable {run} in
theorem LastStart.unique {start other : Nat}
    (lastStart : run.LastStart start count)
    (otherStart : run.LastStart other count) :
    start = other := by
  rcases Nat.lt_trichotomy start other with before | same | after
  · exact absurd otherStart.starts (lastStart.last other before otherStart.before)
  · exact same
  · exact absurd lastStart.starts (otherStart.last start after lastStart.before)

variable {run} in
theorem Starts.lastStart
    (starts : run.Starts count) :
    run.LastStart count (count + 1) where
  starts := starts
  before := Nat.lt_succ_self count
  last := by
    intro tick after before
    exact absurd (Nat.le_of_lt_succ before) (Nat.not_le.mpr after)

theorem ticks (within : count < run.length) :
    Engine.Ticks (run.reading count) (run.inputs count) (run.entering count)
      (run.engine (count + 1)) (run.outputs count) (run.marks count) :=
  Engine.tick_yields (run.ticked count within)

theorem chronicle_succ (count : Nat) :
    run.chronicle (count + 1) = run.chronicle count ++ run.marks count := by
  simp [chronicle, List.range_succ]

include run in
theorem accepted : config.Accepted :=
  (Engine.ofConfig_eq_ok run.setUp).1

/-! What stands when the engine is set up. -/

theorem idle_at_setUp : (run.engine 0).sequencer.stage = .idle := by
  obtain ⟨_, _, _, _, sequencerEqual, engineEqual⟩ := Engine.ofConfig_eq_ok run.setUp
  obtain ⟨plan, _, rfl⟩ := Sequencer.ofConfig_eq_ok sequencerEqual
  rw [engineEqual]

theorem source_at_setUp : (run.engine 0).source = run.source := by
  obtain ⟨_, _, _, _, _, engineEqual⟩ := Engine.ofConfig_eq_ok run.setUp
  rw [engineEqual]

theorem deferral_at_setUp : (run.engine 0).deferral.state = .early run.origin := by
  obtain ⟨_, _, _, deferralEqual, _, engineEqual⟩ := Engine.ofConfig_eq_ok run.setUp
  rw [engineEqual]
  exact (Deferral.ofConfig_eq_ok deferralEqual).2.2

theorem conforms (within : count ≤ run.length) :
    (run.engine count).Conforms config := by
  induction count with
  | zero => exact .of_setUp run.setUp
  | succ count inductionHypothesis =>
      have before := inductionHypothesis (Nat.le_of_succ_le within)
      exact (before.supplied (run.supply count)).ticks (run.ticks within)

end Run

end HalfDuplex
