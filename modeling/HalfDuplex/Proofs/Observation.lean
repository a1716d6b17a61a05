import HalfDuplex.Proofs.Run

/-!
# Observing a source

What the source is asked on a tick cannot be read off the engine afterwards.  A `Watched`
source keeps a list of it: of each pull the source as it was then, and its answer.  The
engine is indifferent to being watched: a tick over the watched source is the tick over
the source, with the list on the side.

That indifference is no accident of `Watched`.  A `SourceMap` is any change of sources that
commutes with their operations, and each part of the engine commutes with it.  The sequencer
does nothing to a source but pull from it, so a `PullMap` is enough for what it does.
-/

namespace HalfDuplex

/-- A change from one kind of source to another that pulling commutes with. -/
structure PullMap (σ τ : Type) [ByteSource σ] [ByteSource τ] where
  apply : σ → τ
  pull : ∀ source now,
    ByteSource.pull (apply source) now =
      (ByteSource.pull source now).map fun answered => (apply answered.1, answered.2)

/-- A change from one kind of source to another that all operations commute with. -/
structure SourceMap (σ τ : Type) [ByteSource σ] [ByteSource τ] extends PullMap σ τ where
  ready : ∀ source, ByteSource.ready (apply source) = ByteSource.ready source
  rewind : ∀ source, ByteSource.rewind (apply source) = apply (ByteSource.rewind source)
  release : ∀ source, ByteSource.release (apply source) = apply (ByteSource.release source)

variable {σ τ γ : Type}

theorem Traced.lift_map {α β : Type} (value : Except Fault α) (change : α → β) :
    lift (value.map change) = change <$> lift value := by
  cases value <;> rfl

theorem Traced.yields_of_map {α β : Type} {change : α → β} {operation : Traced α}
    {events : List Event} {b : β}
    (yields : (change <$> operation).Yields events b) :
    ∃ a, operation.Yields events a ∧ change a = b := by
  rw [← bind_pure_comp] at yields
  simp only [yields_bind, yields_pure] at yields
  obtain ⟨a, before, after, operated, ⟨rfl, changed⟩, rfl⟩ := yields
  rw [List.append_nil]
  exact ⟨a, operated, changed⟩

/-! ## The sequencer over a changed source -/

namespace Sequencer

variable [ByteSource σ] [ByteSource τ] (f : PullMap σ τ) (sequencer : Sequencer)
  (now : Tick) (source : σ)

/-- What an operation of the sequencer leaves behind, with the source changed. -/
def along {α : Type} (f : PullMap σ τ) (left : Sequencer × σ × α) : Sequencer × τ × α :=
  (left.1, f.apply left.2.1, left.2.2)

theorem loadData_map :
    sequencer.loadData now (f.apply source) =
      along f <$> sequencer.loadData now source := by
  unfold loadData
  rw [f.pull, Traced.lift_map]
  simp only [map_bind, bind_map_left]
  congr 1
  funext ⟨after, answer⟩
  rcases answer with (octet | _ | _)
  · cases octet <;> simp [along]
  · simp [along]
  · simp [along]

theorem load_map :
    sequencer.load now (f.apply source) = along f <$> sequencer.load now source := by
  unfold load
  split
  · simp [along]
  · split
    · simp [along]
    · exact loadData_map f sequencer now source
  · exact loadData_map f sequencer now source
  · simp [along]
  · simp [along]
  · simp [along]
  · simp [along]

theorem abandon_map :
    sequencer.abandon now (f.apply source) =
      along f <$> sequencer.abandon now source := by
  unfold abandon
  simp only
  split
  · rw [f.pull, Traced.lift_map]
    simp only [map_bind, bind_map_left]
    congr 1
    funext ⟨after, answer⟩
    by_cases starved : answer = .starved
    · simp [along, starved]
    · simp [along, starved]
  · simp [along]

theorem boundary_map :
    sequencer.boundary now (f.apply source) =
      along f <$> sequencer.boundary now source := by
  unfold boundary
  split
  · exact abandon_map f sequencer now source
  · exact load_map f sequencer now source

theorem stepBoundary_map (collision : Bool) :
    sequencer.stepBoundary now collision (f.apply source) =
      along f <$> sequencer.stepBoundary now collision source := by
  unfold stepBoundary
  rw [boundary_map]
  simp only [map_bind, bind_map_left]
  congr 1
  funext ⟨loaded, after, ending⟩
  cases ending <;> simp [along]

theorem step_map (collision : Bool) :
    sequencer.step now collision (f.apply source) =
      along f <$> sequencer.step now collision source := by
  unfold step
  by_cases idle : sequencer.stage = .idle
  · simp [idle, along]
  · simp only [idle, if_false, map_bind]
    congr 1
    funext phase
    by_cases between : phase ≠ 0
    · simp [between, along]
    · rw [if_neg between, if_neg between]
      by_cases high : sequencer.highNext
      · simp [high, along]
      · rw [if_neg high, if_neg high]
        exact stepBoundary_map f sequencer now source collision

end Sequencer

/-! ## The engine over a changed source -/

namespace Engine

/-- The engine over another source. -/
def mapSource (engine : Engine σ γ) (change : σ → τ) : Engine τ γ :=
  { engine with source := change engine.source }

@[simp]
theorem mapSource_source (engine : Engine σ γ) (change : σ → τ) :
    (engine.mapSource change).source = change engine.source :=
  rfl

@[simp]
theorem mapSource_sequencer (engine : Engine σ γ) (change : σ → τ) :
    (engine.mapSource change).sequencer = engine.sequencer :=
  rfl

@[simp]
theorem mapSource_backoffDone (engine : Engine σ γ) (change : σ → τ) (now : Tick) :
    (engine.mapSource change).backoffDone now = engine.backoffDone now :=
  rfl

theorem Conforms.mapSource {config : Config} {engine : Engine σ γ}
    (conforms : engine.Conforms config) (change : σ → τ) :
    (engine.mapSource change).Conforms config :=
  ⟨conforms.plan, conforms.limits, conforms.earlyTicks, conforms.gapTicks⟩

variable [ByteSource σ] [ByteSource τ] (f : SourceMap σ τ) (engine : Engine σ γ)
  (now : Tick)

/-- What an operation of the engine leaves behind, with the source changed. -/
def along {α : Type} (f : SourceMap σ τ) (left : Engine σ γ × α) : Engine τ γ × α :=
  (left.1.mapSource f.apply, left.2)

theorem finish_map (outcome : Outcome) :
    (engine.mapSource f.apply).finish now outcome =
      along f <$> engine.finish now outcome := by
  simp [finish, along, mapSource, f.release]

theorem settle_map (ending : Ending) :
    (engine.mapSource f.apply).settle now ending =
      along f <$> engine.settle now ending := by
  cases ending with
  | sent => exact finish_map f engine now .ok
  | underflow => exact finish_map f engine now .underflow
  | jammed =>
      have kept : (engine.mapSource f.apply).verdict = engine.verdict := rfl
      cases verdict : engine.verdict with
      | none => simp [settle, verdict, along, mapSource, rewindSource, f.rewind]
      | some judged =>
          cases judged with
          | retry slots delay =>
              simp [settle, verdict, along, mapSource, rewindSource, f.rewind]
          | giveUp =>
              simp only [settle, kept, verdict]
              exact finish_map f { engine with stats := engine.stats.countCollision } now _
          | late =>
              simp only [settle, kept, verdict]
              exact finish_map f engine now .lateCollision

variable [WordSource γ]

theorem drive_map (collision : Bool) :
    (engine.mapSource f.apply).drive now collision =
      along f <$> engine.drive now collision := by
  unfold drive
  rw [mapSource_sequencer, mapSource_source, Sequencer.step_map]
  simp only [map_bind, bind_map_left]
  congr 1
  funext ⟨sequencer, source, step⟩
  by_cases noticed : step.collided
  · simp [Sequencer.along, along, mapSource, noticed]
  · simp [Sequencer.along, along, mapSource, noticed]

theorem proceed_map (collision : Bool) :
    (engine.mapSource f.apply).proceed now collision =
      along f <$> engine.proceed now collision := by
  unfold proceed
  rw [drive_map]
  simp only [map_bind, bind_map_left]
  congr 1
  funext ⟨driven, step⟩
  cases ended : step.ending with
  | none => simp [along, ended]
  | some ending =>
      simp only [along, ended]
      rw [settle_map]
      simp only [map_bind, bind_map_left]
      congr 1
      funext ⟨settled, outcome⟩
      cases outcome <;> simp [along]

theorem launch_map (collision : Bool) :
    (engine.mapSource f.apply).launch now collision =
      along f <$> engine.launch now collision := by
  have begun : (engine.mapSource f.apply).begin now = (engine.begin now).mapSource f.apply :=
    rfl
  have window : (engine.mapSource f.apply).window = engine.window := rfl
  simp [launch, begun, window, drive_map, along]

theorem consider_map (inputs : Inputs) (ready : Bool) (signals : Signals) :
    (engine.mapSource f.apply).consider now inputs ready signals =
      along f <$> engine.consider now inputs ready signals := by
  unfold consider
  rw [mapSource_sequencer, mapSource_source, mapSource_backoffDone, f.ready]
  by_cases mayStart :
      (!engine.sequencer.active && ByteSource.ready engine.source &&
        engine.backoffDone now) = true
  · rw [if_pos mayStart, if_pos mayStart]
    by_cases free : ready
    · rw [if_pos free, if_pos free]
      exact launch_map f engine now inputs.collision
    · simp [free, along, mapSource]
  · simp [mayStart, along]

/-- A tick over a changed source is the tick, with the source changed. -/
theorem tick_map (inputs : Inputs) :
    (engine.mapSource f.apply).tick now inputs = along f <$> engine.tick now inputs := by
  unfold tick
  rw [proceed_map]
  simp only [map_bind, bind_map_left]
  congr 1
  funext ⟨proceeded, signals, status⟩
  have kept : (proceeded.mapSource f.apply).deferral = proceeded.deferral := rfl
  simp only [along, kept]
  congr 1
  funext ⟨deferral, ready⟩
  have considers :=
    consider_map f { proceeded with deferral } now inputs ready signals
  simp only [mapSource] at considers
  simp [considers, along, mapSource]

end Engine

/-! ## Watching a source -/

/-- A source together with what it was asked: the source on each pull, and its answer. -/
structure Watched (σ : Type) where
  source : σ
  asked : List (σ × Pull) := []

namespace Watched

variable [ByteSource σ]

instance : ByteSource (Watched σ) where
  ready watched := ByteSource.ready watched.source
  pull watched now :=
    (ByteSource.pull watched.source now).map fun answered =>
      ({ source := answered.1, asked := watched.asked ++ [(watched.source, answered.2)] },
        answered.2)
  rewind watched := { watched with source := ByteSource.rewind watched.source }
  release watched := { watched with source := ByteSource.release watched.source }

/-- Forgets what a source was asked. -/
def forget : SourceMap (Watched σ) σ where
  apply := source
  ready _ := rfl
  pull watched now := by
    cases pulled : ByteSource.pull watched.source now <;>
      simp [ByteSource.pull, pulled, Except.map]
  rewind _ := rfl
  release _ := rfl

/-- A source that was not asked anything yet. -/
def watch (source : σ) : Watched σ where
  source

/-- The source was asked once. -/
def Pulled (now : Tick) (watched after : Watched σ) : Prop :=
  ∃ answer, ByteSource.pull watched.source now = .ok (after.source, answer) ∧
    after.asked = watched.asked ++ [(watched.source, answer)]

theorem pulled_of_eq_ok {watched after : Watched σ} {now : Tick} {answer : Pull}
    (pulled : ByteSource.pull watched now = .ok (after, answer)) :
    watched.Pulled now after := by
  cases answered : ByteSource.pull watched.source now with
  | error fault => simp [ByteSource.pull, answered, Except.map] at pulled
  | ok left =>
      simp only [ByteSource.pull, answered, Except.map, Except.ok.injEq,
        Prod.mk.injEq] at pulled
      rcases pulled with ⟨rfl, rfl⟩
      exact ⟨left.2, answered, rfl⟩

end Watched

namespace Sequencer

variable [ByteSource σ] {now : Tick} {collision : Bool} {sequencer next loaded : Sequencer}
  {source after : σ} {step : SequencerStep}

/-- The byte that comes next is asked of the source.  A pending collision prevents that
only ahead of the first octet. -/
def Among (sequencer : Sequencer) : Prop :=
  sequencer.stage = .data ∨ sequencer.aborting = false ∧ sequencer.Pulling

/-- A tick asks the source. -/
structure Asks (sequencer : Sequencer) : Prop where
  due : sequencer.elapsed % sequencer.plan.nibbleTicks = 0
  low : sequencer.highNext = false
  among : sequencer.Among

theorem not_among
    (notData : sequencer.stage ≠ .data)
    (unpulling : ¬ sequencer.Pulling) :
    ¬ sequencer.Among := by
  rintro (data | ⟨_, pulling⟩)
  · exact notData data
  · exact unpulling pulling

theorem not_among_of_stage {stage : Stage}
    (current : sequencer.stage = stage)
    (notData : stage ≠ .data)
    (notPreamble : stage ≠ .preamble) :
    ¬ sequencer.Among := by
  have unpulling : ¬ sequencer.Pulling := by
    rintro (data | ⟨preamble, _⟩)
    · exact notData (current.symm.trans data)
    · exact notPreamble (current.symm.trans preamble)
  exact not_among (current ▸ notData) unpulling

theorem Exhausted.asked {position : Nat}
    (calm : sequencer.aborting = false)
    (exhausted : Exhausted now sequencer source position after) :
    sequencer.Among ∧ (∃ answer, ByteSource.pull source now = .ok (after, answer)) ∨
      ¬ sequencer.Among ∧ after = source := by
  cases exhausted with
  | finished pulling pulled =>
      exact .inl ⟨.inr ⟨calm, pulling⟩, _, pulled⟩
  | padding stage => exact .inr ⟨not_among_of_stage stage nofun nofun, rfl⟩

/-- A byte boundary asks the source once, or not at all. -/
theorem Boundary.asked {ending : Option Ending}
    (boundary : Boundary now sequencer source loaded after ending) :
    sequencer.Among ∧ (∃ answer, ByteSource.pull source now = .ok (after, answer)) ∨
      ¬ sequencer.Among ∧ after = source := by
  cases boundary with
  | preamble stage missing calm =>
      have notData : sequencer.stage ≠ .data := by simp [stage]
      exact .inr ⟨not_among notData (not_pulling stage missing), rfl⟩
  | octet pulling pulled calm =>
      exact .inl ⟨.inr ⟨calm, pulling⟩, _, pulled⟩
  | starved pulling pulled calm =>
      exact .inl ⟨.inr ⟨calm, pulling⟩, _, pulled⟩
  | pad exhausted short calm => exact exhausted.asked calm
  | firstCheck exhausted full place calm => exact exhausted.asked calm
  | check stage => exact .inr ⟨not_among_of_stage stage nofun nofun, rfl⟩
  | sent stage => exact .inr ⟨not_among_of_stage stage nofun nofun, rfl⟩
  | marked stage => exact .inr ⟨not_among_of_stage stage nofun nofun, rfl⟩
  | jamming stage => exact .inr ⟨not_among_of_stage stage nofun nofun, rfl⟩
  | jamOver stage => exact .inr ⟨not_among_of_stage stage nofun nofun, rfl⟩
  | abandoned aborting abortable discards =>
      cases discards with
      | unasked notData =>
          have notAmong : ¬ sequencer.Among := by
            rintro (data | ⟨calm, _⟩)
            · exact notData data
            · simp [aborting] at calm
          exact .inr ⟨notAmong, rfl⟩
      | asked data pulled => exact .inl ⟨.inl data, _, pulled⟩
  | abandonedStarved aborting data pulled =>
      exact .inl ⟨.inl data, _, pulled⟩

/-- A tick of the sequencer asks the source once, or not at all. -/
theorem Moves.asked
    (moves : Moves now collision sequencer source next after step) :
    sequencer.Asks ∧ (∃ answer, ByteSource.pull source now = .ok (after, answer)) ∨
      ¬ sequencer.Asks ∧ after = source := by
  cases moves with
  | rests idle =>
      have notAmong := not_among_of_stage idle nofun nofun
      exact .inr ⟨fun asks => notAmong asks.among, rfl⟩
  | holds active between => exact .inr ⟨fun asks => between asks.due, rfl⟩
  | continues active due high notOver =>
      refine .inr ⟨fun asks => ?_, rfl⟩
      cases high.symm.trans asks.low
  | begins active due low boundary notOver =>
      rcases boundary.asked with ⟨among, pulled⟩ | ⟨notAmong, kept⟩
      · exact .inl ⟨⟨due, low, among⟩, pulled⟩
      · exact .inr ⟨fun asks => notAmong asks.among, kept⟩
  | ends active due low boundary =>
      rcases boundary.asked with ⟨among, pulled⟩ | ⟨notAmong, kept⟩
      · exact .inl ⟨⟨due, low, among⟩, pulled⟩
      · exact .inr ⟨fun asks => notAmong asks.among, kept⟩

end Sequencer

namespace Engine

variable [ByteSource σ] {config : Config} {now early gap : Tick} {inputs : Inputs}
  {watching next : Engine (Watched σ) γ}

theorem Settles.asked {ending : Ending} {outcome : Option Outcome}
    (settles : Settles now watching ending next outcome) :
    next.source.asked = watching.source.asked := by
  cases settles <;> rfl

variable [WordSource γ]

theorem Considers.asked {ready : Bool} {signals shown : Signals} {marks : List Mark}
    (conforms : watching.Conforms config)
    (timing : config.Timing early gap)
    (considers : Considers now inputs ready signals watching next shown marks) :
    next.source.asked = watching.source.asked := by
  cases considers with
  | launches poised free drives =>
      have launched := conforms.launches timing drives
      rw [launched.2.2]
  | holdsOff => rfl
  | passes => rfl

/-- Only the attempt in progress asks the source, at most once on a tick. -/
theorem Ticks.asked {outputs : Outputs} {marks : List Mark}
    (conforms : watching.Conforms config)
    (timing : config.Timing early gap)
    (ticks : Ticks now inputs watching next outputs marks) :
    (watching.sequencer.Asks ∧ ∃ after answer,
      ByteSource.pull watching.source.source now = .ok (after, answer) ∧
        next.source.asked =
          watching.source.asked ++ [(watching.source.source, answer)]) ∨
      ¬ watching.sequencer.Asks ∧ next.source.asked = watching.source.asked := by
  cases ticks with
  | parts proceeds advances considers =>
      have conformsThen := (conforms.proceeds proceeds).deferring advances.spans
      have kept := considers.asked conformsThen timing
      obtain ⟨driven, step, drives, settled⟩ :
          ∃ (driven : Engine (Watched σ) γ) (step : SequencerStep),
            Drives now inputs.collision watching driven step ∧
              next.source.asked = driven.source.asked := by
        cases proceeds with
        | goesOn drives unended => exact ⟨_, _, drives, kept⟩
        | settles drives ended settles => exact ⟨_, _, drives, kept.trans settles.asked⟩
      rw [settled]
      rcases drives.moves.asked with ⟨asks, _, answered⟩ | ⟨silent, same⟩
      · obtain ⟨answer, pulled, noted⟩ := Watched.pulled_of_eq_ok answered
        exact .inl ⟨asks, driven.source.source, answer, pulled, noted⟩
      · exact .inr ⟨silent, congrArg Watched.asked same⟩

def asked (engine : Engine σ γ) (now : Tick) (inputs : Inputs) : List (σ × Pull) :=
  match ((engine.mapSource Watched.watch).tick now inputs).value with
  | .ok (next, _) => next.source.asked
  | .error _ => []

end Engine

namespace Run

variable {config : Config} [ByteSource σ] [WordSource γ] (run : Run config σ γ)
  {count : Nat}

/-- What the source is asked on a tick: the source as it is then, and its answer. -/
def asked (count : Nat) : List (σ × Pull) :=
  (run.entering count).asked (run.reading count) (run.inputs count)

/-- A tick over a source that keeps more, of which `f` forgets what is kept, is the tick. -/
theorem lifted_tick [ByteSource τ] (f : SourceMap τ σ) (lift : σ → τ)
    (forgets : ∀ source, f.apply (lift source) = source)
    (within : count < run.length) :
    ∃ lifted : Engine τ γ,
      (((run.entering count).mapSource lift).tick (run.reading count)
        (run.inputs count)).Yields (run.events count) (lifted, run.outputs count) ∧
      lifted.mapSource f.apply = run.engine (count + 1) := by
  have entering :
      ((run.entering count).mapSource lift).mapSource f.apply = run.entering count := by
    simp only [Engine.mapSource, forgets]
  have mapped :=
    Engine.tick_map f ((run.entering count).mapSource lift) (run.reading count)
      (run.inputs count)
  rw [entering] at mapped
  have ticked : ((run.entering count).tick (run.reading count) (run.inputs count)).Yields
      (run.events count) (run.engine (count + 1), run.outputs count) :=
    run.ticked count within
  rw [mapped] at ticked
  obtain ⟨⟨lifted, outputs⟩, yields, left⟩ := Traced.yields_of_map ticked
  obtain ⟨forgotten, shown⟩ := Prod.mk.inj left
  exact ⟨lifted, shown ▸ yields, forgotten⟩

/-- Watching a tick changes nothing else about it. -/
theorem watched_tick (within : count < run.length) :
    ∃ watching : Engine (Watched σ) γ,
      (((run.entering count).mapSource Watched.watch).tick (run.reading count)
        (run.inputs count)).Yields (run.events count) (watching, run.outputs count) ∧
      watching.mapSource Watched.source = run.engine (count + 1) ∧
      run.asked count = watching.source.asked := by
  obtain ⟨watching, yields, forgotten⟩ :=
    run.lifted_tick Watched.forget Watched.watch (fun _ => rfl) within
  have asked : run.asked count = watching.source.asked := by
    unfold Run.asked Engine.asked
    rw [yields]
  exact ⟨watching, yields, forgotten, asked⟩

/-- On a tick the source is asked once, or not at all. -/
theorem asked_once (within : count < run.length) :
    ((run.entering count).sequencer.Asks ∧ ∃ after answer,
      ByteSource.pull (run.entering count).source (run.reading count) =
          .ok (after, answer) ∧
        run.asked count = [((run.entering count).source, answer)]) ∨
      ¬ (run.entering count).sequencer.Asks ∧ run.asked count = [] := by
  obtain ⟨early, gap, timing⟩ := run.accepted.timing
  have conforms := (run.conforms (Nat.le_of_lt within)).supplied (run.supply count)
  obtain ⟨watching, yields, _, asked⟩ := run.watched_tick within
  rw [asked]
  exact (Engine.tick_yields yields).asked (conforms.mapSource Watched.watch) timing

end Run

end HalfDuplex
