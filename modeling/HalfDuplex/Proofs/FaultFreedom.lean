import HalfDuplex.Proofs.Progress

/-!
# Runs without a fault

An attempt takes up no more octets than a frame has, and every gap that begins can be told
to its end.  So each tick has what it needs in order to succeed, one after the other, and
the readings of the timer may go back and forth.

Main result: `Scenario.runs_without_fault`.
-/

namespace HalfDuplex

open Traced

namespace Sequencer

/-- The attempt took up no more octets than the longest frame has.  As long as it takes up octets
of the frame in front, it has taken up no more of them than were pulled. -/
structure Filled (config : Config) (longest : Nat) (sequencer : Sequencer) (cursor : Nat) :
    Prop where
  bounded : sequencer.length ≤ max config.minFrameBytes.toNat longest
  pulled : sequencer.Asking → sequencer.length ≤ cursor

variable {config : Config} {σ : Type} [ByteSource σ] [FrameStore σ] {longest : Nat}
  {sequencer next loaded : Sequencer} {source after : σ} {now : Tick} {collision : Bool}
  {step : SequencerStep}

/-- An octet that was pulled lies within its frame. -/
theorem cursor_lt_of_pull {octet : Octet}
    (short : ∀ front ∈ FrameStore.frames source, front.length ≤ longest)
    (pulled : ByteSource.pull source now = .ok (after, .octet octet)) :
    FrameStore.cursor source < longest ∧
      FrameStore.cursor after = FrameStore.cursor source + 1 := by
  obtain ⟨⟨front, rest, held, found⟩, advanced⟩ := FrameStore.pull_octet _ _ _ _ pulled
  obtain ⟨inside, _⟩ := List.getElem?_eq_some_iff.mp found
  have within := short front (held ▸ List.mem_cons_self)
  exact ⟨Nat.lt_of_lt_of_le inside within, advanced⟩

/-- The same length in a stage that takes up no octets. -/
theorem Filled.beyond {cursor place : Nat}
    (filled : sequencer.Filled config longest cursor)
    (length : loaded.length = sequencer.length)
    (beyond : ¬ loaded.Asking) :
    loaded.Filled config longest place :=
  ⟨length ▸ filled.bounded, fun asking => absurd asking beyond⟩

theorem Filled.boundary {ending : Option Ending}
    (minFrame : sequencer.plan.minFrame = config.minFrameBytes.toNat)
    (short : ∀ front ∈ FrameStore.frames source, front.length ≤ longest)
    (boundary : Boundary now sequencer source loaded after ending)
    (filled : sequencer.Filled config longest (FrameStore.cursor source)) :
    loaded.Filled config longest (FrameStore.cursor after) := by
  cases boundary with
  | preamble stage missing calm =>
      exact ⟨filled.bounded, fun _ => filled.pulled (.inr stage)⟩
  | octet pulling pulled calm =>
      obtain ⟨inside, advanced⟩ := cursor_lt_of_pull short pulled
      have before := filled.pulled pulling.asking
      constructor
      · show sequencer.length + 1 ≤ _
        omega
      · intro _
        show sequencer.length + 1 ≤ FrameStore.cursor after
        omega
  | pad exhausted unpadded calm =>
      constructor
      · show sequencer.length + 1 ≤ _
        omega
      · rintro (data | preamble)
        · cases data
        · cases preamble
  | check stage => exact filled.beyond rfl (by simp [Asking, checking, stage])
  | starved => exact filled.beyond rfl (by simp [Asking, takeUpMarker])
  | firstCheck => exact filled.beyond rfl (by simp [Asking, checking, beginTrailer])
  | abandoned => exact filled.beyond rfl (by simp [Asking, jammed])
  | abandonedStarved => exact filled.beyond rfl (by simp [Asking, takeUpMarker])
  | sent | marked | jamming | jamOver => exact filled

omit [ByteSource σ] [FrameStore σ] in
theorem Filled.driving {cursor : Nat}
    (filled : sequencer.Filled config longest cursor) :
    (sequencer.driving.sampled collision).Filled config longest cursor := by
  refine ⟨filled.bounded, fun asking => filled.pulled ?_⟩
  have unjammed : ∀ remaining, sequencer.stage ≠ .jam remaining := by
    intro remaining stage
    have next : (sequencer.driving.sampled collision).stage = .jam (remaining - 1) := by
      show sequencer.nextStage = _
      rw [nextStage, stage]
    rw [Asking, next] at asking
    rcases asking with data | preamble
    · cases data
    · cases preamble
  have same : (sequencer.driving.sampled collision).stage = sequencer.stage :=
    driving_stage unjammed
  rwa [Asking, same] at asking

theorem Filled.moves
    (minFrame : sequencer.plan.minFrame = config.minFrameBytes.toNat)
    (short : ∀ front ∈ FrameStore.frames source, front.length ≤ longest)
    (moves : Moves now collision sequencer source next after step)
    (unended : step.ending = none)
    (filled : sequencer.Filled config longest (FrameStore.cursor source)) :
    next.Filled config longest (FrameStore.cursor after) := by
  cases moves with
  | rests => exact filled
  | holds => exact ⟨filled.bounded, filled.pulled⟩
  | continues => exact filled.driving
  | begins active due low boundary notOver => exact (filled.boundary minFrame short boundary).driving
  | ends => cases unended

omit [FrameStore σ] in
/-- A jam goes on with the nibbles that remain, or with one less. -/
theorem Moves.jam {remaining less : Nat}
    (moves : Moves now collision sequencer source next after step)
    (before : sequencer.stage = .jam remaining)
    (later : next.stage = .jam less) :
    less = remaining ∨ less + 1 = remaining := by
  have drives {driven : Sequencer} {count : Nat}
      (stage : driven.stage = .jam count)
      (unfinished : driven.stage ≠ .jam 0)
      (later : (driven.driving.sampled collision).stage = .jam less) :
      less + 1 = count := by
    have next : (driven.driving.sampled collision).stage = .jam (count - 1) := by
      show driven.nextStage = _
      rw [nextStage, stage]
    have positive : count ≠ 0 := by
      rintro rfl
      exact unfinished stage
    cases later.symm.trans next
    omega
  cases moves with
  | rests idle => cases idle.symm.trans before
  | holds =>
      cases before.symm.trans later
      exact .inl rfl
  | continues active due high notOver => exact .inr (drives before notOver later)
  | begins active due low boundary notOver =>
      obtain ⟨rfl, _⟩ := jam_boundary before boundary
      exact .inr (drives before notOver later)
  | ends => cases later

omit [FrameStore σ] in
/-- A tick that leaves no attempt in progress drives no nibble. -/
theorem Moves.nibbles_of_idle
    (moves : Moves now collision sequencer source next after step)
    (idle : next.stage = .idle) :
    next.nibbles = sequencer.nibbles := by
  have unended (active : sequencer.stage ≠ .idle) : step.ending ≠ none :=
    fun unended => moves.active active unended idle
  cases moves with
  | rests => rfl
  | holds active => exact absurd rfl (unended active)
  | continues active => exact absurd rfl (unended active)
  | begins active => exact absurd rfl (unended active)
  | ends active due low boundary => exact boundary.counters.2.2.2

end Sequencer

namespace Engine

variable {σ γ : Type} [ByteSource σ] [WordSource γ] {engine next : Engine σ γ} {now : Tick}
  {inputs : Inputs} {outputs : Outputs} {marks : List Mark}

theorem Proceeds.moves {collision : Bool} {signals : Signals} {status : Indicators}
    (proceeds : Proceeds now collision engine next signals status marks) :
    ∃ source step, Sequencer.Moves now collision engine.sequencer engine.source
      next.sequencer source step := by
  cases proceeds with
  | goesOn drives unended => exact ⟨_, _, drives.moves⟩
  | settles drives ended settles =>
      rw [settles.keeps.1]
      exact ⟨_, _, drives.moves⟩

/-- The nibble count keeps its value after an attempt. -/
theorem Ticks.nibbles_of_idle
    (preamble : 0 < engine.sequencer.plan.preambleBytes)
    (ticks : Ticks now inputs engine next outputs marks)
    (idle : next.sequencer.stage = .idle) :
    next.sequencer.nibbles = engine.sequencer.nibbles := by
  cases ticks with
  | parts proceeds advances considers =>
      obtain ⟨_, _, moves⟩ := proceeds.moves
      cases considers with
      | launches poised free drives =>
          obtain ⟨_, started, _⟩ := Sequencer.start_moves (moves.plan ▸ preamble) drives.moves
          rw [started] at idle
          cases idle
      | holdsOff => exact moves.nibbles_of_idle idle
      | passes => exact moves.nibbles_of_idle idle

/-- No attempt in progress took up more octets than the longest frame has. -/
def Filled [FrameStore σ] (config : Config) (longest : Nat) (engine : Engine σ γ) : Prop :=
  engine.sequencer.stage = .idle ∨
    engine.sequencer.Filled config longest (FrameStore.cursor engine.source)

omit [WordSource γ] in
theorem filled_of_leaves [FrameStore σ] {config : Config} {longest : Nat}
    {sequencer : Sequencer} {source : σ} {shown : Signals}
    (preamble : 0 < sequencer.plan.preambleBytes)
    (leaves : Leaves now inputs sequencer source next shown marks) :
    next.Filled config longest := by
  cases leaves with
  | rests idle => exact .inl idle
  | starts waiting moves =>
      obtain ⟨_, started, _⟩ := Sequencer.start_moves preamble moves
      right
      rw [started]
      exact ⟨Nat.zero_le _, fun _ => Nat.zero_le _⟩

theorem Ticks.filled [FrameStore σ] {config : Config} {longest : Nat}
    (minFrame : engine.sequencer.plan.minFrame = config.minFrameBytes.toNat)
    (preamble : 0 < engine.sequencer.plan.preambleBytes)
    (short : ∀ front ∈ FrameStore.frames engine.source, front.length ≤ longest)
    (filled : engine.Filled config longest)
    (ticks : Ticks now inputs engine next outputs marks) :
    next.Filled config longest := by
  cases ticks.turns with
  | goesOn active moves unended =>
      exact .inr ((filled.resolve_left active).moves minFrame short moves unended)
  | stops moves ended settles status leaves =>
      refine filled_of_leaves ?_ leaves
      rw [moves.plan]
      exact preamble
  | waits idle unraised leaves => exact filled_of_leaves preamble leaves

end Engine

namespace Run

variable {config : Config} {σ γ : Type} [ByteSource σ] [FrameStore σ] [WordSource γ]
  {run : Run config σ γ} {early gap count longest : Nat}

omit [FrameStore σ] in
theorem plan_minFrame (within : count ≤ run.length) :
    (run.engine count).sequencer.plan.minFrame = config.minFrameBytes.toNat := by
  rw [LinePlan.ofConfig_eq_ok (run.conforms within).plan]

omit [FrameStore σ] in
/-- The end of every gap can be told. -/
theorem gapFits
    (timing : config.Timing early gap)
    (origin : config.LeavesRoom gap run.origin)
    (readings : ∀ tick, tick < run.length → config.LeavesRoom gap (run.reading tick))
    (within : count ≤ run.length) :
    (run.engine count).deferral.Fits := by
  induction count with
  | zero =>
      obtain ⟨_, deferral, _, deferralEqual, _, engineEqual⟩ := Engine.ofConfig_eq_ok run.setUp
      obtain ⟨_, gapEqual, state⟩ := Deferral.ofConfig_eq_ok deferralEqual
      have gapTicks : deferral.gapTicks = gap :=
        Except.ok.inj (gapEqual.symm.trans timing.gapTicks_eq)
      rw [engineEqual]
      unfold Config.LeavesRoom at origin
      intro since found
      rw [gapTicks]
      rcases found with early | late
      · cases state.symm.trans early
        lia
      · cases state.symm.trans late
  | succ count inductionHypothesis =>
      have before := inductionHypothesis (Nat.le_of_succ_le within)
      have room := readings count within
      unfold Config.LeavesRoom at room
      obtain ⟨_, gapTicks⟩ := spans timing (Nat.le_of_succ_le within)
      obtain ⟨_, _, advances⟩ := (run.ticks within).advances
      refine advances.fits ?_ before
      show _ + 1 + (run.engine count).deferral.gapTicks < _
      rw [gapTicks]
      lia

/-- An attempt in progress is safe, and its nibbles can be counted. -/
theorem safe
    (timing : config.Timing early gap)
    (roomy : config.RoomyFor longest)
    (filled : (run.engine count).Filled config longest)
    (within : count ≤ run.length) :
    (run.engine count).sequencer.stage = .idle ∨ (run.engine count).sequencer.Safe := by
  rcases filled with idle | filled
  · exact .inl idle
  · cases paces timing within with
    | rests idle => exact .inl idle
    | tries lastStart elapsed beats =>
        exact .inr (beats.safe timing roomy (run.conforms within).plan filled.bounded)

/-- After a run without a fault one more tick succeeds. -/
theorem goes_on {inputs : Inputs} {supply : σ → σ} {reading : Tick}
    (timing : config.Timing early gap)
    (roomy : config.RoomyFor longest)
    (filled : (run.engine run.length).Filled config longest)
    (origin : config.LeavesRoom gap run.origin)
    (readings : ∀ tick, tick < run.length → config.LeavesRoom gap (run.reading tick))
    (room : config.LeavesRoom gap reading)
    (answers : ((run.engine run.length).supplied supply).Answers reading inputs.collision) :
    (((run.engine run.length).supplied supply).tick reading inputs).Succeeds := by
  have within := Nat.le_refl run.length
  have conforms : ((run.engine run.length).supplied supply).Conforms config :=
    (run.conforms within).supplied supply
  exact Engine.tick_succeeds answers timing roomy room conforms (bounded within)
    (gapFits timing origin readings within) (safe timing roomy filled within)

end Run

/-- Frames in the queue have a bounded length. -/
theorem FrameQueue.short_frames {capacity : Nat} (queue : FrameQueue capacity) :
    ∀ front ∈ FrameStore.frames queue, front.length ≤ maxFrameLength := by
  intro front member
  obtain ⟨frame, _, rfl⟩ := List.mem_map.mp member
  rw [Frame.entries, List.length_map]
  exact frame.length_le

namespace Run

variable {config : Config} {capacity : Nat} {γ : Type} [WordSource γ]
  {run : Run config (FrameQueue capacity) γ} {early gap count : Nat}

/-- No attempt takes up more octets than a frame has. -/
theorem filled
    (appends : ∀ tick, tick < run.length → FrameStore.Appends (run.supply tick))
    (within : count ≤ run.length) :
    (run.engine count).Filled config maxFrameLength := by
  obtain ⟨early, gap, timing⟩ := run.accepted.timing
  induction count with
  | zero => exact .inl run.idle_at_setUp
  | succ count inductionHypothesis =>
      have earlier := Nat.le_of_succ_le within
      have before : (run.entering count).Filled config maxFrameLength := by
        have cursor : FrameStore.cursor (run.entering count).source =
            FrameStore.cursor (run.engine count).source :=
          (appends count within).cursor _
        unfold Engine.Filled
        rw [cursor]
        exact inductionHypothesis earlier
      have minFrame : (run.entering count).sequencer.plan.minFrame = _ := plan_minFrame earlier
      exact (run.ticks within).filled minFrame
        (plan_positive timing earlier).1 (FrameQueue.short_frames _) before

/-- The nibbles of an attempt can be counted, and the count keeps its value after it. -/
theorem nibbles_lt
    (timing : config.Timing early gap)
    (roomy : config.Roomy)
    (appends : ∀ tick, tick < run.length → FrameStore.Appends (run.supply tick))
    (within : count ≤ run.length) :
    (run.engine count).sequencer.nibbles < countLimit := by
  induction count with
  | zero =>
      obtain ⟨_, _, _, _, sequencerEqual, engineEqual⟩ := Engine.ofConfig_eq_ok run.setUp
      obtain ⟨plan, _, rfl⟩ := Sequencer.ofConfig_eq_ok sequencerEqual
      rw [engineEqual]
      show 0 < countLimit
      decide
  | succ count inductionHypothesis =>
      rcases safe timing roomy (filled appends within) within with idle | safe
      · have preamble : 0 < (run.entering count).sequencer.plan.preambleBytes :=
          (plan_positive timing (Nat.le_of_succ_le within)).1
        rw [(run.ticks within).nibbles_of_idle preamble idle]
        exact inductionHypothesis (Nat.le_of_succ_le within)
      · exact Nat.lt_of_succ_lt safe.nibbles

/-- From tick to tick a jam goes on with the nibbles that remain, or with one less. -/
theorem jam {remaining less : Nat}
    (timing : config.Timing early gap)
    (within : count < run.length)
    (before : (run.engine count).sequencer.stage = .jam remaining)
    (later : (run.engine (count + 1)).sequencer.stage = .jam less) :
    less = remaining ∨ less + 1 = remaining := by
  obtain ⟨preamble, _⟩ := plan_positive timing (Nat.le_of_lt within)
  cases (run.ticks within).turns with
  | goesOn active moves unended => exact moves.jam before later
  | stops moves ended settles status leaves =>
      cases leaves with
      | rests idle => cases idle.symm.trans later
      | starts waiting starts =>
          obtain ⟨_, started, _⟩ := Sequencer.start_moves (moves.plan ▸ preamble) starts
          rw [started] at later
          cases later
  | waits idle => cases idle.symm.trans before

end Run

/-- An engine with an accepted configuration whose lengths leave room is set up. -/
theorem Engine.sets_up {config : Config} {σ γ : Type} {longest : Nat}
    (accepted : config.Accepted)
    (roomy : config.RoomyFor longest)
    (source : σ)
    (words : γ)
    (origin : Tick) :
    ∃ start, (ofConfig config source words origin).value = .ok (.ok start) := by
  obtain ⟨plan, planned⟩ := roomy.lengthsFit.plan
  rw [value_ofConfig_of_accepted accepted, planned]
  exact ⟨_, rfl⟩

namespace Scenario

/-- The run of a scenario of which no tick faults. -/
structure Played {σ γ : Type} [ByteSource σ] [WordSource γ] {config : Config}
    (scenario : Scenario σ γ) (start : Engine σ γ) (length : Nat) (run : Run config σ γ) :
    Prop where
  length : run.length = length
  origin : run.origin = scenario.origin
  supply : run.supply = scenario.supply
  reading : run.reading = scenario.reading
  inputs : run.inputs = scenario.inputs
  engine : run.engine = scenario.engineAfter start

variable {config : Config} {σ γ : Type} [ByteSource σ] [WordSource γ]
  {scenario : Scenario σ γ} {start : Engine σ γ} {length : Nat}

theorem run?_of_plays
    (setUp : (Engine.ofConfig config scenario.source scenario.words scenario.origin).value =
      .ok (.ok start))
    (plays : scenario.Plays start length) :
    ∃ run, scenario.run? config length = some run ∧ scenario.Played start length run := by
  unfold run?
  split
  · rename_i found foundEqual
    cases setUp.symm.trans foundEqual
    rw [dif_pos plays]
    exact ⟨_, rfl, rfl, rfl, rfl, rfl, rfl, rfl⟩
  · rename_i missing
    exact absurd setUp (missing start)

end Scenario

namespace Scenario

variable {config : Config} {capacity : Nat} {γ : Type} [WordSource γ]
  {scenario : Scenario (FrameQueue capacity) γ} {gap : Tick} {length : Nat}

/-- What is done to the queue and what the timer reads let a number of ticks succeed. -/
structure Admissible (scenario : Scenario (FrameQueue capacity) γ) (config : Config) (gap : Tick)
    (length : Nat) : Prop where
  appends : ∀ count, count < length → FrameStore.Appends (scenario.supply count)
  origin : config.LeavesRoom gap scenario.origin
  readings : ∀ count, count < length → config.LeavesRoom gap (scenario.reading count)

/-- One tick after the other succeeds. -/
theorem plays_of_admissible {start : Engine (FrameQueue capacity) γ}
    (gapTicks : config.gapTicks = .ok gap)
    (roomy : config.Roomy)
    (setUp : (Engine.ofConfig config scenario.source scenario.words scenario.origin).value =
      .ok (.ok start))
    (admissible : scenario.Admissible config gap length) :
    scenario.Plays start length := by
  induction length with
  | zero => exact fun count within => absurd within (Nat.not_lt_zero count)
  | succ length inductionHypothesis =>
      have before : scenario.Admissible config gap length :=
        ⟨fun count within => admissible.appends count (Nat.lt_succ_of_lt within),
          admissible.origin,
          fun count within => admissible.readings count (Nat.lt_succ_of_lt within)⟩
      have plays := inductionHypothesis before
      intro count within
      rcases Nat.lt_succ_iff_lt_or_eq.mp within with earlier | rfl
      · exact plays count earlier
      · -- The ticks so far make up a run, and what holds after a run lets one more succeed.
        obtain ⟨run, _, played⟩ := run?_of_plays setUp plays
        obtain ⟨early, _, timing⟩ := run.accepted.timing
        cases gapTicks.symm.trans timing.gapTicks_eq
        have succeeds : (scenario.tick (run.engine run.length) run.length).Succeeds := by
          have answers {engine : Engine (FrameQueue capacity) γ} {now : Tick} {collision : Bool} :
              engine.Answers now collision :=
            ⟨⟨_, rfl⟩, fun _ => ⟨_, rfl⟩⟩
          have appends : ∀ tick, tick < run.length → FrameStore.Appends (run.supply tick) := by
            rw [played.length, played.supply]
            exact before.appends
          refine run.goes_on timing roomy (Run.filled appends (Nat.le_refl _)) ?_ ?_ ?_
            answers
          · rw [played.origin]
            exact before.origin
          · rw [played.length, played.reading]
            exact before.readings
          · rw [played.length]
            exact admissible.readings count (Nat.lt_succ_self count)
        rw [played.length, played.engine] at succeeds
        obtain ⟨result, value⟩ := succeeds
        rw [value]
        rfl

/-- No counter of the engine overflows.

With an accepted configuration whose longest attempt can be counted, the engine is set up
and ticks without a fault, whatever frames the queue holds and is offered, whatever the
words and the inputs are, and whatever the timer reads, forward or back, as long as each
reading leaves room for a gap and for the longest backoff.  The nibbles of an attempt stay
countable, and a jam counts down to its end without going past it. -/
theorem runs_without_fault
    (accepted : config.Accepted)
    (roomy : config.Roomy)
    (gapTicks : config.gapTicks = .ok gap)
    (appends : ∀ count, count < length → FrameStore.Appends (scenario.supply count))
    (origin : config.LeavesRoom gap scenario.origin)
    (readings : ∀ count, count < length → config.LeavesRoom gap (scenario.reading count)) :
    ∃ start,
      (Engine.ofConfig config scenario.source scenario.words scenario.origin).value =
          .ok (.ok start) ∧
        scenario.Plays start length ∧
        (∀ count, count ≤ length →
          (scenario.engineAfter start count).sequencer.nibbles < countLimit) ∧
        ∀ count remaining less, count < length →
          (scenario.engineAfter start count).sequencer.stage = .jam remaining →
          (scenario.engineAfter start (count + 1)).sequencer.stage = .jam less →
            less = remaining ∨ less + 1 = remaining := by
  obtain ⟨start, setUp⟩ :=
    Engine.sets_up accepted roomy scenario.source scenario.words scenario.origin
  have plays := plays_of_admissible gapTicks roomy setUp ⟨appends, origin, readings⟩
  obtain ⟨run, _, played⟩ := run?_of_plays setUp plays
  obtain ⟨early, _, timing⟩ := accepted.timing
  refine ⟨start, setUp, plays, ?_, ?_⟩
  · intro count within
    rw [← played.engine]
    rw [← played.length] at within
    refine run.nibbles_lt timing roomy ?_ within
    rw [played.length, played.supply]
    exact appends
  · intro count remaining less within before later
    rw [← played.engine] at before later
    rw [← played.length] at within
    exact run.jam timing within before later

/-- A frame that meets a collision while the timer leaps between the first reading and the
last one that leaves room. -/
def leapingScenario : Scenario (FrameQueue 2) MaxWords where
  source := (FrameQueue.empty 2).offer { octets := [.byte 0x3C] }
  words := {}
  reading count := if count % 2 = 0 then wideLimit - 4 else 0
  inputs count := { collision := count = 3 }

theorem runs_without_fault_leapingScenario :
    (Config.brief.Accepted ∧ Config.brief.Roomy ∧ Config.brief.gapTicks = .ok 2) ∧
      (∀ count, Config.brief.LeavesRoom 2 (leapingScenario.reading count)) ∧
        ¬ Config.brief.LeavesRoom 2 (wideLimit - 3) ∧
          ∃ start,
            (Engine.ofConfig Config.brief leapingScenario.source leapingScenario.words 0).value =
                .ok (.ok start) ∧
              leapingScenario.Plays start 24 := by
  have accepted : Config.brief.Accepted := by decide
  have roomy : Config.brief.Roomy := by decide
  have appends : ∀ count, count < 24 → FrameStore.Appends (leapingScenario.supply count) :=
    fun _ _ => ⟨[], fun _ => rfl⟩
  have least : Config.brief.LeavesRoom 2 0 := by
    unfold Config.LeavesRoom
    decide
  have most : Config.brief.LeavesRoom 2 (wideLimit - 4) := by
    unfold Config.LeavesRoom
    decide
  have readings : ∀ count, Config.brief.LeavesRoom 2 (leapingScenario.reading count) := by
    intro count
    unfold leapingScenario
    dsimp only
    split
    · exact most
    · exact least
  have beyond : ¬ Config.brief.LeavesRoom 2 (wideLimit - 3) := by
    unfold Config.LeavesRoom
    decide
  obtain ⟨start, setUp, plays, _⟩ :=
    runs_without_fault accepted roomy rfl appends least fun count _ => readings count
  exact ⟨⟨accepted, roomy, rfl⟩, readings, beyond, start, setUp, plays⟩

end Scenario

end HalfDuplex
