import HalfDuplex.Proofs.Scenario
import HalfDuplex.Proofs.Transmission
import HalfDuplex.Source.Script

/-!
# Carrier sense

With a timer that grows by one from tick to tick, an attempt starts only after a gap in
which the medium was quiet as far as the deferral timer demands it, and the station's own
transmission never ends without such a gap before the next one.

`Run.Defers` is the invariant behind both.  Between two attempts the timer is in a gap
whose first tick is known, or the gap is over; during an attempt the timer is restarted
on every tick, except on the first one, on which it was still open.

The timer may be set up at any reading.  Only the gap of the set-up is timed from there; every
other one is timed from a tick, so `Run.gapTick` turns spans of it into ticks.
-/

namespace HalfDuplex

namespace Run

variable {config : Config} {σ γ : Type} [ByteSource σ] [WordSource γ]
  (run : Run config σ γ)

/-- The timer grows by one from tick to tick. -/
def Consecutive : Prop :=
  ∀ tick, tick + 1 < run.length → run.reading (tick + 1) = run.reading tick + 1

/-- The timer grows by one from tick to tick, from its reading at the set-up on. -/
def Steady : Prop :=
  ∀ count, count < run.length → run.reading count = run.origin + count

/-- The time from which the gap is timed that begins on the tick `since`. -/
def gapOrigin : Nat → Tick
  | 0 => run.origin
  | last + 1 => run.reading last + 1

/-- The first tick on which `span` has passed of the gap that begins on the tick `since`. -/
def gapTick : Nat → Tick → Nat
  | 0, span => run.origin + span - run.reading 0
  | last + 1, span => last + 1 + span

def carrier (count : Nat) : Bool :=
  (run.inputs count).carrier

def enable (count : Nat) : Bool :=
  (run.outputs count).signals.enable

def Busy (count : Nat) : Prop :=
  run.carrier count = true ∨ run.enable count = true

/-- A frame waits on a tick, and no backoff is running. -/
def Waiting (count : Nat) : Prop :=
  ByteSource.ready (run.entering count).source = true ∧
    (run.engine count).backoffDone (run.reading count) = true

/-- The medium was quiet from `since` up to `count` as far as a gap demands it: without
own transmission, and without carrier except in the late part of the gap and on the tick
that completes it. -/
structure Quiet (early gap since count : Nat) : Prop where
  opening : since = 0 ∨ run.Busy (since - 1)
  calmEarly : ∀ tick, since ≤ tick → tick < run.gapTick since early → tick < count →
    run.carrier tick = false
  calmAfter : ∀ tick, run.gapTick since gap < tick → tick < count → run.carrier tick = false
  silent : ∀ tick, since ≤ tick → tick < count → run.enable tick = false

/-- The deferral timer is in the gap that began on the tick `since`. -/
structure InGap (early gap since count : Nat) : Prop where
  idle : (run.engine count).sequencer.stage = .idle
  begun : since ≤ count
  unfinished : count ≤ run.gapTick since gap
  state :
    count ≤ run.gapTick since early ∧
        (run.engine count).deferral.state = .early (run.gapOrigin since) ∨
      run.gapTick since early ≤ count ∧
        (run.engine count).deferral.state = .late (run.gapOrigin since)

/-- How the deferral timer and the attempt in progress hang together. -/
inductive Defers (early gap count : Nat) : Prop
  | inGap {since : Nat}
      (inGap : run.InGap early gap since count)
      (quiet : run.Quiet early gap since count)
  | past {since : Nat}
      (idle : (run.engine count).sequencer.stage = .idle)
      (gapOver : (run.engine count).deferral.Open)
      (complete : run.gapTick since gap < count)
      (quiet : run.Quiet early gap since count)
  | launched
      (driven : (run.engine count).sequencer.Driven)
      (high : (run.engine count).sequencer.highNext = true)
      (gapOver : (run.engine count).deferral.Open)
  | driving {last : Nat}
      (driven : (run.engine count).sequencer.Driven)
      (state : (run.engine count).deferral.state = .early (run.gapOrigin count))
      (next : count = last + 1)
      (enabled : run.enable last = true)

variable {run} {early gap since count : Nat}

theorem Steady.consecutive (steady : run.Steady) : run.Consecutive := by
  intro tick within
  rw [steady (tick + 1) within, steady tick (Nat.lt_of_succ_lt within), Nat.add_assoc]

theorem Consecutive.reading {tick : Nat}
    (consecutive : run.Consecutive)
    (passed : Nat)
    (within : tick + passed < run.length) :
    run.reading (tick + passed) = run.reading tick + passed := by
  induction passed with
  | zero => rfl
  | succ passed inductionHypothesis =>
      have before := inductionHypothesis (Nat.lt_of_succ_lt within)
      rw [← Nat.add_assoc, consecutive (tick + passed) within, before, Nat.add_assoc]

theorem le_gapTick (run : Run config σ γ) (since : Nat) (span : Tick) :
    since ≤ run.gapTick since span := by
  cases since with
  | zero => exact Nat.zero_le _
  | succ last => exact Nat.le_add_right _ _

theorem gapTick_of_pos (run : Run config σ γ) (span : Tick)
    (positive : 0 < since) :
    run.gapTick since span = since + span := by
  cases since with
  | zero => exact absurd positive (Nat.lt_irrefl 0)
  | succ last => rfl

theorem gapTick_mono (run : Run config σ γ) (since : Nat) {span longer : Tick}
    (atMost : span ≤ longer) :
    run.gapTick since span ≤ run.gapTick since longer := by
  cases since with
  | zero => exact Nat.sub_le_sub_right (Nat.add_le_add_left atMost _) _
  | succ last => exact Nat.add_le_add_left atMost _

theorem gapTick_reached {span : Tick}
    (positive : 0 < span)
    (reached : run.gapTick since span ≤ count) :
    since = 0 ∨ since < count := by
  cases since with
  | zero => exact .inl rfl
  | succ last => exact .inr (Nat.lt_of_lt_of_le (Nat.lt_add_of_pos_right positive) reached)

/-- From the tick `gapTick since span` on the timer shows that `span` has passed of the gap. -/
theorem Consecutive.gapTick_le_iff {span : Tick}
    (consecutive : run.Consecutive)
    (within : count < run.length)
    (begun : since ≤ count) :
    run.gapTick since span ≤ count ↔ run.gapOrigin since + span ≤ run.reading count := by
  obtain ⟨passed, rfl⟩ := Nat.exists_eq_add_of_le begun
  cases since with
  | zero =>
      rw [consecutive.reading passed within, gapTick, gapOrigin]
      lia
  | succ last =>
      have before : run.reading (last + (1 + passed)) = run.reading last + (1 + passed) :=
        consecutive.reading (1 + passed) (by omega)
      rw [Nat.add_assoc, before, gapTick, gapOrigin]
      lia

theorem Steady.gapTick_eq {span : Tick}
    (steady : run.Steady)
    (within : count < run.length) :
    run.gapTick since span = since + span := by
  cases since with
  | zero =>
      have reading := steady 0 (Nat.zero_lt_of_lt within)
      rw [gapTick, reading]
      lia
  | succ last => rfl

theorem Quiet.fresh (opening : since = 0 ∨ run.Busy (since - 1)) :
    run.Quiet early gap since since where
  opening := opening
  calmEarly := fun tick _ _ _ => by omega
  calmAfter := fun tick after before =>
    absurd (Nat.lt_trans after before) (Nat.not_lt.mpr (run.le_gapTick since gap))
  silent := fun tick _ _ => by omega

theorem Quiet.extend
    (quiet : run.Quiet early gap since count)
    (calm : run.carrier count = false ∨
      run.gapTick since early ≤ count ∧ count ≤ run.gapTick since gap)
    (silent : run.enable count = false) :
    run.Quiet early gap since (count + 1) where
  opening := quiet.opening
  calmEarly := by
    intro tick begun within before
    rcases Nat.lt_succ_iff_lt_or_eq.mp before with earlier | rfl
    · exact quiet.calmEarly tick begun within earlier
    · rcases calm with calm | late
      · exact calm
      · omega
  calmAfter := by
    intro tick after before
    rcases Nat.lt_succ_iff_lt_or_eq.mp before with earlier | rfl
    · exact quiet.calmAfter tick after earlier
    · rcases calm with calm | late
      · exact calm
      · omega
  silent := by
    intro tick begun before
    rcases Nat.lt_succ_iff_lt_or_eq.mp before with earlier | rfl
    · exact quiet.silent tick begun earlier
    · exact silent

/-- What is settled about a tick without an attempt in progress. -/
inductive Pauses (run : Run config σ γ) (count : Nat) (ready : Bool) : Prop
  | rests
      (idleNext : (run.engine (count + 1)).sequencer.stage = .idle)
      (unpoised : ready = true → ¬ run.Waiting count)
      (disabled : run.enable count = false)
      (unstarted : ¬ run.Starts count)
  | starts
      (driven : (run.engine (count + 1)).sequencer.Driven)
      (high : (run.engine (count + 1)).sequencer.highNext = true)
      (free : ready = true)
      (enabled : run.enable count = true)
      (started : run.Starts count)

theorem spans
    (timing : config.Timing early gap)
    (within : count ≤ run.length) :
    (run.engine count).deferral.earlyTicks = early ∧
      (run.engine count).deferral.gapTicks = gap := by
  have conforms := run.conforms within
  have earlyEqual := conforms.earlyTicks.symm.trans timing.earlyTicks_eq
  have gapEqual := conforms.gapTicks.symm.trans timing.gapTicks_eq
  exact ⟨Except.ok.inj earlyEqual, Except.ok.inj gapEqual⟩

theorem sends
    (timing : config.Timing early gap)
    (within : count < run.length)
    (settled :
      (run.engine count).sequencer.stage = .idle ∨ (run.engine count).sequencer.Driven) :
    Engine.Sends (run.reading count) (run.inputs count) (run.entering count)
      (run.engine (count + 1)) (run.outputs count) (run.marks count) := by
  have conforms := (run.conforms (Nat.le_of_lt within)).supplied (run.supply count)
  exact (run.ticks within).sends conforms timing settled

theorem pauses
    (timing : config.Timing early gap)
    (within : count < run.length)
    (idle : (run.engine count).sequencer.stage = .idle) :
    ∃ ready, run.Pauses count ready ∧
      Deferral.Advances (run.reading count) (run.carrier count)
        (run.engine count).deferral (run.engine (count + 1)).deferral ready := by
  cases sends timing within (.inl idle) with
  | rests _ idleNext advances unpoised disabled unstarted =>
      exact ⟨_, .rests idleNext (fun ready waiting => unpoised ready ⟨idle, waiting⟩) disabled
        unstarted, advances⟩
  | starts _ driven high advances enabled started =>
      exact ⟨true, .starts driven high rfl enabled started, advances⟩
  | goesOn active => exact absurd idle active
  | stops active => exact absurd idle active
  | stopsOpen active => exact absurd idle active

theorem Pauses.closed (pauses : run.Pauses count false) :
    (run.engine (count + 1)).sequencer.stage = .idle ∧ run.enable count = false ∧
      ¬ run.Starts count := by
  cases pauses with
  | rests idleNext unpoised disabled unstarted => exact ⟨idleNext, disabled, unstarted⟩
  | starts driven high free => cases free

namespace InGap

theorem fresh
    (idle : (run.engine count).sequencer.stage = .idle)
    (state : (run.engine count).deferral.state = .early (run.gapOrigin count)) :
    run.InGap early gap count count :=
  ⟨idle, Nat.le_refl count, run.le_gapTick count gap, .inl ⟨run.le_gapTick count early, state⟩⟩

theorem second
    (timing : config.Timing early gap)
    (positive : 0 < since)
    (idle : (run.engine (since + 1)).sequencer.stage = .idle)
    (state : (run.engine (since + 1)).deferral.state = .early (run.gapOrigin since)) :
    run.InGap early gap since (since + 1) := by
  have earlyPos : 0 < early := timing.early_pos
  have earlyTick : since + 1 ≤ run.gapTick since early := by
    rw [run.gapTick_of_pos early positive]
    exact Nat.add_le_add_left earlyPos since
  have earlyFirst := run.gapTick_mono since (Nat.le_of_lt timing.early_lt_gap)
  exact ⟨idle, Nat.le_succ since, Nat.le_trans earlyTick earlyFirst, .inl ⟨earlyTick, state⟩⟩

/-- The early part of the gap is over. -/
theorem past
    (timing : config.Timing early gap)
    (consecutive : run.Consecutive)
    (within : count < run.length)
    (inGap : run.InGap early gap since count)
    (inLate : run.gapTick since early ≤ count) :
    (run.engine count).deferral.Past (run.reading count) (run.gapOrigin since) := by
  have lapsed := (consecutive.gapTick_le_iff within inGap.begun).mp inLate
  rw [← (spans timing (Nat.le_of_lt within)).1] at lapsed
  rcases inGap.state with ⟨_, state⟩ | ⟨_, state⟩
  · exact .inr ⟨state, lapsed⟩
  · exact .inl state

/-- The early part of the gap runs. -/
theorem before
    (timing : config.Timing early gap)
    (consecutive : run.Consecutive)
    (within : count < run.length)
    (inGap : run.InGap early gap since count)
    (inEarly : count < run.gapTick since early) :
    (run.engine count).deferral.state = .early (run.gapOrigin since) ∧
      run.reading count <
        run.gapOrigin since + (run.engine count).deferral.earlyTicks := by
  have unlapsed :=
    mt (consecutive.gapTick_le_iff within inGap.begun).mpr (Nat.not_le.mpr inEarly)
  rw [← (spans timing (Nat.le_of_lt within)).1, Nat.not_le] at unlapsed
  rcases inGap.state with ⟨_, state⟩ | ⟨inLate, _⟩
  · exact ⟨state, unlapsed⟩
  · exact absurd inEarly (Nat.not_lt.mpr inLate)

/-- Carrier in the early part of the gap begins it again. -/
theorem restarts
    (timing : config.Timing early gap)
    (consecutive : run.Consecutive)
    (within : count < run.length)
    (inGap : run.InGap early gap since count)
    (inEarly : count < run.gapTick since early)
    (heard : run.carrier count = true) :
    run.InGap early gap (count + 1) (count + 1) ∧ run.enable count = false ∧
      ¬ run.Starts count := by
  obtain ⟨state, before⟩ := inGap.before timing consecutive within inEarly
  obtain ⟨ready, pauses, advances⟩ := pauses timing within inGap.idle
  obtain ⟨rfl, stateNext⟩ := advances.early state before
  obtain ⟨idleNext, disabled, unstarted⟩ := pauses.closed
  rw [heard, if_pos rfl] at stateNext
  exact ⟨.fresh idleNext stateNext, disabled, unstarted⟩

/-- Carrier in the late part of the gap does not matter. -/
theorem lengthens
    (timing : config.Timing early gap)
    (consecutive : run.Consecutive)
    (within : count < run.length)
    (inGap : run.InGap early gap since count)
    (calm : count < run.gapTick since early → run.carrier count = false)
    (unfinished : count < run.gapTick since gap) :
    run.InGap early gap since (count + 1) ∧ run.enable count = false ∧
      ¬ run.Starts count := by
  obtain ⟨ready, pauses, advances⟩ := pauses timing within inGap.idle
  have begun := inGap.begun
  by_cases inEarly : count < run.gapTick since early
  · obtain ⟨state, before⟩ := inGap.before timing consecutive within inEarly
    obtain ⟨rfl, stateNext⟩ := advances.early state before
    obtain ⟨idleNext, disabled, unstarted⟩ := pauses.closed
    rw [calm inEarly, if_neg Bool.false_ne_true] at stateNext
    exact ⟨⟨idleNext, by omega, by omega, .inl ⟨by omega, stateNext⟩⟩, disabled, unstarted⟩
  · have past := inGap.past timing consecutive within (Nat.le_of_not_lt inEarly)
    have advanced := advances.late past
    have pending := mt (consecutive.gapTick_le_iff within begun).mpr (Nat.not_le.mpr unfinished)
    rw [(spans timing (Nat.le_of_lt within)).2, if_neg pending] at advanced
    obtain ⟨rfl, stateNext⟩ := advanced
    obtain ⟨idleNext, disabled, unstarted⟩ := pauses.closed
    exact ⟨⟨idleNext, by omega, by omega, .inr ⟨by omega, stateNext⟩⟩, disabled, unstarted⟩

/-- The tick that completes the gap leaves the timer open, whether carrier is heard on it
or not. -/
theorem completes
    (timing : config.Timing early gap)
    (consecutive : run.Consecutive)
    (within : count < run.length)
    (inGap : run.InGap early gap since count)
    (complete : run.gapTick since gap = count) :
    run.Pauses count true ∧ (run.engine (count + 1)).deferral.Open := by
  obtain ⟨ready, pauses, advances⟩ := pauses timing within inGap.idle
  have earlyFirst := run.gapTick_mono since (Nat.le_of_lt timing.early_lt_gap)
  have past := inGap.past timing consecutive within (complete ▸ earlyFirst)
  have advanced := advances.late past
  have lapsed := (consecutive.gapTick_le_iff within inGap.begun).mp (Nat.le_of_eq complete)
  rw [(spans timing (Nat.le_of_lt within)).2, if_pos lapsed] at advanced
  obtain ⟨rfl, opened⟩ := advanced
  exact ⟨pauses, opened⟩

end InGap

/-- The gap that began on the tick `since` let the attempt start that starts on `tick`. -/
structure GapBefore (run : Run config σ γ) (early gap since tick : Nat) : Prop where
  opening : since = 0 ∨ run.Busy (since - 1)
  complete : since + gap ≤ tick
  calmEarly : ∀ other, since ≤ other → other < since + early → run.carrier other = false
  calmAfter : ∀ other, since + gap < other → other ≤ tick → run.carrier other = false
  silent : ∀ other, since ≤ other → other < tick → run.enable other = false

/-- The gap that began on the tick `since` is over on a tick, and not closed again there. -/
structure GapOver (run : Run config σ γ) (early gap since count : Nat) : Prop where
  quiet : run.Quiet early gap since count
  complete : run.gapTick since gap ≤ count
  calm : run.gapTick since gap < count → run.carrier count = false

theorem GapOver.gapBefore
    (timing : config.Timing early gap)
    (steady : run.Steady)
    (within : count < run.length)
    (gapOver : run.GapOver early gap since count) :
    run.GapBefore early gap since count := by
  have shorter : early < gap := timing.early_lt_gap
  obtain ⟨quiet, complete, calm⟩ := gapOver
  have calmEarly := quiet.calmEarly
  have calmAfter := quiet.calmAfter
  simp only [steady.gapTick_eq within] at complete calm calmEarly calmAfter
  refine ⟨quiet.opening, complete, ?_, ?_, quiet.silent⟩
  · exact fun other begun inEarly => calmEarly other begun inEarly (by omega)
  · intro other after atMost
    rcases Nat.lt_or_eq_of_le atMost with earlier | rfl
    · exact calmAfter other after earlier
    · exact calm after

/-- What a tick does to the invariant. -/
structure Keeps (run : Run config σ γ) (early gap count : Nat) : Prop where
  defers : run.Defers early gap (count + 1)
  gapOver : run.Starts count → ∃ since, run.GapOver early gap since count

theorem Keeps.of_unstarted
    (unstarted : ¬ run.Starts count)
    (defers : run.Defers early gap (count + 1)) :
    run.Keeps early gap count :=
  ⟨defers, fun starts => absurd starts unstarted⟩

theorem InGap.ticks
    (timing : config.Timing early gap)
    (consecutive : run.Consecutive)
    (within : count < run.length)
    (inGap : run.InGap early gap since count)
    (quiet : run.Quiet early gap since count) :
    run.Keeps early gap count := by
  by_cases heard : count < run.gapTick since early ∧ run.carrier count = true
  · obtain ⟨inGapNext, disabled, unstarted⟩ :=
      inGap.restarts timing consecutive within heard.1 heard.2
    have busy : count + 1 = 0 ∨ run.Busy (count + 1 - 1) := .inr (.inl heard.2)
    exact .of_unstarted unstarted (.inGap inGapNext (.fresh busy))
  · have calm : count < run.gapTick since early → run.carrier count = false := by
      intro inEarly
      rw [← Bool.not_eq_true]
      exact fun carrier => heard ⟨inEarly, carrier⟩
    have calmOrLate : run.carrier count = false ∨
        run.gapTick since early ≤ count ∧ count ≤ run.gapTick since gap := by
      by_cases inEarly : count < run.gapTick since early
      · exact .inl (calm inEarly)
      · exact .inr ⟨Nat.le_of_not_lt inEarly, inGap.unfinished⟩
    rcases Nat.lt_or_eq_of_le inGap.unfinished with unfinished | complete
    · obtain ⟨inGapNext, disabled, unstarted⟩ :=
        inGap.lengthens timing consecutive within calm unfinished
      exact .of_unstarted unstarted (.inGap inGapNext (quiet.extend calmOrLate disabled))
    · obtain ⟨pauses, opened⟩ := inGap.completes timing consecutive within complete.symm
      cases pauses with
      | rests idleNext unpoised disabled unstarted =>
          have quietNext := quiet.extend calmOrLate disabled
          exact .of_unstarted unstarted
            (.past idleNext opened (complete ▸ Nat.lt_succ_self count) quietNext)
      | starts driven high free enabled started =>
          refine ⟨.launched driven high opened, fun _ => ⟨since, quiet, ?_, fun later => ?_⟩⟩
          · exact Nat.le_of_eq complete.symm
          · exact absurd complete (Nat.ne_of_gt later)

theorem over_ticks
    (timing : config.Timing early gap)
    (within : count < run.length)
    (idle : (run.engine count).sequencer.stage = .idle)
    (gapOver : (run.engine count).deferral.Open)
    (complete : run.gapTick since gap < count)
    (quiet : run.Quiet early gap since count) :
    run.Keeps early gap count := by
  obtain ⟨ready, pauses, advances⟩ := pauses timing within idle
  have advanced := advances.quiet gapOver
  cases heard : run.carrier count with
  | true =>
      rw [heard, if_pos rfl] at advanced
      obtain ⟨rfl, stateNext⟩ := advanced
      obtain ⟨idleNext, disabled, unstarted⟩ := pauses.closed
      have busy : count + 1 = 0 ∨ run.Busy (count + 1 - 1) := .inr (.inl heard)
      exact .of_unstarted unstarted (.inGap (.fresh idleNext stateNext) (.fresh busy))
  | false =>
      rw [heard, if_neg Bool.false_ne_true] at advanced
      cases pauses with
      | rests idleNext unpoised disabled unstarted =>
          have quietNext := quiet.extend (.inl heard) disabled
          exact .of_unstarted unstarted
            (.past idleNext advanced.2 (Nat.lt_succ_of_lt complete) quietNext)
      | starts driven high free enabled started =>
          exact ⟨.launched driven high advanced.2, fun _ =>
            ⟨since, quiet, Nat.le_of_lt complete, fun _ => heard⟩⟩

theorem Defers.settled (defers : run.Defers early gap count) :
    (run.engine count).sequencer.stage = .idle ∨ (run.engine count).sequencer.Driven := by
  cases defers with
  | inGap inGap quiet => exact .inl inGap.idle
  | past idle gapOver complete quiet => exact .inl idle
  | launched driven high gapOver => exact .inr driven
  | driving driven state next enabled => exact .inr driven

theorem driving_early {last : Nat}
    (timing : config.Timing early gap)
    (consecutive : run.Consecutive)
    (within : last + 1 < run.length) :
    run.reading (last + 1) <
      run.gapOrigin (last + 1) + (run.engine (last + 1)).deferral.earlyTicks := by
  have earlyPos : 0 < early := timing.early_pos
  rw [(spans timing (Nat.le_of_lt within)).1, consecutive last within]
  exact Nat.lt_add_of_pos_right earlyPos

/-- An attempt that stops leaves the timer in a gap that begins on the same tick, unless
carrier is heard on it. -/
theorem Defers.stops
    (timing : config.Timing early gap)
    (consecutive : run.Consecutive)
    (within : count < run.length)
    (defers : run.Defers early gap count)
    (driven : (run.engine count).sequencer.Driven) :
    run.enable count = true ∧ (run.engine (count + 1)).sequencer.Driven ∧
        ¬ run.Starts count ∧
        (run.engine (count + 1)).deferral.state = .early (run.gapOrigin (count + 1)) ∨
      run.enable count = false ∧ (run.engine (count + 1)).sequencer.stage = .idle ∧
        ¬ run.Starts count ∧ (∃ last, count = last + 1 ∧ run.enable last = true) ∧
        (run.engine (count + 1)).deferral.state =
          .early (if run.carrier count then run.gapOrigin (count + 1)
            else run.gapOrigin count) := by
  cases defers with
  | inGap inGap => exact absurd inGap.idle driven.active
  | past idle => exact absurd idle driven.active
  | launched _ high gapOver =>
      cases sends timing within (.inr driven) with
      | rests idle => exact absurd idle driven.active
      | starts idle => exact absurd idle driven.active
      | goesOn active drivenNext advances enabled unstarted =>
          have advanced := advances.quiet gapOver
          rw [if_pos rfl] at advanced
          exact .inl ⟨enabled, drivenNext, unstarted, advanced.2⟩
      | stops active low => cases high.symm.trans low
      | stopsOpen active low => cases high.symm.trans low
  | @driving last _ state next enabledBefore =>
      subst next
      have inEarly := driving_early timing consecutive within
      cases sends timing within (.inr driven) with
      | rests idle => exact absurd idle driven.active
      | starts idle => exact absurd idle driven.active
      | goesOn active drivenNext advances enabled unstarted =>
          have advanced := advances.early state inEarly
          rw [if_pos rfl] at advanced
          exact .inl ⟨enabled, drivenNext, unstarted, advanced.2⟩
      | stops active low idleNext advances disabled unstarted =>
          have advanced := advances.early state inEarly
          exact .inr ⟨disabled, idleNext, unstarted, ⟨last, rfl, enabledBefore⟩, advanced.2⟩
      | stopsOpen active low advances => cases (advances.early state inEarly).1

theorem driven_ticks
    (timing : config.Timing early gap)
    (consecutive : run.Consecutive)
    (within : count < run.length)
    (defers : run.Defers early gap count)
    (driven : (run.engine count).sequencer.Driven) :
    run.Keeps early gap count := by
  rcases defers.stops timing consecutive within driven with
    ⟨enabled, drivenNext, unstarted, state⟩ |
      ⟨disabled, idleNext, unstarted, ⟨last, rfl, enabled⟩, state⟩
  · exact .of_unstarted unstarted (.driving drivenNext state rfl enabled)
  · refine .of_unstarted unstarted ?_
    cases heard : run.carrier (last + 1) with
    | true =>
        rw [heard, if_pos rfl] at state
        have busyNow : last + 2 = 0 ∨ run.Busy (last + 2 - 1) := .inr (.inl heard)
        exact .inGap (.fresh idleNext state) (.fresh busyNow)
    | false =>
        rw [heard, if_neg Bool.false_ne_true] at state
        have busy : last + 1 = 0 ∨ run.Busy (last + 1 - 1) := .inr (.inr enabled)
        have quiet : run.Quiet early gap (last + 1) (last + 2) :=
          (Quiet.fresh busy).extend (.inl heard) disabled
        exact .inGap (.second timing (Nat.succ_pos last) idleNext state) quiet

/-- A tick keeps the invariant, and an attempt that starts on it has its gap. -/
theorem Defers.ticks
    (timing : config.Timing early gap)
    (consecutive : run.Consecutive)
    (within : count < run.length)
    (defers : run.Defers early gap count) :
    run.Keeps early gap count := by
  cases defers with
  | inGap inGap quiet => exact inGap.ticks timing consecutive within quiet
  | past idle gapOver complete quiet =>
      exact over_ticks timing within idle gapOver complete quiet
  | launched driven high gapOver =>
      exact driven_ticks timing consecutive within (.launched driven high gapOver) driven
  | driving driven state next enabled =>
      exact driven_ticks timing consecutive within (.driving driven state next enabled) driven

theorem defers
    (timing : config.Timing early gap)
    (consecutive : run.Consecutive)
    (within : count ≤ run.length) :
    run.Defers early gap count := by
  induction count with
  | zero =>
      exact .inGap (.fresh run.idle_at_setUp run.deferral_at_setUp) (.fresh (.inl rfl))
  | succ count inductionHypothesis =>
      have before := inductionHypothesis (Nat.le_of_succ_le within)
      exact (before.ticks timing consecutive within).defers

/-- Transmit enable tells whether an attempt is in progress. -/
theorem line
    (timing : config.Timing early gap)
    (consecutive : run.Consecutive)
    (within : count < run.length) :
    run.enable count = true ∧ (run.engine (count + 1)).sequencer.Driven ∨
      run.enable count = false ∧ (run.engine (count + 1)).sequencer.stage = .idle := by
  have defers := defers timing consecutive (Nat.le_of_lt within)
  rcases defers.settled with idle | driven
  · obtain ⟨ready, pauses, advances⟩ := pauses timing within idle
    cases pauses with
    | rests idleNext unpoised disabled => exact .inr ⟨disabled, idleNext⟩
    | starts drivenNext high free enabled => exact .inl ⟨enabled, drivenNext⟩
  · rcases defers.stops timing consecutive within driven with
      ⟨enabled, drivenNext, _⟩ | ⟨disabled, idleNext, _⟩
    · exact .inl ⟨enabled, drivenNext⟩
    · exact .inr ⟨disabled, idleNext⟩

theorem unstarted_of_disabled
    (timing : config.Timing early gap)
    (consecutive : run.Consecutive)
    (within : count < run.length)
    (disabled : run.enable count = false) :
    ¬ run.Starts count := by
  have defers := defers timing consecutive (Nat.le_of_lt within)
  rcases defers.settled with idle | driven
  · obtain ⟨ready, pauses, _⟩ := pauses timing within idle
    cases pauses with
    | rests idleNext unpoised disabled unstarted => exact unstarted
    | starts driven high free enabled => cases disabled.symm.trans enabled
  · rcases defers.stops timing consecutive within driven with
      ⟨_, _, unstarted, _⟩ | ⟨_, _, unstarted, _⟩
    · exact unstarted
    · exact unstarted

theorem idle_of_disabled
    (timing : config.Timing early gap)
    (consecutive : run.Consecutive)
    (within : count < run.length)
    (disabled : run.enable count = false) :
    (run.engine (count + 1)).sequencer.stage = .idle := by
  rcases line timing consecutive within with ⟨enabled, _⟩ | ⟨_, idle⟩
  · cases disabled.symm.trans enabled
  · exact idle

theorem driven_of_enabled
    (timing : config.Timing early gap)
    (consecutive : run.Consecutive)
    (within : count < run.length)
    (enabled : run.enable count = true) :
    (run.engine (count + 1)).sequencer.Driven := by
  rcases line timing consecutive within with ⟨_, driven⟩ | ⟨disabled, _⟩
  · exact driven
  · cases enabled.symm.trans disabled

/-- Without an attempt in progress the line is driven only if one starts. -/
theorem starts_of_idle
    (timing : config.Timing early gap)
    (within : count < run.length)
    (idle : (run.engine count).sequencer.stage = .idle)
    (enabled : run.enable count = true) :
    run.Starts count := by
  obtain ⟨ready, pauses, advances⟩ := pauses timing within idle
  cases pauses with
  | rests idleNext unpoised disabled => cases enabled.symm.trans disabled
  | starts driven high free _ started => exact started

/-- Transmit enable rises only when an attempt starts. -/
theorem starts_of_rise
    (timing : config.Timing early gap)
    (consecutive : run.Consecutive)
    (within : count + 1 < run.length)
    (disabled : run.enable count = false)
    (enabled : run.enable (count + 1) = true) :
    run.Starts (count + 1) :=
  starts_of_idle timing within
    (idle_of_disabled timing consecutive (Nat.lt_of_succ_lt within) disabled) enabled

/-- No attempt starts right after a tick on which the line was driven. -/
theorem unstarted_of_enabled
    (timing : config.Timing early gap)
    (consecutive : run.Consecutive)
    (within : count + 1 < run.length)
    (enabled : run.enable count = true) :
    ¬ run.Starts (count + 1) := by
  have holds := defers timing consecutive (Nat.le_of_lt within)
  have driven := driven_of_enabled timing consecutive (Nat.lt_of_succ_lt within) enabled
  rcases holds.stops timing consecutive within driven with
    ⟨_, _, unstarted, _⟩ | ⟨_, _, unstarted, _⟩
  · exact unstarted
  · exact unstarted

/-- The line stays quiet for a whole gap after the station's own transmission. -/
theorem quiet_after_stop {stop : Nat}
    (timing : config.Timing early gap)
    (consecutive : run.Consecutive)
    (enabled : run.enable stop = true)
    (disabled : run.enable (stop + 1) = false)
    (passed : Nat)
    (short : passed < gap)
    (within : stop + 1 + passed < run.length) :
    run.enable (stop + 1 + passed) = false := by
  induction passed with
  | zero => exact disabled
  | succ passed inductionHypothesis =>
      have before := inductionHypothesis (by omega) (by omega)
      rw [← Bool.not_eq_true]
      intro enabledAgain
      have starts := starts_of_rise timing consecutive within before enabledAgain
      have holds := defers timing consecutive (Nat.le_of_lt within)
      obtain ⟨since, gapOver⟩ := (holds.ticks timing consecutive within).gapOver starts
      rcases Nat.lt_or_ge stop since with later | overlaps
      · obtain ⟨last, rfl⟩ : ∃ last, since = last + 1 := ⟨since - 1, by omega⟩
        have complete : last + 1 + gap ≤ stop + 1 + (passed + 1) := gapOver.complete
        omega
      · have silent := gapOver.quiet.silent stop overlaps (by omega)
        cases enabled.symm.trans silent

/-- After the station's own transmission the gap runs on if its early part is quiet. -/
theorem inGap_after_stop {stop : Nat}
    (timing : config.Timing early gap)
    (consecutive : run.Consecutive)
    (enabled : run.enable stop = true)
    (disabled : run.enable (stop + 1) = false)
    (calm : ∀ tick, stop < tick → tick < stop + 1 + early → run.carrier tick = false)
    (passed : Nat)
    (short : passed < gap)
    (within : stop + 1 + passed < run.length) :
    run.InGap early gap (stop + 1) (stop + 1 + (passed + 1)) := by
  induction passed with
  | zero =>
      have earlyPos : 0 < early := timing.early_pos
      have holds := defers timing consecutive (Nat.le_of_lt within)
      have driven := driven_of_enabled timing consecutive (Nat.lt_of_succ_lt within) enabled
      rcases holds.stops timing consecutive within driven with
        ⟨enabledNext, _⟩ | ⟨_, idleNext, _, _, state⟩
      · rw [disabled] at enabledNext
        cases enabledNext
      · have quietNow : run.carrier (stop + 1) = false :=
          calm (stop + 1) (Nat.lt_succ_self stop) (by omega)
        rw [quietNow, if_neg Bool.false_ne_true] at state
        exact .second timing (Nat.succ_pos stop) idleNext state
  | succ passed inductionHypothesis =>
      have before := inductionHypothesis (by omega) (by omega)
      have calmNow : stop + 1 + (passed + 1) < stop + 1 + early →
          run.carrier (stop + 1 + (passed + 1)) = false :=
        calm _ (by omega)
      have unfinished : stop + 1 + (passed + 1) < stop + 1 + gap := Nat.add_lt_add_left short _
      exact (before.lengthens timing consecutive within calmNow unfinished).1

/-- An attempt starts only after a gap.  The gap begins when the engine is set up or when
somebody stops transmitting, its early part is quiet, the line is quiet again after it is
complete, and the station transmits nothing from its beginning to the start.  After the
station's own transmission the line is therefore quiet for a gap, and the next attempt
starts right after it if a frame waits then, whatever is heard in its late part. -/
theorem starts_after_gap (steady : run.Steady) :
    ∃ early gap, config.earlyTicks = .ok early ∧ config.gapTicks = .ok gap ∧
      (∀ tick, tick < run.length → run.Starts tick →
        ∃ since, run.GapBefore early gap since tick) ∧
      ∀ stop, stop + 1 < run.length →
        run.enable stop = true → run.enable (stop + 1) = false →
          (∀ tick, stop < tick → tick < stop + 1 + gap → tick < run.length →
            run.enable tick = false) ∧
          (stop + 1 + gap < run.length → run.Waiting (stop + 1 + gap) →
            (∀ tick, stop < tick → tick < stop + 1 + early → run.carrier tick = false) →
              run.Starts (stop + 1 + gap) ∧ run.enable (stop + 1 + gap) = true) := by
  obtain ⟨early, gap, timing⟩ := run.accepted.timing
  refine ⟨early, gap, timing.earlyTicks_eq, timing.gapTicks_eq, ?_, ?_⟩
  · intro tick within starts
    have holds := defers timing steady.consecutive (Nat.le_of_lt within)
    obtain ⟨since, gapOver⟩ := (holds.ticks timing steady.consecutive within).gapOver starts
    exact ⟨since, gapOver.gapBefore timing steady within⟩
  · intro stop _ enabled disabled
    constructor
    · intro tick after before within
      have quiet :=
        quiet_after_stop timing steady.consecutive enabled disabled (tick - (stop + 1)) (by omega)
          (by omega)
      rwa [show stop + 1 + (tick - (stop + 1)) = tick by omega] at quiet
    · intro within waiting calm
      have earlyPos : 0 < early := timing.early_pos
      have shorter : early < gap := timing.early_lt_gap
      obtain ⟨last, rfl⟩ : ∃ last, gap = last + 1 := ⟨gap - 1, by lia⟩
      have inGap :=
        inGap_after_stop timing steady.consecutive enabled disabled calm last
          (Nat.lt_succ_self last) (Nat.lt_of_succ_lt within)
      cases (inGap.completes timing steady.consecutive within rfl).1 with
      | rests idleNext unpoised => exact absurd waiting (unpoised rfl)
      | starts driven high free enabledThen started => exact ⟨started, enabledThen⟩

def lateCarrierScenario : Scenario ScriptedSource ZeroWords where
  source := { frames := [.ofBytes [0xA5], .ofBytes [0x5A]] }
  words := {}
  inputs count := { carrier := count = 15 }

def lateCarrierRun : Run .brief ScriptedSource ZeroWords :=
  (lateCarrierScenario.run? .brief 17).get (by decide +kernel)

theorem starts_after_gap_lateCarrierRun :
    lateCarrierRun.Steady ∧ lateCarrierRun.carrier 15 = true ∧
      lateCarrierRun.enable 13 = true ∧ lateCarrierRun.enable 14 = false ∧
        lateCarrierRun.Starts 16 := by
  have steady : lateCarrierRun.Steady := fun count _ => (Nat.zero_add count).symm
  have heard : lateCarrierRun.carrier 15 = true := by decide +kernel
  have enabled : lateCarrierRun.enable 13 = true := by decide +kernel
  have disabled : lateCarrierRun.enable 14 = false := by decide +kernel
  have waiting : lateCarrierRun.Waiting 16 := ⟨by decide +kernel, by decide +kernel⟩
  obtain ⟨early, gap, earlyEqual, gapEqual, _, afterStop⟩ := starts_after_gap steady
  obtain rfl : 1 = early := Except.ok.inj earlyEqual
  obtain rfl : 2 = gap := Except.ok.inj gapEqual
  have calm : ∀ tick, 13 < tick → tick < 13 + 1 + 1 → lateCarrierRun.carrier tick = false := by
    intro tick after before
    obtain rfl : tick = 14 := by omega
    decide +kernel
  have starts := (afterStop 13 (by decide +kernel) enabled disabled).2 (by decide +kernel)
    waiting calm
  exact ⟨steady, heard, enabled, disabled, starts.1⟩

end Run

end HalfDuplex
