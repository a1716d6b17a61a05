import HalfDuplex.Proofs.CarrierSense
import HalfDuplex.Proofs.Progress
import Mathlib.Data.Nat.Find

/-!
# What a counted deferral says

An attempt is counted as deferred when carrier was heard while its frame waited.  Whether
that carrier held it off is another matter: the late part of a gap ignores carrier, and the
note is made all the same.

`Run.counts_carrier_heard_in_wait` compares a run with the one in which carrier is low from
the end of the previous attempt on.  There the gap runs through, and the attempt starts on
the first tick from its end on that finds a frame waiting.  So a counted attempt would have
started earlier exactly if it did not start on the tick that completes the first gap.

The relation between the two runs is `Run.Unheard`: they differ in the deferral timer and in
the note, and the timer of the silenced run is in the gap that began with the silence.
-/

namespace HalfDuplex

namespace Traced

variable {α β : Type} {first : Traced α} {next : α → Traced β} {event : Event}

theorem mem_events_bind_left (recorded : event ∈ first.events) :
    event ∈ (first >>= next).events := by
  rw [events_bind]
  exact List.mem_append_left _ recorded

theorem Yields.mem_events_bind {a : α} {events : List Event}
    (yields : first.Yields events a)
    (recorded : event ∈ (next a).events) :
    event ∈ (first >>= next).events := by
  rw [yields, events_bind]
  exact List.mem_append_right _ recorded

end Traced

namespace Deferral

variable {timer next : Deferral} {now since : Tick} {carrier ready : Bool}
  {events : List Event}

/-- The gap that began at `since` runs, or it was over before `now`. -/
inductive Undisturbed (timer : Deferral) (since now : Tick) : Prop
  | early (state : timer.state = .early since)
  | late (state : timer.state = .late since)
  | opened (gapOver : timer.Open) (complete : since + timer.gapTicks < now)

theorem tick_silent_succeeds
    (shorter : timer.earlyTicks < timer.gapTicks)
    (fits : since + timer.gapTicks < wideLimit)
    (undisturbed : timer.Undisturbed since now) :
    (timer.tick now false).Succeeds := by
  unfold tick
  cases undisturbed with
  | early state =>
      have earlyFits : since + timer.earlyTicks < wideLimit := by lia
      rw [state]
      refine (Traced.succeeds_lift (checkedAdd_of_lt earlyFits)).bind fun due _ => ?_
      split
      · exact (Traced.succeeds_record _).bind fun _ _ => tickLate_succeeds fits
      · exact Traced.succeeds_pure _
  | late state =>
      rw [state]
      exact tickLate_succeeds fits
  | opened gapOver complete =>
      rcases gapOver with state | state <;> rw [state] <;> exact Traced.succeeds_pure _

theorem Undisturbed.later {then_ : Tick}
    (atMost : now ≤ then_)
    (undisturbed : timer.Undisturbed since now) :
    timer.Undisturbed since then_ := by
  cases undisturbed with
  | early state => exact .early state
  | late state => exact .late state
  | opened gapOver complete => exact .opened gapOver (Nat.lt_of_lt_of_le complete atMost)

/-- Without carrier the gap runs on, and the timer is ready from its end on. -/
theorem Undisturbed.ticks
    (shorter : timer.earlyTicks < timer.gapTicks)
    (fits : since + timer.gapTicks < wideLimit)
    (undisturbed : timer.Undisturbed since now) :
    ∃ events next, (timer.tick now false).Yields events
        (next, decide (since + timer.gapTicks ≤ now)) ∧
      next.Undisturbed since (now + 1) ∧
      next.earlyTicks = timer.earlyTicks ∧ next.gapTicks = timer.gapTicks := by
  obtain ⟨⟨next, ready⟩, value⟩ := tick_silent_succeeds shorter fits undisturbed
  have yields := Traced.yields_of_value value
  have advances := (tick_yields yields).1
  obtain ⟨earlyKept, gapKept⟩ := advances.spans
  have past (past : timer.Past now since) :
      ready = decide (since + timer.gapTicks ≤ now) ∧ next.Undisturbed since (now + 1) := by
    have advanced := advances.late past
    split at advanced
    · rename_i complete
      obtain ⟨rfl, gapOverNext⟩ := advanced
      exact ⟨(decide_eq_true complete).symm, .opened gapOverNext (by lia)⟩
    · rename_i pending
      obtain ⟨rfl, state⟩ := advanced
      exact ⟨(decide_eq_false pending).symm, .late state⟩
  have both : ready = decide (since + timer.gapTicks ≤ now) ∧
      next.Undisturbed since (now + 1) := by
    cases undisturbed with
    | early state =>
        by_cases within : now < since + timer.earlyTicks
        · obtain ⟨rfl, stateNext⟩ := advances.early state within
          have pending : ¬ since + timer.gapTicks ≤ now := by lia
          exact ⟨(decide_eq_false pending).symm, .early stateNext⟩
        · exact past (.inr ⟨state, Nat.le_of_not_lt within⟩)
    | late state => exact past (.inl state)
    | opened gapOver complete =>
        have advanced := advances.quiet gapOver
        rw [if_neg Bool.false_ne_true] at advanced
        obtain ⟨rfl, gapOverNext⟩ := advanced
        exact ⟨(decide_eq_true (Nat.le_of_lt complete)).symm, .opened gapOverNext (by lia)⟩
  obtain ⟨rfl, undisturbedNext⟩ := both
  exact ⟨_, next, yields, undisturbedNext, earlyKept, gapKept⟩

/-- The timer's gap began at `since` or later, and once it is over its end could be told. -/
structure BegunBy (timer : Deferral) (since : Tick) : Prop where
  later : ∀ other, timer.state = .early other ∨ timer.state = .late other → since ≤ other
  fits : timer.Open → since + timer.gapTicks < wideLimit

theorem Past.due_fits
    (past : timer.Past now since)
    (yields : (timer.tick now carrier).Yields events (next, ready)) :
    since + timer.gapTicks < wideLimit := by
  have told : ∀ {events : List Event},
      (timer.tickLate since now).Yields events (next, ready) →
        since + timer.gapTicks < wideLimit := by
    intro events yields
    simp only [tickLate, Traced.yields_bind, Traced.yields_lift, checkedAdd_eq_ok_iff] at yields
    obtain ⟨_, _, _, ⟨rfl, fits, rfl⟩, _⟩ := yields
    exact fits
  unfold tick at yields
  rcases past with state | ⟨state, lapsed⟩
  · rw [state] at yields
    exact told yields
  · rw [state] at yields
    simp only [tickEarly, Traced.yields_bind, Traced.yields_lift,
      checkedAdd_eq_ok_iff] at yields
    obtain ⟨_, _, _, ⟨rfl, _, rfl⟩, yields, rfl⟩ := yields
    rw [if_pos lapsed] at yields
    simp only [Traced.yields_bind, Traced.yields_record] at yields
    obtain ⟨_, _, _, rfl, yields, rfl⟩ := yields
    exact told yields

theorem BegunBy.ticks
    (begun : timer.BegunBy since)
    (within : since ≤ now + 1)
    (yields : (timer.tick now carrier).Yields events (next, ready)) :
    next.BegunBy since ∧ (ready = true → since + timer.gapTicks < wideLimit) := by
  have restarted : (timer.moved (.early (now + 1))).BegunBy since := by
    refine ⟨?_, ?_⟩
    · rintro other (state | state)
      · cases state
        exact within
      · cases state
    · rintro (state | state) <;> cases state
  cases (tick_yields yields).1 with
  | staysOpen gapOver quiet =>
      have fits := begun.fits gapOver
      refine ⟨⟨?_, fun _ => fits⟩, fun _ => fits⟩
      rintro other (state | state) <;> cases state
  | closes => exact ⟨restarted, nofun⟩
  | waits => exact ⟨begun, nofun⟩
  | restarts => exact ⟨restarted, nofun⟩
  | @runsOn other past pending =>
      refine ⟨⟨?_, ?_⟩, nofun⟩
      · rintro another (state | state)
        · cases state
        · cases state
          exact begun.later other (past.elim .inr fun early => .inl early.1)
      · rintro (state | state) <;> cases state
  | @opens other past complete =>
      have laterOther := begun.later other (past.elim .inr fun early => .inl early.1)
      have fitsOther := past.due_fits yields
      have fits : since + timer.gapTicks < wideLimit := by lia
      refine ⟨⟨?_, fun _ => fits⟩, fun _ => fits⟩
      rintro another (state | state) <;> cases state

end Deferral

namespace Engine

variable {σ γ : Type}

/-- The engine with another deferral timer and another note. -/
def hearing (engine : Engine σ γ) (deferral : Deferral) (deferred : Bool) : Engine σ γ :=
  { engine with deferral, deferred }

/-- A frame waits at `now` that no backoff holds back. -/
def waits [ByteSource σ] (engine : Engine σ γ) (now : Tick) : Bool :=
  ByteSource.ready engine.source && engine.backoffDone now

theorem backoffDone_later {engine : Engine σ γ} {now later : Tick}
    (done : engine.backoffDone now = true)
    (atLeast : now ≤ later) :
    engine.backoffDone later = true := by
  unfold backoffDone at done ⊢
  cases backoff : engine.backoffUntil with
  | none => rfl
  | some due =>
      rw [backoff, decide_eq_true_iff] at done
      exact decide_eq_true (Nat.le_trans done atLeast)

variable [ByteSource σ] [WordSource γ] {engine proceeded next : Engine σ γ} {now : Tick}
  {inputs : Inputs} {outputs : Outputs} {signals : Signals} {status : Indicators}
  {events before between : List Event} {marks : List Mark}

/-- A tick after which no attempt is in progress, and on which none started. -/
inductive Idles (now : Tick) (inputs : Inputs) (engine next : Engine σ γ) : Prop
  | parts {proceeded : Engine σ γ} {status : Indicators} {before between : List Event}
      {deferral : Deferral} {ready : Bool}
      (proceeds :
        (engine.proceed now inputs.collision).Yields before (proceeded, .quiet, status))
      (idle : proceeded.sequencer.stage = .idle)
      (advances :
        (proceeded.deferral.tick now inputs.carrier).Yields between (deferral, ready))
      (next_eq :
        next = proceeded.hearing deferral
          (proceeded.deferred || proceeded.waits now && inputs.carrier))

theorem Proceeds.quiet_of_idle {collision : Bool}
    (idle : next.sequencer.stage = .idle)
    (proceeds : Proceeds now collision engine next signals status marks) :
    signals = .quiet := by
  cases proceeds with
  | goesOn drives unended =>
      by_cases idleBefore : engine.sequencer.stage = .idle
      · obtain ⟨_, rfl⟩ := drives.resting idleBefore
        rfl
      · exact absurd idle (drives.moves.active idleBefore unended)
  | settles drives ended settles =>
      exact (drives.moves.ended_quiet ended).2

omit [WordSource γ] in
theorem Poised.waits (poised : engine.Poised now) : engine.waits now = true := by
  simp [Engine.waits, poised.2.1, poised.2.2]

omit [WordSource γ] in
theorem waits_eq_false
    (idle : engine.sequencer.stage = .idle)
    (unpoised : ¬ engine.Poised now) :
    engine.waits now = false := by
  rw [← Bool.not_eq_true, Engine.waits, Bool.and_eq_true]
  exact fun waits => unpoised ⟨idle, waits⟩

/-- Without a start the engine only takes over the deferral timer, and notes carrier that is
heard while a frame waits. -/
theorem Considers.noted {ready : Bool} {shown : Signals}
    (idle : engine.sequencer.stage = .idle)
    (unstarted : ¬ HasStart marks)
    (considers : Considers now inputs ready signals engine next shown marks) :
    next = engine.heldOff (engine.waits now && inputs.carrier) := by
  cases considers with
  | launches poised free drives => exact absurd (hasStart_started _ _ _) unstarted
  | holdsOff poised closed => rw [poised.waits, Bool.true_and]
  | passes unpoised => simp [heldOff, waits_eq_false idle unpoised]

/-- An attempt that starts counts a deferral if one was noted. -/
theorem Considers.launched {ready : Bool} {shown : Signals}
    (started : HasStart marks)
    (considers : Considers now inputs ready signals engine next shown marks) :
    ready = true ∧ engine.waits now = true ∧
      next.stats = if engine.deferred then engine.stats.countDeferral else engine.stats := by
  cases considers with
  | launches poised free drives =>
      have stats : next.stats = (engine.begin now).stats := by
        cases drives <;> rfl
      exact ⟨free, poised.waits, stats⟩
  | holdsOff | passes => exact absurd started not_hasStart_nil

/-- A tick is idle if no attempt starts on it and none is in progress after it. -/
theorem tick_idles
    (yields : (engine.tick now inputs).Yields events (next, outputs))
    (idle : next.sequencer.stage = .idle)
    (unstarted : ¬ HasStart (marksOf now events)) :
    Idles now inputs engine next := by
  obtain ⟨proceeded, signals, before, deferral, ready, between, after, proceeds, advances,
    considers, rfl⟩ := tick_yields_iff.mp yields
  have considers := consider_yields considers
  have unstartedThen : ¬ HasStart (marksOf now after) := by
    simp only [marksOf_append, hasStart_append, not_or] at unstarted
    exact unstarted.2.2
  have idleBefore : proceeded.sequencer.stage = .idle := by
    rcases Decidable.em (proceeded.sequencer.stage = .idle) with idleBefore | active
    · exact idleBefore
    · have activeThen : (proceeded.deferring deferral).sequencer.stage ≠ .idle := active
      obtain ⟨rfl, _⟩ := considers.passing activeThen
      exact idle
  have idleThen : (proceeded.deferring deferral).sequencer.stage = .idle := idleBefore
  obtain rfl := (proceed_yields proceeds).quiet_of_idle idleBefore
  obtain rfl := considers.noted idleThen unstartedThen
  rw [Signals.quiet, Bool.or_false] at advances
  exact .parts proceeds idleBefore advances rfl

/-- A tick on which an attempt starts finds a frame waiting and the timer ready, and counts a
deferral if one was noted. -/
theorem tick_launches
    (idle : engine.sequencer.stage = .idle)
    (yields : (engine.tick now inputs).Yields events (next, outputs))
    (started : HasStart (marksOf now events)) :
    engine.waits now = true ∧
      next.stats = (if engine.deferred then engine.stats.countDeferral else engine.stats) ∧
      ∃ between deferral,
        (engine.deferral.tick now inputs.carrier).Yields between (deferral, true) := by
  obtain ⟨proceeded, signals, before, deferral, ready, between, after, proceeds, advances,
    considers, rfl⟩ := tick_yields_iff.mp yields
  obtain ⟨rfl, rfl, _, unmarked⟩ := (proceed_yields proceeds).resting idle
  have unmarkedThen := (Deferral.tick_yields advances).2
  have startedThen : HasStart (marksOf now after) := by
    simpa [unmarked, unmarkedThen] using started
  rw [Signals.quiet, Bool.or_false] at advances
  obtain ⟨rfl, waits, stats⟩ := (consider_yields considers).launched startedThen
  exact ⟨waits, stats, between, deferral, advances⟩

theorem proceed_resting (idle : engine.sequencer.stage = .idle) (now : Tick) (collision : Bool) :
    (engine.proceed now collision).Yields [] (engine, .quiet, {}) := by
  simp [proceed, drive, Sequencer.step, idle]

theorem consider_of_idle {ready : Bool} (idle : engine.sequencer.stage = .idle) :
    engine.consider now inputs ready signals =
      if engine.waits now then
        if ready then engine.launch now inputs.collision
        else pure (engine.heldOff inputs.carrier, signals)
      else pure (engine, signals) := by
  unfold consider
  rw [active_eq_false_iff.mpr idle]
  rfl

variable {other : Engine σ γ} {deferral timer : Deferral} {noted ready : Bool}

/-- Without carrier nothing is noted on a tick on which no attempt may start. -/
theorem tick_unheard
    (proceeds : (other.proceed now inputs.collision).Yields before
      (proceeded.hearing deferral noted, .quiet, status))
    (idle : proceeded.sequencer.stage = .idle)
    (advances : (deferral.tick now false).Yields between (timer, ready))
    (shut : ready = true → proceeded.waits now = false) :
    (other.tick now { inputs with carrier := false }).Yields (before ++ between)
      (proceeded.hearing timer noted, { signals := .quiet, status }) := by
  have idleThen : (proceeded.hearing timer noted).sequencer.stage = .idle := idle
  have considers :
      ((proceeded.hearing timer noted).consider now { inputs with carrier := false } ready
        .quiet).Yields [] (proceeded.hearing timer noted, .quiet) := by
    rw [consider_of_idle idleThen]
    split
    · rename_i waiting
      split
      · rename_i free
        cases (shut free).symm.trans waiting
      · simp [heldOff, hearing]
    · exact Traced.yields_pure.mpr ⟨rfl, rfl⟩
  exact tick_yields_iff.mpr ⟨_, _, before, timer, ready, between, [], proceeds, advances,
    considers, by simp⟩

/-- The start of an attempt is recorded before anything can go wrong with it. -/
theorem tick_starts
    (proceeds : (other.proceed now inputs.collision).Yields before
      (proceeded.hearing deferral noted, .quiet, status))
    (idle : proceeded.sequencer.stage = .idle)
    (advances : (deferral.tick now false).Yields between (timer, true))
    (waiting : proceeded.waits now = true) :
    .attemptStarted (proceeded.window.nextAttempt now).number now ∈
      (other.tick now { inputs with carrier := false }).events := by
  have idleThen : (proceeded.hearing timer noted).sequencer.stage = .idle := idle
  have waitingThen : (proceeded.hearing timer noted).waits now = true := waiting
  have considers :
      .attemptStarted (proceeded.window.nextAttempt now).number now ∈
        ((proceeded.hearing timer noted).consider now { inputs with carrier := false } true
          .quiet).events := by
    rw [consider_of_idle idleThen, if_pos waitingThen, if_pos rfl]
    exact Traced.mem_events_bind_left List.mem_cons_self
  exact proceeds.mem_events_bind (advances.mem_events_bind
    (Traced.mem_events_bind_left considers))

omit [WordSource γ] in
theorem Settles.deferred {ending : Ending} {outcome : Option Outcome}
    (settles : Settles now engine ending next outcome) :
    next.deferred = engine.deferred := by
  cases settles <;> rfl

theorem Drives.deferred {collision : Bool} {step : SequencerStep}
    (drives : Drives now collision engine next step) :
    next.deferred = engine.deferred := by
  cases drives <;> rfl

theorem Proceeds.deferred {collision : Bool}
    (proceeds : Proceeds now collision engine next signals status marks) :
    next.deferred = engine.deferred := by
  cases proceeds with
  | goesOn drives unended => exact drives.deferred
  | settles drives ended settles => exact settles.deferred.trans drives.deferred

/-- An idle tick notes carrier that is heard while a frame waits. -/
theorem Idles.deferred (idles : Idles now inputs engine next) :
    next.deferred = (engine.deferred || next.waits now && inputs.carrier) := by
  cases idles with
  | parts proceeds idle advances next_eq =>
      rw [next_eq, ← (proceed_yields proceeds).deferred]
      rfl

/-- Once the attempt in progress is settled, an idle tick changes the deferral timer and the
note, and nothing else. -/
theorem Idles.hearing
    (proceeds :
      (engine.proceed now inputs.collision).Yields before (proceeded, signals, status))
    (idles : Idles now inputs engine next) :
    ∃ deferral noted, next = proceeded.hearing deferral noted := by
  cases idles with
  | parts proceedsAgain idle advances next_eq =>
      obtain ⟨_, same⟩ := proceedsAgain.unique proceeds
      cases same
      exact ⟨_, _, next_eq⟩

/-- While an attempt is in progress nothing is noted. -/
theorem Ticks.undeferred
    (active : next.sequencer.stage ≠ .idle)
    (before : engine.sequencer.stage ≠ .idle → engine.deferred = false)
    (ticks : Ticks now inputs engine next outputs marks) :
    next.deferred = false := by
  cases ticks with
  | parts proceeds advances considers =>
      cases considers with
      | launches poised free drives => exact drives.deferred
      | holdsOff poised closed => exact absurd poised.1 active
      | passes unpoised =>
          cases proceeds with
          | goesOn drives unended =>
              refine drives.deferred.trans (before fun idle => active ?_)
              obtain ⟨rfl, _⟩ := drives.resting idle
              exact idle
          | settles drives ended settles =>
              refine absurd ?_ active
              exact settles.keeps.1 ▸ (drives.moves.ended_idle ended).1

end Engine

namespace Scenario

variable {σ γ : Type} [ByteSource σ] [WordSource γ] (scenario : Scenario σ γ)
  (start : Engine σ γ)

def marks (count : Nat) : List Mark :=
  marksOf (scenario.reading count)
    (scenario.tick (scenario.engineAfter start count) count).events

/-- The first attempt to start on or after the tick `since` has the given number and starts
on the tick `count`, and no fault comes before it. -/
structure FirstStart (since count number : Nat) : Prop where
  plays : scenario.Plays start count
  unstarted : ∀ tick, since ≤ tick → tick < count → ¬ HasStart (scenario.marks start tick)
  starts : .started number (scenario.reading count) ∈ scenario.marks start count

variable {scenario start} in
theorem engineAfter_succ {count : Nat} {events : List Event} {next : Engine σ γ}
    {outputs : Outputs}
    (yields : (scenario.tick (scenario.engineAfter start count) count).Yields events
      (next, outputs)) :
    scenario.engineAfter start (count + 1) = next := by
  rw [engineAfter, taken, yields]

end Scenario

namespace Run

variable {config : Config} {σ γ : Type} [ByteSource σ] [WordSource γ]
  (run : Run config σ γ)

/-- What the run is given, with carrier low from the tick `stop` on. -/
def quieted (stop : Nat) : Scenario σ γ where
  source := run.source
  words := run.words
  origin := run.origin
  supply := run.supply
  reading := run.reading
  inputs count :=
    if count < stop then run.inputs count else { run.inputs count with carrier := false }

/-- After the attempt in progress is settled, a frame waits on the tick that no backoff
holds back. -/
def WaitsOn (count : Nat) : Prop :=
  (run.engine (count + 1)).waits (run.reading count) = true

/-- Carrier is heard on a tick on which a frame waits. -/
def HeardInWait (count : Nat) : Prop :=
  run.WaitsOn count ∧ run.carrier count = true

/-- Carrier is heard from `stop` on and ahead of the tick `count` while a frame waits. -/
def HeardSince (stop count : Nat) : Prop :=
  ∃ heard, stop ≤ heard ∧ heard < count ∧ run.HeardInWait heard

/-- Between its last attempt, or its set-up, and a tick the station drives nothing. -/
structure SilentSince (stop count : Nat) : Prop where
  begun : stop ≤ count
  opening : stop = 0 ∨ run.enable (stop - 1) = true
  silent : ∀ tick, stop ≤ tick → tick < count → run.enable tick = false

variable {run} {early gap stop count : Nat}

theorem gapTick_lt {since : Nat} {span : Tick}
    (forward : run.origin ≤ run.reading 0)
    (earlier : stop < since) :
    run.gapTick stop span < run.gapTick since span := by
  rw [run.gapTick_of_pos span (Nat.zero_lt_of_lt earlier)]
  cases stop with
  | zero =>
      rw [gapTick]
      lia
  | succ last => exact Nat.add_lt_add_right earlier span

theorem gapTick_le {since : Nat} {span : Tick}
    (forward : run.origin ≤ run.reading 0)
    (atMost : stop ≤ since) :
    run.gapTick stop span ≤ run.gapTick since span := by
  rcases Nat.lt_or_eq_of_le atMost with earlier | rfl
  · exact Nat.le_of_lt (gapTick_lt forward earlier)
  · exact Nat.le_refl _

/-- The timer does not show less than it did when the gap began. -/
theorem gapOrigin_le
    (consecutive : run.Consecutive)
    (forward : run.origin ≤ run.reading 0)
    (within : count < run.length)
    (begun : stop ≤ count) :
    run.gapOrigin stop ≤ run.reading count := by
  obtain ⟨passed, rfl⟩ := Nat.exists_eq_add_of_le begun
  rw [consecutive.reading passed within]
  cases stop with
  | zero => exact Nat.le_add_right_of_le forward
  | succ last =>
      rw [consecutive last (Nat.lt_of_le_of_lt begun within)]
      exact Nat.le_add_right _ _

theorem idles
    (timing : config.Timing early gap)
    (consecutive : run.Consecutive)
    (within : count < run.length)
    (disabled : run.enable count = false) :
    Engine.Idles (run.reading count) (run.inputs count) (run.entering count)
      (run.engine (count + 1)) :=
  Engine.tick_idles (run.ticked count within)
    (idle_of_disabled timing consecutive within disabled)
    (unstarted_of_disabled timing consecutive within disabled)

theorem undeferred
    (within : count ≤ run.length)
    (active : (run.engine count).sequencer.stage ≠ .idle) :
    (run.engine count).deferred = false := by
  induction count with
  | zero => exact absurd run.idle_at_setUp active
  | succ count inductionHypothesis =>
      have before : (run.entering count).sequencer.stage ≠ .idle →
          (run.entering count).deferred = false :=
        inductionHypothesis (Nat.le_of_succ_le within)
      exact (run.ticks within).undeferred active before

theorem undeferred_at_stop
    (timing : config.Timing early gap)
    (consecutive : run.Consecutive)
    (within : stop ≤ run.length)
    (opening : stop = 0 ∨ run.enable (stop - 1) = true) :
    (run.engine stop).deferred = false := by
  cases stop with
  | zero =>
      obtain ⟨_, _, _, _, _, engineEqual⟩ := Engine.ofConfig_eq_ok run.setUp
      rw [engineEqual]
  | succ last =>
      rcases opening with first | enabled
      · cases first
      · exact undeferred within (driven_of_enabled timing consecutive within enabled).active

theorem rests
    (timing : config.Timing early gap)
    (consecutive : run.Consecutive)
    (within : count < run.length)
    (idle : (run.engine count).sequencer.stage = .idle)
    (disabled : run.enable count = false) :
    ∃ deferral noted, run.engine (count + 1) = (run.entering count).hearing deferral noted := by
  have idleEntering : (run.entering count).sequencer.stage = .idle := idle
  have proceeds := Engine.proceed_resting idleEntering (run.reading count)
    (run.inputs count).collision
  exact (idles timing consecutive within disabled).hearing proceeds

namespace SilentSince

theorem earlier {tick : Nat}
    (silentSince : run.SilentSince stop count)
    (begun : stop ≤ tick)
    (before : tick ≤ count) :
    run.SilentSince stop tick :=
  ⟨begun, silentSince.opening, fun other after within =>
    silentSince.silent other after (Nat.lt_of_lt_of_le within before)⟩

theorem exists_stop (run : Run config σ γ) (count : Nat) :
    ∃ stop, run.SilentSince stop count := by
  induction count with
  | zero => exact ⟨0, Nat.le_refl 0, .inl rfl, fun _ _ before => absurd before (Nat.not_lt_zero _)⟩
  | succ count inductionHypothesis =>
      cases enabled : run.enable count with
      | true =>
          exact ⟨count + 1, Nat.le_refl _, .inr enabled, fun tick after before => by omega⟩
      | false =>
          obtain ⟨stop, silentSince⟩ := inductionHypothesis
          refine ⟨stop, Nat.le_succ_of_le silentSince.begun, silentSince.opening, ?_⟩
          intro tick after before
          rcases Nat.lt_succ_iff_lt_or_eq.mp before with earlier | rfl
          · exact silentSince.silent tick after earlier
          · exact enabled

variable {tick : Nat}

theorem idle
    (timing : config.Timing early gap)
    (consecutive : run.Consecutive)
    (within : count ≤ run.length)
    (silentSince : run.SilentSince stop count)
    (after : stop = 0 ∨ stop < count) :
    (run.engine count).sequencer.stage = .idle := by
  cases count with
  | zero => exact run.idle_at_setUp
  | succ last =>
      exact idle_of_disabled timing consecutive within
        (silentSince.silent last (by omega) (Nat.lt_succ_self last))

/-- The gap before a start lies within the silence. -/
theorem gap_le
    (timing : config.Timing early gap)
    (consecutive : run.Consecutive)
    (within : count < run.length)
    (silentSince : run.SilentSince stop count)
    (starts : run.Starts count) :
    ∃ since, stop ≤ since ∧ run.GapOver early gap since count := by
  have defers := defers timing consecutive (Nat.le_of_lt within)
  obtain ⟨since, gapOver⟩ := (defers.ticks timing consecutive within).gapOver starts
  refine ⟨since, ?_, gapOver⟩
  rcases silentSince.opening with rfl | enabled
  · exact Nat.zero_le since
  · rcases Nat.lt_or_ge since stop with earlier | later
    · have begun := silentSince.begun
      have disabled := gapOver.quiet.silent (stop - 1) (by omega) (by omega)
      cases disabled.symm.trans enabled
    · exact later

end SilentSince

/-- The gap begins on the tick on which the silence does. -/
theorem early_at_stop
    (timing : config.Timing early gap)
    (consecutive : run.Consecutive)
    (within : stop < run.length)
    (opening : stop = 0 ∨ run.enable (stop - 1) = true)
    (settled : stop = 0 ∨ run.enable stop = false) :
    (run.engine stop).deferral.state = .early (run.gapOrigin stop) := by
  cases stop with
  | zero => exact run.deferral_at_setUp
  | succ last =>
      have enabled := opening.resolve_left (Nat.succ_ne_zero last)
      have disabled := settled.resolve_left (Nat.succ_ne_zero last)
      have driven : (run.engine (last + 1)).sequencer.Driven :=
        driven_of_enabled timing consecutive (Nat.lt_of_succ_lt within) enabled
      cases defers timing consecutive (Nat.le_of_lt within) with
      | inGap inGap quiet => exact absurd inGap.idle driven.active
      | past idle => exact absurd idle driven.active
      | launched _ high gapOver =>
          cases sends timing within (.inr driven) with
          | rests idle => exact absurd idle driven.active
          | starts idle => exact absurd idle driven.active
          | goesOn active drivenNext advances enabled => cases disabled.symm.trans enabled
          | stops active low => cases high.symm.trans low
          | stopsOpen active low => cases high.symm.trans low
      | driving _ state => exact state

theorem quieted_engine
    (within : stop ≤ run.length)
    (before : count ≤ stop) :
    (run.quieted stop).engineAfter (run.engine 0) count = run.engine count ∧
      (run.quieted stop).Plays (run.engine 0) count := by
  induction count with
  | zero => exact ⟨rfl, fun tick before => absurd before (Nat.not_lt_zero tick)⟩
  | succ count inductionHypothesis =>
      obtain ⟨same, plays⟩ := inductionHypothesis (Nat.le_of_succ_le before)
      have yields : ((run.quieted stop).tick
          ((run.quieted stop).engineAfter (run.engine 0) count) count).Yields
            (run.events count) (run.engine (count + 1), run.outputs count) := by
        have inputs : (run.quieted stop).inputs count = run.inputs count :=
          if_pos before
        rw [same, Scenario.tick, inputs]
        exact run.ticked count (Nat.lt_of_lt_of_le before within)
      refine ⟨Scenario.engineAfter_succ yields, fun tick before => ?_⟩
      rcases Nat.lt_succ_iff_lt_or_eq.mp before with earlier | rfl
      · exact plays tick earlier
      · rw [yields]
        rfl

/-- How the run and the one without carrier stand on a tick once the attempt in progress is
settled: they differ in the deferral timer and in the note. -/
inductive Unheard (run : Run config σ γ) (early gap stop count : Nat) : Prop
  | stands {proceeded : Engine σ γ} {status : Indicators} {before : List Event}
      {deferral : Deferral} {noted : Bool}
      (proceeds :
        ((run.entering count).proceed (run.reading count)
          (run.inputs count).collision).Yields before (proceeded, .quiet, status))
      (idle : proceeded.sequencer.stage = .idle)
      (other :
        ((((run.quieted stop).engineAfter (run.engine 0) count).supplied
          (run.supply count)).proceed (run.reading count)
            (run.inputs count).collision).Yields before
              (proceeded.hearing deferral noted, .quiet, status))
      (undisturbed : deferral.Undisturbed (run.gapOrigin stop) (run.gapOrigin count))
      (earlyTicks : deferral.earlyTicks = early)
      (gapTicks : deferral.gapTicks = gap)

/-- On the tick on which the silence begins the attempt in progress is settled, if there is
one. -/
theorem settled_at_stop
    (timing : config.Timing early gap)
    (consecutive : run.Consecutive)
    (within : stop < run.length)
    (settled : stop = 0 ∨ run.enable stop = false) :
    ∃ before proceeded status,
      ((run.entering stop).proceed (run.reading stop) (run.inputs stop).collision).Yields before
          (proceeded, .quiet, status) ∧
        proceeded.sequencer.stage = .idle := by
  rcases settled with rfl | disabled
  · have idle : (run.entering 0).sequencer.stage = .idle := run.idle_at_setUp
    exact ⟨[], _, {}, Engine.proceed_resting idle _ _, idle⟩
  · cases idles timing consecutive within disabled with
    | parts proceeds idle advances => exact ⟨_, _, _, proceeds, idle⟩

theorem unheard_at_stop
    (timing : config.Timing early gap)
    (consecutive : run.Consecutive)
    (within : stop < run.length)
    (opening : stop = 0 ∨ run.enable (stop - 1) = true)
    (settled : stop = 0 ∨ run.enable stop = false) :
    run.Unheard early gap stop stop := by
  have state := early_at_stop timing consecutive within opening settled
  obtain ⟨earlyTicks, gapTicks⟩ := spans timing (Nat.le_of_lt within)
  have same := (quieted_engine (Nat.le_of_lt within) (Nat.le_refl stop)).1
  obtain ⟨before, proceeded, status, proceeds, idle⟩ :=
    settled_at_stop timing consecutive within settled
  have kept := (Engine.proceed_yields proceeds).deferral
  have other :
      ((((run.quieted stop).engineAfter (run.engine 0) stop).supplied
        (run.supply stop)).proceed (run.reading stop) (run.inputs stop).collision).Yields
          before
          (proceeded.hearing proceeded.deferral proceeded.deferred, .quiet, status) := by
    rw [same]
    exact proceeds
  exact .stands proceeds idle other (.early (kept ▸ state)) (kept ▸ earlyTicks) (kept ▸ gapTicks)

theorem quieted_inputs (after : stop ≤ count) :
    (run.quieted stop).inputs count = { run.inputs count with carrier := false } :=
  if_neg (Nat.not_lt.mpr after)

/-- As long as no attempt starts in either run, they differ in the deferral timer and in the
note only. -/
theorem Unheard.ticks
    (timing : config.Timing early gap)
    (consecutive : run.Consecutive)
    (forward : run.origin ≤ run.reading 0)
    (within : count < run.length)
    (fits : run.gapOrigin stop + gap < wideLimit)
    (after : stop ≤ count)
    (disabled : run.enable count = false)
    (shut : run.gapTick stop gap ≤ count → ¬ run.WaitsOn count)
    (unheard : run.Unheard early gap stop count) :
    ((run.quieted stop).tick ((run.quieted stop).engineAfter (run.engine 0) count)
        count).value.isOk = true ∧
      ¬ HasStart ((run.quieted stop).marks (run.engine 0) count) ∧
      run.Unheard early gap stop (count + 1) := by
  have shorter := timing.early_lt_gap
  have idles := idles timing consecutive within disabled
  cases unheard with
  | @stands proceeded status before deferral noted proceeds idle other undisturbed earlyTicks
      gapTicks =>
      subst earlyTicks gapTicks
      obtain ⟨between, timer, advances, undisturbedNext, earlyKept, gapKept⟩ :=
        (undisturbed.later (gapOrigin_le consecutive forward within (Nat.le_refl count))).ticks
          shorter fits
      obtain ⟨deferralNext, notedNext, next⟩ := idles.hearing proceeds
      have shutThen :
          decide (run.gapOrigin stop + deferral.gapTicks ≤ run.reading count) = true →
            proceeded.waits (run.reading count) = false := by
        intro complete
        rw [decide_eq_true_iff, ← consecutive.gapTick_le_iff within after] at complete
        have unwaiting := shut complete
        rw [WaitsOn, next, Bool.not_eq_true] at unwaiting
        exact unwaiting
      have yields : ((run.quieted stop).tick
          ((run.quieted stop).engineAfter (run.engine 0) count) count).Yields
            (before ++ between)
            (proceeded.hearing timer noted, { signals := .quiet, status }) := by
        rw [Scenario.tick, quieted_inputs after]
        exact Engine.tick_unheard other idle advances shutThen
      have unstarted : ¬ HasStart (marksOf (run.reading count) (before ++ between)) := by
        rw [marksOf_append, hasStart_append, (Deferral.tick_yields advances).2, not_or]
        exact ⟨(Engine.proceed_yields proceeds).unstarted, not_hasStart_nil⟩
      have enteringNext :
          ((run.quieted stop).engineAfter (run.engine 0) (count + 1)).supplied
              (run.supply (count + 1)) =
            (run.entering (count + 1)).hearing timer noted := by
        rw [Scenario.engineAfter_succ yields, entering, next]
        rfl
      have idleNext : (run.entering (count + 1)).sequencer.stage = .idle := by
        rw [entering, next]
        exact idle
      have proceedsNext := Engine.proceed_resting idleNext (run.reading (count + 1))
        (run.inputs (count + 1)).collision
      have idleOther : ((run.entering (count + 1)).hearing timer noted).sequencer.stage = .idle :=
        idleNext
      have otherNext :
          ((((run.quieted stop).engineAfter (run.engine 0) (count + 1)).supplied
            (run.supply (count + 1))).proceed (run.reading (count + 1))
              (run.inputs (count + 1)).collision).Yields []
                ((run.entering (count + 1)).hearing timer noted, .quiet, {}) := by
        rw [enteringNext]
        exact Engine.proceed_resting idleOther _ _
      refine ⟨?_, ?_, ?_⟩
      · rw [yields]
        rfl
      · rw [Scenario.marks, yields]
        exact unstarted
      · exact .stands proceedsNext idleNext otherNext undisturbedNext earlyKept gapKept

/-- Once the gap is over, the run without carrier starts an attempt as soon as a frame
waits. -/
theorem Unheard.starts
    (timing : config.Timing early gap)
    (consecutive : run.Consecutive)
    (forward : run.origin ≤ run.reading 0)
    (within : count < run.length)
    (fits : run.gapOrigin stop + gap < wideLimit)
    (idle : (run.engine count).sequencer.stage = .idle)
    (complete : run.gapTick stop gap ≤ count)
    (waiting : (run.entering count).waits (run.reading count) = true)
    (unheard : run.Unheard early gap stop count) :
    .started (run.engine count).collisions (run.reading count) ∈
      (run.quieted stop).marks (run.engine 0) count := by
  have shorter := timing.early_lt_gap
  have idleEntering : (run.entering count).sequencer.stage = .idle := idle
  have after : stop ≤ count := Nat.le_trans (run.le_gapTick stop gap) complete
  cases unheard with
  | @stands proceeded status before deferral noted proceeds idleThen other undisturbed
      earlyTicks gapTicks =>
      subst earlyTicks gapTicks
      obtain ⟨between, timer, advances, _⟩ :=
        (undisturbed.later (gapOrigin_le consecutive forward within (Nat.le_refl count))).ticks
          shorter fits
      obtain ⟨_, same⟩ := proceeds.unique (Engine.proceed_resting idleEntering _ _)
      cases same
      have ready :
          decide (run.gapOrigin stop + deferral.gapTicks ≤ run.reading count) = true :=
        decide_eq_true ((consecutive.gapTick_le_iff within after).mp complete)
      rw [ready] at advances
      have recorded := Engine.tick_starts other idleEntering advances waiting
      rw [Scenario.marks, marksOf, List.mem_filterMap]
      refine ⟨.attemptStarted (run.engine count).collisions (run.reading count), ?_, rfl⟩
      rw [Scenario.tick, quieted_inputs after]
      exact recorded

section Silence

variable {last tick : Nat}

theorem idles_of_silent
    (timing : config.Timing early gap)
    (consecutive : run.Consecutive)
    (within : last ≤ run.length)
    (silentSince : run.SilentSince stop last)
    (after : stop ≤ tick)
    (before : tick < last) :
    Engine.Idles (run.reading tick) (run.inputs tick) (run.entering tick)
      (run.engine (tick + 1)) :=
  idles timing consecutive (Nat.lt_of_lt_of_le before within) (silentSince.silent tick after before)

/-- Every gap of the silence begins when the silence does or later. -/
theorem begunBy
    (timing : config.Timing early gap)
    (consecutive : run.Consecutive)
    (forward : run.origin ≤ run.reading 0)
    (within : last ≤ run.length)
    (stopWithin : stop < run.length)
    (silentSince : run.SilentSince stop last)
    (lasts : stop = 0 ∨ stop < last)
    (after : stop ≤ tick)
    (before : tick ≤ last) :
    (run.engine tick).deferral.BegunBy (run.gapOrigin stop) := by
  induction tick, after using Nat.le_induction with
  | base =>
      have state := early_at_stop timing consecutive stopWithin silentSince.opening
        (lasts.imp_right (silentSince.silent stop (Nat.le_refl stop)))
      refine ⟨?_, ?_⟩
      · rintro other (begun | begun)
        · cases state.symm.trans begun
          exact Nat.le_refl _
        · cases state.symm.trans begun
      · rintro (begun | begun) <;> cases state.symm.trans begun
  | succ tick after inductionHypothesis =>
      have begun := inductionHypothesis (Nat.le_of_succ_le before)
      have reached :=
        gapOrigin_le consecutive forward (Nat.lt_of_lt_of_le before within) after
      cases idles_of_silent timing consecutive within silentSince after before with
      | parts proceeds idle advances next_eq =>
          have kept := (Engine.proceed_yields proceeds).deferral
          rw [kept] at advances
          rw [next_eq]
          exact (begun.ticks (Nat.le_succ_of_le reached) advances).1

/-- The end of the first gap of the silence can be told once an attempt starts. -/
theorem gap_fits
    (timing : config.Timing early gap)
    (consecutive : run.Consecutive)
    (forward : run.origin ≤ run.reading 0)
    (within : last < run.length)
    (silentSince : run.SilentSince stop last)
    (lasts : stop = 0 ∨ stop < last)
    (starts : run.Starts last) :
    run.gapOrigin stop + gap < wideLimit := by
  have begun := begunBy timing consecutive forward (Nat.le_of_lt within)
    (Nat.lt_of_le_of_lt silentSince.begun within) silentSince lasts silentSince.begun
    (Nat.le_refl last)
  have idle : (run.entering last).sequencer.stage = .idle :=
    silentSince.idle timing consecutive (Nat.le_of_lt within) lasts
  obtain ⟨_, _, between, deferral, advances⟩ :=
    Engine.tick_launches idle (run.ticked last within) starts
  have reached := gapOrigin_le consecutive forward within silentSince.begun
  have fits := (begun.ticks (Nat.le_succ_of_le reached) advances).2 rfl
  rwa [(spans timing (Nat.le_of_lt within)).2] at fits

/-- What is noted during the silence is carrier that is heard while a frame waits. -/
theorem deferred_iff
    (timing : config.Timing early gap)
    (consecutive : run.Consecutive)
    (within : last ≤ run.length)
    (silentSince : run.SilentSince stop last)
    (after : stop ≤ tick)
    (before : tick ≤ last) :
    (run.engine tick).deferred = true ↔ run.HeardSince stop tick := by
  induction tick, after using Nat.le_induction with
  | base =>
      rw [undeferred_at_stop timing consecutive (Nat.le_trans before within) silentSince.opening]
      constructor
      · nofun
      · rintro ⟨heard, begun, earlier, _⟩
        omega
  | succ tick after inductionHypothesis =>
      have idles := idles_of_silent timing consecutive within silentSince after before
      have entering : (run.entering tick).deferred = (run.engine tick).deferred := rfl
      rw [idles.deferred, entering, Bool.or_eq_true, Bool.and_eq_true,
        inductionHypothesis (Nat.le_of_succ_le before)]
      constructor
      · rintro (⟨heard, begun, earlier, holds⟩ | holds)
        · exact ⟨heard, begun, Nat.lt_succ_of_lt earlier, holds⟩
        · exact ⟨tick, after, Nat.lt_succ_self tick, holds⟩
      · rintro ⟨heard, begun, earlier, holds⟩
        rcases Nat.lt_succ_iff_lt_or_eq.mp earlier with earlier | rfl
        · exact .inl ⟨heard, begun, earlier, holds⟩
        · exact .inr holds

/-- Up to the first tick on which it may start an attempt, the run without carrier goes on
without a fault and without a start. -/
theorem unheard_until
    (timing : config.Timing early gap)
    (consecutive : run.Consecutive)
    (forward : run.origin ≤ run.reading 0)
    (within : last < run.length)
    (silentSince : run.SilentSince stop last)
    (lasts : stop = 0 ∨ stop < last)
    (fits : run.gapOrigin stop + gap < wideLimit)
    (after : stop ≤ tick)
    (before : tick ≤ last)
    (shut : ∀ other, run.gapTick stop gap ≤ other → other < tick → ¬ run.WaitsOn other) :
    run.Unheard early gap stop tick ∧ (run.quieted stop).Plays (run.engine 0) tick ∧
      ∀ other, stop ≤ other → other < tick →
        ¬ HasStart ((run.quieted stop).marks (run.engine 0) other) := by
  induction tick, after using Nat.le_induction with
  | base =>
      have stopWithin := Nat.lt_of_le_of_lt silentSince.begun within
      have settled := lasts.imp_right (silentSince.silent stop (Nat.le_refl stop))
      exact ⟨unheard_at_stop timing consecutive stopWithin silentSince.opening settled,
        (quieted_engine (Nat.le_of_lt stopWithin) (Nat.le_refl stop)).2,
        fun other begun earlier => by omega⟩
  | succ tick after inductionHypothesis =>
      obtain ⟨unheard, plays, unstarted⟩ :=
        inductionHypothesis (Nat.le_of_succ_le before) fun other complete earlier =>
          shut other complete (Nat.lt_succ_of_lt earlier)
      obtain ⟨runs, unstartedNow, unheardNext⟩ :=
        unheard.ticks timing consecutive forward (Nat.lt_trans before within) fits after
          (silentSince.silent tick after before)
          fun complete => shut tick complete (Nat.lt_succ_self tick)
      refine ⟨unheardNext, ?_, ?_⟩
      · intro other earlier
        rcases Nat.lt_succ_iff_lt_or_eq.mp earlier with earlier | rfl
        · exact plays other earlier
        · exact runs
      · intro other begun earlier
        rcases Nat.lt_succ_iff_lt_or_eq.mp earlier with earlier | rfl
        · exact unstarted other begun earlier
        · exact unstartedNow

/-- A tick of the silence leaves the collisions of the frame, the source and the backoff as
they are. -/
theorem rests_of_silent
    (timing : config.Timing early gap)
    (consecutive : run.Consecutive)
    (within : last ≤ run.length)
    (silentSince : run.SilentSince stop last)
    (begun : stop ≤ tick)
    (after : stop = 0 ∨ stop < tick)
    (before : tick < last) :
    ∃ deferral noted, run.engine (tick + 1) = (run.entering tick).hearing deferral noted := by
  have tickWithin := Nat.lt_of_lt_of_le before within
  have idle := (silentSince.earlier begun (Nat.le_of_lt before)).idle timing
    consecutive (Nat.le_of_lt tickWithin) after
  exact rests timing consecutive tickWithin idle (silentSince.silent tick begun before)

theorem collisions_of_silent
    (timing : config.Timing early gap)
    (consecutive : run.Consecutive)
    (within : last ≤ run.length)
    (silentSince : run.SilentSince stop last)
    (begun : stop ≤ tick)
    (after : stop = 0 ∨ stop < tick)
    (before : tick ≤ last) :
    (run.engine last).collisions = (run.engine tick).collisions := by
  induction last, before using Nat.le_induction with
  | base => rfl
  | succ count reached inductionHypothesis =>
      have begunThen := Nat.le_trans begun reached
      have shorter := silentSince.earlier begunThen (Nat.le_succ count)
      obtain ⟨deferral, noted, next⟩ :=
        rests_of_silent timing consecutive within silentSince begunThen
          (after.imp_right fun after => Nat.lt_of_lt_of_le after reached)
          (Nat.lt_succ_self count)
      rw [next]
      exact inductionHypothesis (Nat.le_of_succ_le within) shorter

/-- A frame that waits goes on waiting if nothing that is done to the source takes it
away. -/
theorem waitsOn_of_kept
    (timing : config.Timing early gap)
    (consecutive : run.Consecutive)
    (within : last ≤ run.length)
    (silentSince : run.SilentSince stop last)
    (kept : ∀ count source, ByteSource.ready source = true →
      ByteSource.ready (run.supply count source) = true)
    (begun : stop ≤ tick)
    (waiting : run.WaitsOn tick)
    (later : tick ≤ count)
    (before : count < last) :
    run.WaitsOn count := by
  induction count, later using Nat.le_induction with
  | base => exact waiting
  | succ count reached inductionHypothesis =>
      have waitingThen := inductionHypothesis (Nat.lt_of_succ_lt before)
      have after := Nat.lt_succ_of_le (Nat.le_trans begun reached)
      obtain ⟨deferral, noted, next⟩ :=
        rests_of_silent timing consecutive within silentSince (Nat.le_of_lt after) (.inr after)
          before
      have reading : run.reading count ≤ run.reading (count + 1) := by
        rw [consecutive count (Nat.lt_of_lt_of_le before within)]
        exact Nat.le_succ _
      simp only [WaitsOn, Engine.waits, Bool.and_eq_true] at waitingThen
      have ready : ByteSource.ready (run.entering (count + 1)).source = true :=
        kept (count + 1) _ waitingThen.1
      have backoffDone : (run.entering (count + 1)).backoffDone (run.reading (count + 1)) = true :=
        Engine.backoffDone_later waitingThen.2 reading
      rw [WaitsOn, next, Engine.waits, Bool.and_eq_true]
      exact ⟨ready, backoffDone⟩

/-- After the first gap there is a tick ahead of the start on which a frame waits, if one
waited during the silence and the start does not complete the gap. -/
theorem waitsOn_after_gap
    (timing : config.Timing early gap)
    (consecutive : run.Consecutive)
    (within : last ≤ run.length)
    (silentSince : run.SilentSince stop last)
    (kept : ∀ count source, ByteSource.ready source = true →
      ByteSource.ready (run.supply count source) = true)
    (begun : stop ≤ tick)
    (before : tick < last)
    (waiting : run.WaitsOn tick)
    (later : run.gapTick stop gap < last) :
    ∃ other, run.gapTick stop gap ≤ other ∧ other < last ∧ run.WaitsOn other := by
  rcases Nat.lt_or_ge tick (run.gapTick stop gap) with inGap | after
  · exact ⟨run.gapTick stop gap, Nat.le_refl _, later,
      waitsOn_of_kept timing consecutive within silentSince kept begun waiting (Nat.le_of_lt inGap)
        later⟩
  · exact ⟨tick, after, before, waiting⟩

/-- An attempt counts a deferral exactly if carrier was heard while its frame waited. -/
theorem stats_of_starts
    (timing : config.Timing early gap)
    (consecutive : run.Consecutive)
    (within : last < run.length)
    (silentSince : run.SilentSince stop last)
    (lasts : stop = 0 ∨ stop < last)
    (starts : run.Starts last) :
    (run.HeardSince stop last →
        (run.engine (last + 1)).stats = (run.engine last).stats.countDeferral) ∧
      (¬ run.HeardSince stop last →
        (run.engine (last + 1)).stats = (run.engine last).stats) := by
  have idle : (run.entering last).sequencer.stage = .idle :=
    silentSince.idle timing consecutive (Nat.le_of_lt within) lasts
  obtain ⟨_, stats, _⟩ := Engine.tick_launches idle (run.ticked last within) starts
  have noted : (run.entering last).deferred = true ↔ run.HeardSince stop last :=
    deferred_iff timing consecutive (Nat.le_of_lt within) silentSince silentSince.begun
      (Nat.le_refl last)
  constructor
  · intro heard
    rw [stats, if_pos (noted.mpr heard)]
    rfl
  · intro unheard
    rw [stats, if_neg fun deferred => unheard (noted.mp deferred)]
    rfl

end Silence

/-- With carrier low the attempt starts on the first tick from the end of the gap on that
finds a frame waiting, or else on the tick on which it starts with carrier. -/
theorem first_start_unheard {last : Nat}
    (timing : config.Timing early gap)
    (consecutive : run.Consecutive)
    (forward : run.origin ≤ run.reading 0)
    (within : last < run.length)
    (silentSince : run.SilentSince stop last)
    (complete : run.gapTick stop gap ≤ last)
    (fits : run.gapOrigin stop + gap < wideLimit)
    (waiting : (run.entering last).waits (run.reading last) = true) :
    ∃ first, run.gapTick stop gap ≤ first ∧ first ≤ last ∧
      (run.quieted stop).FirstStart (run.engine 0) stop first (run.engine last).collisions ∧
      (first < last ↔
        ∃ other, run.gapTick stop gap ≤ other ∧ other < last ∧ run.WaitsOn other) := by
  have gapPos : 0 < gap := Nat.lt_of_le_of_lt (Nat.zero_le early) timing.early_lt_gap
  have atMost := Nat.le_of_lt within
  have found : ∃ first, run.gapTick stop gap ≤ first ∧ (run.WaitsOn first ∨ first = last) :=
    ⟨last, complete, .inr rfl⟩
  obtain ⟨first, ⟨gapFirst, waits⟩, least⟩ : ∃ first,
      (run.gapTick stop gap ≤ first ∧ (run.WaitsOn first ∨ first = last)) ∧
        ∀ other, other < first →
          ¬ (run.gapTick stop gap ≤ other ∧ (run.WaitsOn other ∨ other = last)) := by
    classical
    exact ⟨Nat.find found, Nat.find_spec found, fun other => Nat.find_min found⟩
  have firstLast : first ≤ last := by
    by_cases beyond : last < first
    · exact absurd ⟨complete, .inr rfl⟩ (least last beyond)
    · exact Nat.le_of_not_lt beyond
  have begun : stop ≤ first := Nat.le_trans (run.le_gapTick stop gap) gapFirst
  have after : stop = 0 ∨ stop < first := gapTick_reached gapPos gapFirst
  have lasts : stop = 0 ∨ stop < last :=
    after.imp_right fun after => Nat.lt_of_lt_of_le after firstLast
  obtain ⟨unheard, plays, unstarted⟩ :=
    unheard_until timing consecutive forward within silentSince lasts fits begun firstLast
      fun other begun earlier waits => least other earlier ⟨begun, .inl waits⟩
  have firstWithin := Nat.lt_of_le_of_lt firstLast within
  have idle := (silentSince.earlier begun firstLast).idle timing consecutive
    (Nat.le_of_lt firstWithin) after
  have waitsEntering : (run.entering first).waits (run.reading first) = true := by
    rcases Nat.lt_or_eq_of_le firstLast with before | rfl
    · obtain ⟨deferral, noted, next⟩ :=
        rests_of_silent timing consecutive atMost silentSince begun after before
      rcases waits with waits | same
      · rw [WaitsOn, next] at waits
        exact waits
      · exact absurd same (Nat.ne_of_lt before)
    · exact waiting
  have starts :=
    unheard.starts timing consecutive forward firstWithin fits idle gapFirst waitsEntering
  rw [← collisions_of_silent timing consecutive atMost silentSince begun after firstLast]
    at starts
  refine ⟨first, gapFirst, firstLast, ⟨plays, unstarted, starts⟩, ?_⟩
  constructor
  · intro before
    rcases waits with waits | same
    · exact ⟨first, gapFirst, before, waits⟩
    · exact absurd same (Nat.ne_of_lt before)
  · rintro ⟨other, begun, before, waits⟩
    rcases Nat.lt_or_ge other first with earlier | atLeast
    · exact absurd ⟨begun, .inl waits⟩ (least other earlier)
    · exact Nat.lt_of_le_of_lt atLeast before

/-- What a deferral counts.  An attempt that starts on `tick` is counted as deferred if
carrier was heard while its frame waited, from the tick `stop` on, on which the previous
attempt left the line or the engine was set up.  With carrier low from then on it would have
started on the first tick from the end of the first gap on that finds a frame waiting.  That
is earlier than `tick`, for a frame that goes on waiting, unless `tick` completes the first
gap; and then all the carrier heard since `stop` lies in the late part of that gap.

A timer that went back from the set-up to the first tick could make the first gap longer than
any other, and carrier would then shorten it. -/
theorem counts_carrier_heard_in_wait
    (consecutive : run.Consecutive)
    (forward : run.origin ≤ run.reading 0)
    {tick : Nat}
    (within : tick < run.length)
    (starts : run.Starts tick) :
    ∃ early gap stop first,
      config.earlyTicks = .ok early ∧ config.gapTicks = .ok gap ∧
      run.SilentSince stop tick ∧ run.gapTick stop gap ≤ first ∧ first ≤ tick ∧
      (run.HeardSince stop tick →
        (run.engine (tick + 1)).stats = (run.engine tick).stats.countDeferral) ∧
      (¬ run.HeardSince stop tick →
        (run.engine (tick + 1)).stats = (run.engine tick).stats) ∧
      (run.quieted stop).FirstStart (run.engine 0) stop first (run.engine tick).collisions ∧
      (first < tick ↔
        ∃ other, run.gapTick stop gap ≤ other ∧ other < tick ∧ run.WaitsOn other) ∧
      ((∀ count source, ByteSource.ready source = true →
          ByteSource.ready (run.supply count source) = true) →
        (run.engine tick).stats.deferrals < (run.engine (tick + 1)).stats.deferrals →
          (first < tick ↔ tick ≠ run.gapTick stop gap)) ∧
      (tick = run.gapTick stop gap → ∀ heard, stop ≤ heard → heard < tick →
        run.carrier heard = true → run.gapTick stop early ≤ heard) := by
  obtain ⟨early, gap, timing⟩ := run.accepted.timing
  obtain ⟨stop, silentSince⟩ := SilentSince.exists_stop run tick
  obtain ⟨since, sinceAfter, gapOver⟩ := silentSince.gap_le timing consecutive within starts
  have atMost := Nat.le_of_lt within
  have gapPos : 0 < gap := Nat.lt_of_le_of_lt (Nat.zero_le early) timing.early_lt_gap
  have complete : run.gapTick stop gap ≤ tick :=
    Nat.le_trans (gapTick_le forward sinceAfter) gapOver.complete
  have lasts : stop = 0 ∨ stop < tick := gapTick_reached gapPos complete
  have fits := gap_fits timing consecutive forward within silentSince lasts starts
  have idle : (run.entering tick).sequencer.stage = .idle :=
    silentSince.idle timing consecutive atMost lasts
  obtain ⟨waiting, _⟩ := Engine.tick_launches idle (run.ticked tick within) starts
  obtain ⟨counted, uncounted⟩ :=
    stats_of_starts timing consecutive within silentSince lasts starts
  obtain ⟨first, gapFirst, firstTick, firstStart, earlier⟩ :=
    first_start_unheard timing consecutive forward within silentSince complete fits waiting
  refine ⟨early, gap, stop, first, timing.earlyTicks_eq, timing.gapTicks_eq, silentSince,
    gapFirst, firstTick, counted, uncounted, firstStart, earlier, ?_, ?_⟩
  · intro kept increments
    have heardSince : run.HeardSince stop tick := by
      by_cases heardSince : run.HeardSince stop tick
      · exact heardSince
      · rw [uncounted heardSince] at increments
        exact absurd increments (Nat.lt_irrefl _)
    obtain ⟨heard, begun, before, waited, _⟩ := heardSince
    rw [earlier]
    constructor
    · rintro ⟨other, later, otherBefore, _⟩
      lia
    · intro different
      have later : run.gapTick stop gap < tick := Nat.lt_of_le_of_ne complete different.symm
      exact waitsOn_after_gap timing consecutive atMost silentSince kept begun before waited later
  · intro completes heard begun before carrier
    have same : since = stop := by
      rcases Nat.lt_or_eq_of_le sinceAfter with later | same
      · have past := Nat.lt_of_lt_of_le (gapTick_lt forward later) gapOver.complete
        exact absurd completes (Nat.ne_of_gt past)
      · exact same.symm
    subst same
    rcases Nat.lt_or_ge heard (run.gapTick since early) with inEarly | late
    · cases carrier.symm.trans (gapOver.quiet.calmEarly heard begun inEarly before)
    · exact late

def earlyCarrierScenario : Scenario ScriptedSource ZeroWords where
  source := { frames := [.ofBytes [0xA5]] }
  words := {}
  inputs count := { carrier := count = 0 }

def earlyCarrierRun : Run .brief ScriptedSource ZeroWords :=
  (earlyCarrierScenario.run? .brief 4).get (by decide +kernel)

/-- Carrier in the early part of the first gap holds the first attempt off. -/
theorem counts_carrier_heard_in_wait_earlyCarrierRun :
    earlyCarrierRun.Steady ∧ earlyCarrierRun.Starts 3 ∧
      (earlyCarrierRun.engine 3).stats.deferrals < (earlyCarrierRun.engine 4).stats.deferrals ∧
      ∃ first, first < 3 ∧
        (earlyCarrierRun.quieted 0).FirstStart (earlyCarrierRun.engine 0) 0 first 0 := by
  have steady : earlyCarrierRun.Steady := fun count _ => (Nat.zero_add count).symm
  have starts : earlyCarrierRun.Starts 3 := by decide +kernel
  have increments : (earlyCarrierRun.engine 3).stats.deferrals <
      (earlyCarrierRun.engine 4).stats.deferrals := by decide +kernel
  obtain ⟨early, gap, stop, first, _, gapEqual, silentSince, gapFirst, firstTick, _, _,
    firstStart, _, earlier, _⟩ := counts_carrier_heard_in_wait steady.consecutive (Nat.le_refl 0)
      (by decide +kernel) starts
  obtain rfl : 2 = gap := Except.ok.inj gapEqual
  obtain rfl : stop = 0 := by
    cases stop with
    | zero => rfl
    | succ last =>
        have disabled : ∀ tick, tick < 2 → earlyCarrierRun.enable tick = false := by
          decide +kernel
        have enabled := silentSince.opening.resolve_left (Nat.succ_ne_zero last)
        have complete : last + 1 + 2 ≤ first := gapFirst
        cases enabled.symm.trans (disabled last (by omega))
  have before := (earlier (fun _ _ ready => ready) increments).mpr (by decide)
  exact ⟨steady, starts, increments, first, before, firstStart⟩

/-- Carrier in the late part of the gap is counted although it holds nothing off. -/
theorem late_carrier_counted_without_delay :
    lateCarrierRun.Steady ∧ lateCarrierRun.Starts 16 ∧
      (lateCarrierRun.engine 16).stats.deferrals <
        (lateCarrierRun.engine 17).stats.deferrals ∧
      lateCarrierRun.SilentSince 14 16 ∧
      (∀ heard, 14 ≤ heard → heard < 16 → lateCarrierRun.carrier heard = true →
        14 + 1 ≤ heard) ∧
      (∀ earlier, 14 ≤ earlier → earlier < 16 →
        ¬ HasStart ((lateCarrierRun.quieted 14).marks (lateCarrierRun.engine 0) earlier)) ∧
      HasStart ((lateCarrierRun.quieted 14).marks (lateCarrierRun.engine 0) 16) := by
  have steady : lateCarrierRun.Steady := fun count _ => (Nat.zero_add count).symm
  have silent : ∀ tick, tick < 16 → 14 ≤ tick → lateCarrierRun.enable tick = false := by
    decide +kernel
  have late : ∀ tick, tick < 16 → 14 ≤ tick → lateCarrierRun.carrier tick = true →
      14 + 1 ≤ tick := by
    decide +kernel
  have unstarted : ∀ tick, tick < 16 → 14 ≤ tick →
      ¬ HasStart ((lateCarrierRun.quieted 14).marks (lateCarrierRun.engine 0) tick) := by
    decide +kernel
  refine ⟨steady, by decide +kernel, by decide +kernel, ?_, ?_, ?_, by decide +kernel⟩
  · exact ⟨by decide, .inr (by decide +kernel), fun tick begun before => silent tick before begun⟩
  · exact fun heard begun before => late heard before begun
  · exact fun tick begun before => unstarted tick before begun

end Run

end HalfDuplex
