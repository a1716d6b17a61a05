import HalfDuplex.Proofs.Replay

/-!
# The error signal over a queue

Pulling from an empty queue starves, but an attempt in progress always has its frame in the
queue: no replay, release or start on the same tick gets between them.  So the error marker
of a starved attempt never appears, and the error signal stands for poisoned octets alone.

`Sequencer.Carries` follows a byte on the line by its age, the number of ticks for which it
was driven.  A byte is carried for the time of two nibbles, whatever collisions are noticed
meanwhile, and the error signal does not change under it.
-/

namespace HalfDuplex

namespace FrameQueue

variable {capacity : Nat} {queue after : FrameQueue capacity} {now : Tick} {octet : Octet}

/-- An octet that a queue supplies was handed over from the frame in front. -/
theorem handover?_octet
    (pulled : ByteSource.pull queue now = .ok (after, .octet octet)) :
    ∃ frame place, queue.handover? (.octet octet) = some { frame, place, octet } := by
  obtain ⟨⟨front, rest, held, _⟩, _⟩ := FrameStore.pull_octet _ _ _ _ pulled
  obtain ⟨frame, frames, framesEqual, _⟩ := List.map_eq_cons_iff.mp held
  refine ⟨frame, queue.cursor, ?_⟩
  unfold handover?
  rw [framesEqual]

/-- A handover tells what was supplied. -/
theorem answer_of_handover? {answer : Pull} {handover : Handover}
    (handed : queue.handover? answer = some handover) :
    answer = .octet handover.octet := by
  unfold handover? at handed
  split at handed
  · cases handed
    rfl
  · cases handed

end FrameQueue

theorem Stage.abortable_or_jam {stage : Stage}
    (active : stage ≠ .idle)
    (unmarked : stage ≠ .underflow) :
    stage.abortable = true ∨ ∃ remaining, stage = .jam remaining := by
  cases stage with
  | idle => exact absurd rfl active
  | underflow => exact absurd rfl unmarked
  | jam remaining => exact .inr ⟨remaining, rfl⟩
  | preamble | data | pad | trailer => exact .inl rfl

namespace Sequencer

variable {now : Tick} {collision : Bool} {sequencer next loaded : Sequencer}
  {step : SequencerStep}

section Source

variable {σ : Type} [ByteSource σ] {source after : σ} {octet : Octet}

/-- A boundary on which an octet is supplied takes it up. -/
theorem pulling_boundary {supplied : σ} {ending : Option Ending}
    (pulling : sequencer.Pulling)
    (calm : sequencer.aborting = false)
    (pulled : ByteSource.pull source now = .ok (supplied, .octet octet))
    (boundary : Boundary now sequencer source loaded after ending) :
    loaded = sequencer.taken .data octet ∧ ending = none := by
  have stages : sequencer.stage = .data ∨ sequencer.stage = .preamble :=
    pulling.imp_right And.left
  have unexhausted {position : Nat} : ¬ Exhausted now sequencer source position after := by
    intro exhausted
    cases exhausted with
    | finished _ finished => cases pulled.symm.trans finished
    | padding pad => simp [pad] at stages
  cases boundary with
  | preamble stage missing => exact absurd pulling (not_pulling stage missing)
  | octet _ answered =>
      cases pulled.symm.trans answered
      exact ⟨rfl, rfl⟩
  | starved _ starved => cases pulled.symm.trans starved
  | pad exhausted => exact absurd exhausted unexhausted
  | firstCheck exhausted => exact absurd exhausted unexhausted
  | check other | sent other | marked other | jamming other | jamOver other =>
      simp [other] at stages
  | abandoned aborting => cases calm.symm.trans aborting
  | abandonedStarved aborting => cases calm.symm.trans aborting

/-- Short of the error marker, only the source makes a byte poisoned. -/
theorem Boundary.poisoned
    (abortable : loaded.stage.abortable = true)
    (poisoned : loaded.current = .poisoned)
    (boundary : Boundary now sequencer source loaded after none) :
    sequencer.Pulling ∧ sequencer.aborting = false ∧
      ByteSource.pull source now = .ok (after, .octet .poisoned) := by
  cases boundary with
  | octet pulling pulled calm =>
      cases (current_taken _ _ _).symm.trans poisoned
      exact ⟨pulling, calm, pulled⟩
  | preamble | pad | firstCheck | check => cases poisoned
  | starved | abandoned | abandonedStarved => cases abortable
  | jamming stage =>
      rw [stage] at abortable
      cases abortable

/-- The byte on the line has been driven for `age` ticks, all of them with the error signal
that the octet calls for. -/
structure Carries (sequencer : Sequencer) (age : Nat) (octet : Octet) : Prop where
  abortable : sequencer.stage.abortable = true
  current : sequencer.current = octet
  error : sequencer.held.error = octet.isPoisoned
  timed : sequencer.Timed
  age : age + sequencer.nibbles * sequencer.plan.nibbleTicks =
    sequencer.elapsed +
      (if sequencer.highNext then 1 else 2) * sequencer.plan.nibbleTicks

/-- The error signal is the mark of the byte in flight. -/
theorem isPoisoned_current (sequencer : Sequencer) :
    sequencer.current.isPoisoned = sequencer.error := by
  unfold current
  cases sequencer.error <;> rfl

namespace Carries

variable {age : Nat}

theorem active (carries : sequencer.Carries age octet) : sequencer.stage ≠ .idle := by
  intro idle
  have abortable := carries.abortable
  simp [idle, Stage.abortable] at abortable

/-- A byte is carried for at most the time of two nibbles. -/
theorem bounds (carries : sequencer.Carries age octet) :
    0 < age ∧ age ≤ 2 * sequencer.plan.nibbleTicks := by
  have reached := carries.timed.reached
  have recent := carries.timed.recent
  have position := carries.age
  split at position <;> constructor <;> lia

theorem holding
    (carries : sequencer.Carries age octet)
    (between : sequencer.elapsed % sequencer.plan.nibbleTicks ≠ 0) :
    (sequencer.holding.sampled collision).Carries (age + 1) octet where
  abortable := carries.abortable
  current := carries.current
  error := carries.error
  timed := carries.timed.holding between
  age := by
    have position := carries.age
    show age + 1 + sequencer.nibbles * sequencer.plan.nibbleTicks =
      sequencer.elapsed + 1 + (if sequencer.highNext then 1 else 2) * sequencer.plan.nibbleTicks
    lia

/-- The second nibble of a byte. -/
theorem continues
    (positive : 0 < sequencer.plan.nibbleTicks)
    (carries : sequencer.Carries age octet)
    (due : sequencer.elapsed % sequencer.plan.nibbleTicks = 0)
    (high : sequencer.highNext = true) :
    (sequencer.driving.sampled collision).Carries (age + 1) octet := by
  have unjammed := abortable_unjammed carries.abortable
  have lowNext : sequencer.nextHigh = false := by
    rw [nextHigh_of_unjammed unjammed, high, Bool.not_true]
  refine ⟨?_, carries.current, ?_, carries.timed.driving positive due, ?_⟩
  · show sequencer.driving.stage.abortable = true
    rw [driving_stage unjammed]
    exact carries.abortable
  · exact sequencer.isPoisoned_current.symm.trans (congrArg Octet.isPoisoned carries.current)
  · have position := carries.age
    rw [high, if_pos rfl] at position
    show age + 1 + (sequencer.nibbles + 1) * sequencer.plan.nibbleTicks =
      sequencer.elapsed + 1 + (if sequencer.nextHigh then 1 else 2) * sequencer.plan.nibbleTicks
    rw [lowNext, if_neg Bool.false_ne_true]
    lia

/-- The first nibble of a byte. -/
theorem begins
    (positive : 0 < loaded.plan.nibbleTicks)
    (abortable : loaded.stage.abortable = true)
    (timed : loaded.Timed)
    (due : loaded.elapsed % loaded.plan.nibbleTicks = 0)
    (low : loaded.highNext = false) :
    (loaded.driving.sampled collision).Carries 1 loaded.current := by
  have unjammed := abortable_unjammed abortable
  have highNext : loaded.nextHigh = true := by
    rw [nextHigh_of_unjammed unjammed, low, Bool.not_false]
  refine ⟨?_, rfl, loaded.isPoisoned_current.symm, timed.driving positive due, ?_⟩
  · show loaded.driving.stage.abortable = true
    rw [driving_stage unjammed]
    exact abortable
  · have counted := timed.due due
    show 1 + (loaded.nibbles + 1) * loaded.plan.nibbleTicks =
      loaded.elapsed + 1 + (if loaded.nextHigh then 1 else 2) * loaded.plan.nibbleTicks
    rw [highNext, if_pos rfl, counted]
    lia

/-- The byte that a byte boundary brings follows at once. -/
theorem follows
    (positive : 0 < sequencer.plan.nibbleTicks)
    (timed : sequencer.Timed)
    (due : sequencer.elapsed % sequencer.plan.nibbleTicks = 0)
    (low : sequencer.highNext = false)
    (abortable : loaded.stage.abortable = true)
    (boundary : Boundary now sequencer source loaded after none) :
    (loaded.driving.sampled collision).Carries 1 loaded.current := by
  obtain ⟨plan, high, elapsed, nibbles⟩ := boundary.counters
  refine .begins (plan ▸ positive) abortable (timed.keep plan elapsed nibbles) ?_
    (high.trans low)
  rw [plan, elapsed]
  exact due

/-- A byte boundary is reached when the byte was carried for the time of two nibbles. -/
theorem age_of_due
    (carries : sequencer.Carries age octet)
    (due : sequencer.elapsed % sequencer.plan.nibbleTicks = 0)
    (low : sequencer.highNext = false) :
    age = 2 * sequencer.plan.nibbleTicks := by
  have position := carries.age
  rw [low, if_neg Bool.false_ne_true, carries.timed.due due] at position
  lia

/-- Until its time is over, a byte is carried on. -/
theorem goes_on
    (positive : 0 < sequencer.plan.nibbleTicks)
    (carries : sequencer.Carries age octet)
    (young : age < 2 * sequencer.plan.nibbleTicks)
    (moves : Moves now collision sequencer source next after step) :
    step.ending = none ∧ next.Carries (age + 1) octet := by
  cases moves with
  | rests idle => exact absurd idle carries.active
  | holds active between => exact ⟨rfl, carries.holding between⟩
  | continues active due high => exact ⟨rfl, carries.continues positive due high⟩
  | begins active due low => exact absurd (carries.age_of_due due low) (Nat.ne_of_lt young)
  | ends active due low => exact absurd (carries.age_of_due due low) (Nat.ne_of_lt young)

end Carries

/-- The octet that a byte boundary takes up goes onto the line at once. -/
theorem Moves.takes_up {supplied : σ}
    (positive : 0 < sequencer.plan.nibbleTicks)
    (timed : sequencer.Timed)
    (due : sequencer.elapsed % sequencer.plan.nibbleTicks = 0)
    (low : sequencer.highNext = false)
    (pulling : sequencer.Pulling)
    (calm : sequencer.aborting = false)
    (pulled : ByteSource.pull source now = .ok (supplied, .octet octet))
    (moves : Moves now collision sequencer source next after step) :
    step.ending = none ∧ next.Carries 1 octet := by
  cases moves with
  | rests idle =>
      have abortable := pulling.abortable
      rw [idle] at abortable
      cases abortable
  | holds active between => exact absurd due between
  | continues active due high => cases low.symm.trans high
  | begins active _ _ boundary =>
      obtain ⟨rfl, _⟩ := pulling_boundary pulling calm pulled boundary
      have follows : ((sequencer.taken .data octet).driving.sampled collision).Carries 1
          (sequencer.taken .data octet).current :=
        .follows positive timed due low rfl boundary
      rw [current_taken] at follows
      exact ⟨rfl, follows⟩
  | ends active _ _ boundary =>
      obtain ⟨_, unended⟩ := pulling_boundary pulling calm pulled boundary
      cases unended

/-- A jam is driven without the error signal. -/
theorem Jams.silent {remaining : Nat} (jams : sequencer.Jams remaining) :
    (sequencer.driving.sampled collision).Jams (remaining - 1) ∧
      (sequencer.driving.sampled collision).held.error = false :=
  ⟨⟨jams.driving.stage, jams.driving.unmarked⟩, jams.unmarked⟩

theorem Jams.moves {remaining : Nat}
    (jams : sequencer.Jams remaining)
    (silent : sequencer.held.error = false)
    (unended : step.ending = none)
    (moves : Moves now collision sequencer source next after step) :
    ∃ left, next.Jams left ∧ next.held.error = false := by
  cases moves with
  | rests idle => cases jams.stage.symm.trans idle
  | holds => exact ⟨remaining, ⟨jams.stage, jams.unmarked⟩, silent⟩
  | continues => exact ⟨_, jams.silent⟩
  | begins active due low boundary =>
      obtain ⟨rfl, _⟩ := jam_boundary jams.stage boundary
      exact ⟨_, jams.silent⟩
  | ends => cases unended

end Source

section Queue

variable {capacity : Nat} {source after : FrameQueue capacity}

/-- With a frame in the queue no byte boundary brings the error marker. -/
theorem Boundary.unmarked {ending : Option Ending}
    (held : FrameStore.frames source ≠ [])
    (unmarked : sequencer.stage ≠ .underflow)
    (boundary : Boundary now sequencer source loaded after ending) :
    loaded.stage ≠ .underflow ∧ ending ≠ some .underflow := by
  have unstarved : ¬ ∃ after, ByteSource.pull source now = .ok (after, .starved) := by
    obtain ⟨front, rest, frames⟩ := List.exists_cons_of_ne_nil held
    obtain ⟨frame, others, queued, _⟩ := List.map_eq_cons_iff.mp frames
    exact FrameQueue.not_starved now queued
  cases boundary with
  | octet | pad | firstCheck => exact ⟨nofun, nofun⟩
  | starved pulling pulled => exact absurd ⟨_, pulled⟩ unstarved
  | preamble | check | sent | jamming | jamOver => exact ⟨unmarked, nofun⟩
  | marked stage => exact absurd stage unmarked
  | abandoned aborting abortable discards owes total ends =>
      refine ⟨nofun, ?_⟩
      rw [ends]
      split <;> nofun
  | abandonedStarved aborting stage pulled => exact absurd ⟨_, pulled⟩ unstarved

theorem driving_unmarked (unmarked : sequencer.stage ≠ .underflow) :
    sequencer.driving.stage ≠ .underflow := by
  show sequencer.nextStage ≠ .underflow
  unfold nextStage
  split
  · nofun
  · exact unmarked

theorem Moves.unmarked
    (held : FrameStore.frames source ≠ [])
    (unmarked : sequencer.stage ≠ .underflow)
    (moves : Moves now collision sequencer source next after step) :
    next.stage ≠ .underflow ∧ step.ending ≠ some .underflow := by
  cases moves with
  | rests | holds => exact ⟨unmarked, nofun⟩
  | continues => exact ⟨driving_unmarked unmarked, nofun⟩
  | begins active due low boundary =>
      exact ⟨driving_unmarked (boundary.unmarked held unmarked).1, nofun⟩
  | ends active due low boundary => exact ⟨nofun, (boundary.unmarked held unmarked).2⟩

/-- The byte on the line is carried on, gives way to a jam, or is followed by another one. -/
theorem Carries.moves {age : Nat} {octet : Octet}
    (positive : 0 < sequencer.plan.nibbleTicks)
    (carries : sequencer.Carries age octet)
    (held : FrameStore.frames source ≠ [])
    (unended : step.ending = none)
    (moves : Moves now collision sequencer source next after step) :
    next.Carries (age + 1) octet ∨
      (∃ remaining, next.Jams remaining ∧ next.held.error = false) ∨
      ∃ loaded after, loaded.stage.abortable = true ∧
        sequencer.elapsed % sequencer.plan.nibbleTicks = 0 ∧ sequencer.highNext = false ∧
        Boundary now sequencer source loaded after none ∧ next.Carries 1 loaded.current := by
  cases moves with
  | rests idle => exact absurd idle carries.active
  | holds active between => exact .inl (carries.holding between)
  | continues active due high => exact .inl (carries.continues positive due high)
  | ends => cases unended
  | @begins loaded after active due low boundary =>
      have abortable := carries.abortable
      have unmarked : sequencer.stage ≠ .underflow := by
        intro marked
        rw [marked] at abortable
        cases abortable
      rcases Stage.abortable_or_jam (boundary.active active)
        (boundary.unmarked held unmarked).1 with abortableThen | ⟨remaining, jam⟩
      · exact .inr (.inr ⟨loaded, after, abortableThen, due, low, boundary,
          .follows positive carries.timed due low abortableThen boundary⟩)
      · exact .inr (.inl ⟨_, (Jams.of_boundary abortable boundary jam).silent⟩)

end Queue

end Sequencer

namespace Engine

variable {σ γ : Type} [ByteSource σ] {engine next : Engine σ γ} {now : Tick}

/-- Only the error marker is reported as an underflow. -/
theorem Settles.underflow_of_raised {ending : Ending} {outcome : Option Outcome}
    (settles : Settles now engine ending next outcome)
    (underflow : (raised outcome).underflow = true) :
    ending = .underflow := by
  cases settles with
  | underflow => rfl
  | sent | retry | giveUp | late | unjudged => cases underflow

variable [WordSource γ] {config : Config} {early gap : Tick} {inputs : Inputs}
  {outputs : Outputs} {marks : List Mark}

end Engine

namespace Run

variable {config : Config} {γ : Type} [WordSource γ] {capacity : Nat}
  {run : Run config (FrameQueue capacity) γ} {count : Nat} {early gap : Tick}

/-- An attempt in progress has its frame in the queue. -/
theorem frames_of_active
    (appends : ∀ tick, tick < run.length → FrameStore.Appends (run.supply tick))
    (within : count < run.length)
    (active : (run.engine count).sequencer.stage ≠ .idle) :
    FrameStore.frames (run.entering count).source ≠ [] := by
  obtain ⟨_, history, _, _, tells⟩ := tells appends (Nat.le_of_lt within)
  apply (tells.supplied (appends count within)).held
  rintro rfl
  cases tells.phase with
  | waiting idle => exact active idle
  | clear clear running => cases running
  | struck struck running => cases running

theorem unmarked_of_leaves {sequencer : Sequencer} {source : FrameQueue capacity}
    (leaves :
      Engine.Leaves (run.reading count) (run.inputs count) sequencer source
        (run.engine (count + 1)) (run.outputs count).signals (run.marks count)) :
    (run.engine (count + 1)).sequencer.stage ≠ .underflow := by
  cases leaves with
  | rests idle =>
      rw [idle]
      nofun
  | starts waiting moves =>
      have held := (FrameStore.ready_iff source).mp waiting
      have begun : sequencer.start.stage ≠ .underflow := by
        show Stage.preamble ≠ .underflow
        nofun
      exact (moves.unmarked held begun).1

/-- No attempt comes to the error marker of a starved source. -/
theorem unmarked
    (appends : ∀ tick, tick < run.length → FrameStore.Appends (run.supply tick))
    (within : count ≤ run.length) :
    (run.engine count).sequencer.stage ≠ .underflow := by
  induction count with
  | zero =>
      rw [run.idle_at_setUp]
      nofun
  | succ count inductionHypothesis =>
      have before := inductionHypothesis (Nat.le_of_succ_le within)
      cases run.turns within with
      | goesOn active moves =>
          exact (moves.unmarked (frames_of_active appends within active) before).1
      | stops moves ended settles status leaves => exact unmarked_of_leaves leaves
      | waits idle unraised leaves => exact unmarked_of_leaves leaves

theorem not_underflow
    (appends : ∀ tick, tick < run.length → FrameStore.Appends (run.supply tick))
    (within : count < run.length) :
    (run.outputs count).status.underflow = false := by
  cases run.turns within with
  | goesOn active moves unended shown unraised => rw [unraised]
  | stops moves ended settles status leaves =>
      have active : (run.engine count).sequencer.stage ≠ .idle := by
        intro idle
        obtain ⟨_, _, rfl⟩ := moves.resting idle
        cases ended
      have unmarkedThen := moves.unmarked (frames_of_active appends within active)
        (unmarked appends (Nat.le_of_lt within))
      rw [status]
      cases raised : (Engine.raised _).underflow with
      | false => rfl
      | true =>
          rw [settles.underflow_of_raised raised] at ended
          exact absurd ended unmarkedThen.2
  | waits idle unraised => rw [unraised]

/-- The queue hands over an octet on a tick, and no collision is pending, so the octet is
driven and not lost. -/
structure TakesUp (run : Run config (FrameQueue capacity) γ) (begun : Nat) (octet : Octet) :
    Prop where
  handed : ∃ frame place, run.handovers begun = [{ frame, place, octet }]
  calm : (run.entering begun).sequencer.aborting = false

/-- What is on the line after a tick.  A poisoned octet on it was taken up from the queue. -/
inductive Sounds (run : Run config (FrameQueue capacity) γ) (count : Nat) : Prop
  | idle
      (idle : (run.engine count).sequencer.stage = .idle)
  | jam {remaining : Nat}
      (jams : (run.engine count).sequencer.Jams remaining)
      (silent : (run.engine count).sequencer.held.error = false)
  | carries {begun age : Nat} {octet : Octet}
      (reached : begun + age = count)
      (carries : (run.engine count).sequencer.Carries age octet)
      (taken : octet = .poisoned → run.TakesUp begun .poisoned)

/-- An octet that a byte boundary takes up was handed over on that tick. -/
theorem takesUp_of_pull {after : FrameQueue capacity} {octet : Octet}
    (within : count < run.length)
    (asks : (run.entering count).sequencer.Asks)
    (calm : (run.entering count).sequencer.aborting = false)
    (pulled :
      ByteSource.pull (run.entering count).source (run.reading count) =
        .ok (after, .octet octet)) :
    run.TakesUp count octet := by
  rcases run.asked_once within with ⟨_, supplied, answer, answered, asked⟩ | ⟨silent, _⟩
  · cases pulled.symm.trans answered
    obtain ⟨frame, place, handed⟩ := FrameQueue.handover?_octet pulled
    refine ⟨⟨frame, place, ?_⟩, calm⟩
    unfold handovers
    rw [asked, List.filterMap_cons, handed]
    rfl
  · exact absurd asks silent

/-- The first tick of an attempt puts a byte of the preamble on the line. -/
theorem sounds_of_leaves {sequencer : Sequencer} {source : FrameQueue capacity}
    (timing : config.Timing early gap)
    (plan : LinePlan.ofConfig config = .ok sequencer.plan)
    (leaves :
      Engine.Leaves (run.reading count) (run.inputs count) sequencer source
        (run.engine (count + 1)) (run.outputs count).signals (run.marks count)) :
    run.Sounds (count + 1) := by
  cases leaves with
  | rests idle => exact .idle idle
  | starts waiting moves =>
      have preamblePositive : 0 < sequencer.plan.preambleBytes := by
        rw [LinePlan.ofConfig_eq_ok plan]
        exact timing.preambleBytes_pos
      have nibblePositive : 0 < sequencer.plan.nibbleTicks := by
        rw [LinePlan.ofConfig_eq_ok plan]
        exact timing.nibbleTicks_pos
      obtain ⟨_, next, _⟩ := Sequencer.start_moves preamblePositive moves
      let begun := sequencer.start.loadPreamble
      have timed : begun.Timed :=
        (Sequencer.start_timed nibblePositive).keep rfl rfl rfl
      have carries : (run.engine (count + 1)).sequencer.Carries 1 begun.current := by
        rw [next]
        exact .begins nibblePositive rfl timed (Nat.zero_mod _) rfl
      exact .carries rfl carries nofun

/-- A tick keeps what is known of the byte on the line. -/
theorem Sounds.ticks
    (appends : ∀ tick, tick < run.length → FrameStore.Appends (run.supply tick))
    (timing : config.Timing early gap)
    (within : count < run.length)
    (sounds : run.Sounds count) :
    run.Sounds (count + 1) := by
  have plan := (run.conforms (Nat.le_of_lt within)).plan
  have positive : 0 < (run.entering count).sequencer.plan.nibbleTicks :=
    (plan_positive timing (Nat.le_of_lt within)).2
  cases run.turns within with
  | waits idle unraised leaves => exact sounds_of_leaves timing plan leaves
  | stops moves ended settles status leaves =>
      exact sounds_of_leaves timing (moves.plan.symm ▸ plan) leaves
  | goesOn active moves unended =>
      cases sounds with
      | idle idle => exact absurd idle active
      | @jam remaining jams silent =>
          have jamsThen : (run.entering count).sequencer.Jams remaining := jams
          obtain ⟨_, jamsNext, silentNext⟩ := jamsThen.moves silent unended moves
          exact .jam jamsNext silentNext
      | @carries begun age octet reached carries taken =>
          have carriesThen : (run.entering count).sequencer.Carries age octet := carries
          rcases carriesThen.moves positive (frames_of_active appends within active) unended
            moves with goesOn | ⟨remaining, jams, silent⟩ | ⟨loaded, after, begins, due, low,
              boundary, carriesNext⟩
          · have reachedThen : begun + (age + 1) = count + 1 := congrArg (· + 1) reached
            exact .carries reachedThen goesOn taken
          · exact .jam jams silent
          · refine .carries rfl carriesNext fun poisoned => ?_
            obtain ⟨pulling, calm, pulled⟩ := boundary.poisoned begins poisoned
            exact takesUp_of_pull within ⟨due, low, .inr ⟨calm, pulling⟩⟩ calm pulled

theorem sounds
    (appends : ∀ tick, tick < run.length → FrameStore.Appends (run.supply tick))
    (timing : config.Timing early gap)
    (within : count ≤ run.length) :
    run.Sounds count := by
  induction count with
  | zero => exact .idle run.idle_at_setUp
  | succ count inductionHypothesis =>
      exact (inductionHypothesis (Nat.le_of_succ_le within)).ticks appends timing within

/-- On the tick on which an octet is taken up, its first nibble is driven. -/
theorem TakesUp.begins {octet : Octet}
    (appends : ∀ tick, tick < run.length → FrameStore.Appends (run.supply tick))
    (timing : config.Timing early gap)
    (within : count < run.length)
    (takesUp : run.TakesUp count octet) :
    (run.engine (count + 1)).sequencer.Carries 1 octet := by
  obtain ⟨⟨frame, place, handed⟩, calm⟩ := takesUp
  rcases run.asked_once within with ⟨asks, supplied, answer, pulled, asked⟩ | ⟨_, silent⟩
  · have told : (run.entering count).source.handover? answer = some { frame, place, octet } := by
      rw [handovers, asked, List.filterMap_cons] at handed
      split at handed
      · cases handed
      · rename_i handover found
        rw [found, ← (List.cons.inj handed).1]
    cases FrameQueue.answer_of_handover? told
    have pulling : (run.entering count).sequencer.Pulling := by
      rcases asks.among with data | ⟨_, pulling⟩
      · exact .inl data
      · exact pulling
    have abortable := pulling.abortable
    have positive : 0 < (run.entering count).sequencer.plan.nibbleTicks :=
      (plan_positive timing (Nat.le_of_lt within)).2
    -- The sequencer that pulls is not idle and not in a jam, so it carries some byte already.
    have timed : (run.entering count).sequencer.Timed := by
      cases sounds appends timing (Nat.le_of_lt within) with
      | idle idle =>
          rw [show (run.entering count).sequencer.stage = .idle from idle] at abortable
          cases abortable
      | @jam remaining jams =>
          rw [show (run.entering count).sequencer.stage = .jam remaining from jams.stage]
            at abortable
          cases abortable
      | carries before carries => exact carries.timed
    have takenUp {source : FrameQueue capacity} {next : Sequencer} {step : SequencerStep}
        (moves : (run.entering count).sequencer.Moves (run.reading count)
          (run.inputs count).collision (run.entering count).source next source step) :
        step.ending = none ∧ next.Carries 1 octet :=
      moves.takes_up positive timed asks.due asks.low pulling calm pulled
    cases run.turns within with
    | waits idle =>
        rw [idle] at abortable
        cases abortable
    | goesOn active moves => exact (takenUp moves).2
    | stops moves ended => cases (takenUp moves).1.symm.trans ended
  · rw [handovers, silent] at handed
    cases handed

/-- A byte that was taken up is carried for the time of two nibbles. -/
theorem carries_of_takesUp {begun age : Nat} {octet : Octet}
    (appends : ∀ tick, tick < run.length → FrameStore.Appends (run.supply tick))
    (timing : config.Timing early gap)
    (takesUp : run.TakesUp begun octet)
    (young : age < config.byteTime)
    (within : begun + age < run.length) :
    (run.engine (begun + age + 1)).sequencer.Carries (age + 1) octet := by
  induction age with
  | zero => exact takesUp.begins appends timing within
  | succ age inductionHypothesis =>
      have carries : (run.entering (begun + age + 1)).sequencer.Carries (age + 1) octet :=
        inductionHypothesis (Nat.lt_of_succ_lt young) (Nat.lt_of_succ_lt within)
      have positive := (plan_positive timing (Nat.le_of_lt within)).2
      have youngThen :
          age + 1 < 2 * (run.entering (begun + age + 1)).sequencer.plan.nibbleTicks := by
        have byteTime := plan_byteTime timing (Nat.le_of_lt within)
        exact Nat.lt_of_lt_of_eq young byteTime.symm
      cases run.turns within with
      | waits idle => exact absurd idle carries.active
      | goesOn active moves => exact (carries.goes_on positive youngThen moves).2
      | stops moves ended =>
          have unended := (carries.goes_on positive youngThen moves).1
          cases unended.symm.trans ended

/-- The error signal is on the line when a poisoned octet was taken up less than the time of
a byte ago, and on no other tick. -/
theorem error_iff
    (appends : ∀ tick, tick < run.length → FrameStore.Appends (run.supply tick))
    (timing : config.Timing early gap)
    (within : count < run.length) :
    (run.outputs count).signals.error = true ↔
      ∃ begun, begun ≤ count ∧ count < begun + config.byteTime ∧
        run.TakesUp begun .poisoned := by
  have conforms : (run.entering count).Conforms config :=
    (run.conforms (Nat.le_of_lt within)).supplied (run.supply count)
  have shown := (run.ticks within).shows conforms timing
  constructor
  · intro error
    rcases shown with ⟨_, quiet⟩ | ⟨active, held⟩
    · rw [quiet] at error
      cases error
    · rw [held, Sequencer.onLine_error] at error
      cases sounds appends timing (Nat.succ_le_of_lt within) with
      | idle idle => exact absurd idle active
      | jam stage silent => cases silent.symm.trans error
      | @carries begun age octet reached carries taken =>
          have poisoned : octet = .poisoned := by
            rw [carries.error] at error
            cases octet with
            | byte value => cases error
            | poisoned => rfl
          have bounds := carries.bounds
          rw [plan_byteTime timing (Nat.succ_le_of_lt within)] at bounds
          refine ⟨begun, ?_, ?_, taken poisoned⟩ <;> lia
  · rintro ⟨begun, before, recent, takesUp⟩
    obtain ⟨age, rfl⟩ := Nat.exists_eq_add_of_le before
    have young : age < config.byteTime := Nat.lt_of_add_lt_add_left recent
    have carries := carries_of_takesUp appends timing takesUp young within
    rcases shown with ⟨idle, _⟩ | ⟨_, held⟩
    · exact absurd idle carries.active
    · rw [held, Sequencer.onLine_error, carries.error]
      rfl

/-- A queue to which frames are only appended never starves an attempt.  No attempt comes
to the error marker, no underflow is reported, and the error signal is on the line for the
two nibbles of each poisoned octet that is taken up from the queue, and on no other tick. -/
theorem queue_never_underflows
    (appends : ∀ tick, tick < run.length → FrameStore.Appends (run.supply tick)) :
    (∀ count, count ≤ run.length → (run.engine count).sequencer.stage ≠ .underflow) ∧
    ∀ tick, tick < run.length →
      (run.outputs tick).status.underflow = false ∧
      ((run.outputs tick).signals.error = true ↔
        ∃ begun, begun ≤ tick ∧ tick < begun + config.byteTime ∧
          run.TakesUp begun .poisoned) := by
  obtain ⟨early, gap, timing⟩ := run.accepted.timing
  exact ⟨fun _ => unmarked appends,
    fun _ within => ⟨not_underflow appends within, error_iff appends timing within⟩⟩

def poisonedFrame : Frame where
  octets := [.byte 0xA5, .poisoned]

/-- The first attempt pulls the poisoned octet with a collision pending, and the octet is
lost.  The queue is empty when the frame is sent, and refilled later. -/
def poisonedScenario : Scenario (FrameQueue 1) ZeroWords where
  source := FrameStore.offerAll (FrameQueue.empty 1) [poisonedFrame]
  words := {}
  supply count queue := FrameStore.offerAll queue (lateOffers count)
  inputs count := { collision := count = 5 }

def poisonedRun : Run { Config.brief with slotBytes := 8 } (FrameQueue 1) ZeroWords :=
  (poisonedScenario.run? { Config.brief with slotBytes := 8 } 34).get (by decide +kernel)

theorem queue_never_underflows_poisonedRun :
    (∀ tick, tick < poisonedRun.length → FrameStore.Appends (poisonedRun.supply tick)) ∧
      (poisonedRun.engine 16).sequencer.stage ≠ .underflow ∧
      (poisonedRun.outputs 24).status.underflow = false ∧
      ¬ poisonedRun.TakesUp 6 .poisoned ∧
      (poisonedRun.outputs 14).signals.error = true ∧
      (poisonedRun.outputs 15).signals.error = true := by
  have appends : ∀ tick, tick < poisonedRun.length →
      FrameStore.Appends (poisonedRun.supply tick) :=
    fun tick _ => ⟨lateOffers tick, fun _ => rfl⟩
  obtain ⟨unmarked, shown⟩ := queue_never_underflows appends
  have taken : poisonedRun.TakesUp 14 .poisoned :=
    ⟨⟨poisonedFrame, 1, by decide +kernel⟩, by decide +kernel⟩
  refine ⟨appends, unmarked 16 (by decide +kernel), (shown 24 (by decide +kernel)).1, ?_,
    (shown 14 (by decide +kernel)).2.mpr ⟨14, by decide, by decide, taken⟩,
    (shown 15 (by decide +kernel)).2.mpr ⟨14, by decide, by decide, taken⟩⟩
  intro taken
  have error := (shown 6 (by decide +kernel)).2.mpr ⟨6, by decide, by decide, taken⟩
  have silent : (poisonedRun.outputs 6).signals.error = false := by decide +kernel
  cases silent.symm.trans error

end Run

end HalfDuplex
