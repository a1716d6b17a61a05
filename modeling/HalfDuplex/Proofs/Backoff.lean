import HalfDuplex.Proofs.Outcomes
import HalfDuplex.Proofs.Pace

/-!
# Backoff

A frame whose attempt met an ordinary collision is tried again after a jam, a gap and a
random backoff.  Gap and backoff are timed from the same tick, the one on which the jam is
over, so the next attempt starts when the longer of the two is.

The proof follows the attempt in two parts.  `Run.Caught` holds from the tick after the
collision to the end of the jam: the verdict stays, and no byte is begun any more, so the
end of the jam is known.  `Run.Recovers` holds from there to the next start.
-/

namespace HalfDuplex

/-! ## Collisions of a frame, as the marks tell them -/

namespace Mark

def startTime? : Mark → Option Tick
  | .started _ now => some now
  | _ => none

def noticeTime? : Mark → Option Tick
  | .noticed now => some now
  | _ => none

end Mark

/-- The marks of the frame in flight, those since the last frame was completed. -/
def marksInFlight (marks : List Mark) : List Mark :=
  (marks.reverse.takeWhile fun mark => mark.outcome?.isNone).reverse

/-- A time that the marks tell, the last one if there are several. -/
def lastTime (time : Mark → Option Tick) (marks : List Mark) : Option Tick :=
  (marks.filterMap time).getLast?

theorem lastTime_append {time : Mark → Option Tick} {before after : List Mark} {now : Tick}
    (told : lastTime time after = some now) :
    lastTime time (before ++ after) = some now := by
  unfold lastTime at told ⊢
  rw [List.filterMap_append, List.getLast?_append, told]
  rfl

namespace OpenHistory

variable {config : Config} {history : OpenHistory} {start noticed : Tick}

theorem incomplete (history : OpenHistory) : ∀ mark ∈ history.marks, mark.outcome? = none := by
  have attempts : ∀ attempt : AttemptHistory, ∀ mark ∈ attempt.marks, mark.outcome? = none := by
    intro attempt mark member
    cases collision : attempt.collision <;>
      simp [AttemptHistory.marks, AttemptHistory.opening, collision] at member <;>
      rcases member with rfl | rfl | rfl <;> rfl
  intro mark member
  rcases List.mem_append.mp member with earlier | running
  · obtain ⟨attempt, _, inAttempt⟩ := List.mem_flatMap.mp earlier
    exact attempts attempt mark inAttempt
  · cases found : history.running with
    | none => simp [found] at running
    | some attempt =>
        cases collision : attempt.2 <;>
          simp [found, AttemptHistory.opening, collision] at running
        · rw [running]
          rfl
        · rcases running with rfl | rfl <;> rfl

/-- A frame met one collision in each attempt that was made again, and one in the attempt in
progress. -/
theorem countP_isNotice
    (regular : history.Regular config)
    (running : history.running = some (start, some noticed)) :
    history.marks.countP Mark.isNotice = history.retried.length + 1 := by
  have each : ∀ attempt ∈ history.retried, attempt.marks.countP Mark.isNotice = 1 := by
    intro attempt member
    obtain ⟨_, now, collision, _⟩ := regular.retries attempt member
    rw [AttemptHistory.marks, AttemptHistory.opening, collision]
    rfl
  have earlier : ∀ attempts : List AttemptHistory,
      (∀ attempt ∈ attempts, attempt.marks.countP Mark.isNotice = 1) →
        (attempts.flatMap AttemptHistory.marks).countP Mark.isNotice = attempts.length := by
    intro attempts
    induction attempts with
    | nil => exact fun _ => rfl
    | cons attempt rest inductionHypothesis =>
        intro all
        rw [List.flatMap_cons, List.countP_append, all attempt List.mem_cons_self,
          inductionHypothesis fun later member => all later (List.mem_cons_of_mem _ member),
          List.length_cons, Nat.add_comm]
  rw [history.marks_of_running running, List.countP_append, earlier _ each]
  rfl

theorem lastTime_start
    (running : history.running = some (start, some noticed)) :
    lastTime Mark.startTime? history.marks = some start := by
  rw [history.marks_of_running running, lastTime, List.filterMap_append]
  exact List.getLast?_concat

theorem lastTime_notice
    (running : history.running = some (start, some noticed)) :
    lastTime Mark.noticeTime? history.marks = some noticed := by
  rw [history.marks_of_running running, lastTime, List.filterMap_append]
  exact List.getLast?_concat

end OpenHistory

/-- The marks of the frame in flight are those of its open history. -/
theorem marksInFlight_append (records : List FrameHistory) (history : OpenHistory) :
    marksInFlight (records.flatMap FrameHistory.marks ++ history.marks) = history.marks := by
  have open_ : ∀ mark ∈ history.marks.reverse, mark.outcome?.isNone = true := by
    intro mark member
    rw [history.incomplete mark (List.mem_reverse.mp member)]
    rfl
  have closed : (records.flatMap FrameHistory.marks).reverse.takeWhile
      (fun mark => mark.outcome?.isNone) = [] := by
    rcases List.eq_nil_or_concat records with rfl | ⟨earlier, record, rfl⟩
    · rfl
    · simp [FrameHistory.marks, Mark.outcome?]
  rw [marksInFlight, List.reverse_append, List.takeWhile_append_of_pos open_, closed,
    List.append_nil, List.reverse_reverse]

/-! ## Verdicts that stand -/

/-- A tick on which the sequencer notices a collision leaves it pending. -/
theorem Sequencer.Moves.pending {σ : Type} [ByteSource σ] {now : Tick} {collision : Bool}
    {sequencer next : Sequencer} {source after : σ} {step : SequencerStep}
    (noticed : step.collided = true)
    (moves : Moves now collision sequencer source next after step) :
    next.aborting = true ∧ next.stage.abortable = true := by
  have sampled {driven : Sequencer} (noticed : driven.notices collision = true) :
      (driven.sampled collision).aborting = true ∧ driven.stage.abortable = true := by
    refine ⟨by simp [Sequencer.sampled, noticed], ?_⟩
    simp only [notices, Bool.and_eq_true] at noticed
    exact noticed.2
  cases moves with
  | rests => cases noticed
  | holds | continues | begins => exact sampled noticed
  | ends => cases noticed

namespace CollisionWindow

variable {γ : Type} [WordSource γ] {window next : CollisionWindow γ} {now : Tick}

/-- A backoff lies below a power of two that the collisions met so far allow. -/
theorem Judges.bounded {slots : Nat} {delay : Tick}
    (judges : Judges now window next (.retry slots delay)) :
    slots < 2 ^ min next.collisions next.limits.backoffLimit ∧
      delay = slots * next.limits.backoffSlotTicks := by
  cases judges with
  | retry inside few =>
      exact ⟨Nat.mod_lt _ (Nat.two_pow_pos _), rfl⟩

end CollisionWindow

namespace Engine

variable {σ γ : Type} {engine next : Engine σ γ} {now : Tick}

/-- The verdict that stands demands no longer a backoff than the collisions met so far
allow. -/
def Bounded (engine : Engine σ γ) : Prop :=
  ∀ slots delay, engine.verdict = some (.retry slots delay) →
    slots < 2 ^ min engine.window.collisions engine.window.limits.backoffLimit ∧
      delay = slots * engine.window.limits.backoffSlotTicks

theorem Bounded.of_unjudged (unjudged : engine.verdict = none) : engine.Bounded := by
  intro slots delay verdict
  cases unjudged.symm.trans verdict

variable [ByteSource σ]

theorem Settles.verdict_eq {ending : Ending} {outcome : Option Outcome}
    (settles : Settles now engine ending next outcome) :
    next.verdict = none := by
  cases settles with
  | sent | underflow | retry | giveUp | late => rfl
  | unjudged verdict => exact verdict

theorem ended_mem_marksOfStep {step : SequencerStep} {ending : Ending} :
    Mark.ended ending ∈ Sequencer.marksOfStep now step ↔ step.ending = some ending := by
  unfold Sequencer.marksOfStep
  cases step.ending <;> split <;> simp [eq_comm]

variable [WordSource γ] {collision : Bool} {signals shown : Signals} {status : Indicators}
  {marks : List Mark} {inputs : Inputs}

theorem Bounded.drives {step : SequencerStep}
    (drives : Drives now collision engine next step)
    (bounded : engine.Bounded) :
    next.Bounded := by
  cases drives with
  | plain moves unnoticed => exact bounded
  | struck moves noticed judges =>
      intro slots delay verdict
      cases verdict
      exact judges.bounded

theorem Bounded.ticks {outputs : Outputs}
    (ticks : Ticks now inputs engine next outputs marks)
    (bounded : engine.Bounded) :
    next.Bounded := by
  cases ticks with
  | @parts proceeded _ _ _ _ _ _ deferral _ proceeds advances considers =>
      have boundedProceeded : proceeded.Bounded := by
        cases proceeds with
        | goesOn drives unended => exact bounded.drives drives
        | settles drives ended settles => exact .of_unjudged settles.verdict_eq
      have boundedThen : (proceeded.deferring deferral).Bounded := boundedProceeded
      cases considers with
      | @launches next step poised free drives =>
          have boundedBegun : ((proceeded.deferring deferral).begin now).Bounded := boundedThen
          exact boundedBegun.drives drives
      | holdsOff poised closed => exact boundedThen
      | passes unpoised => exact boundedThen

/-- A tick on which the attempt in progress does not end drives it on. -/
theorem Ticks.drives_on {outputs : Outputs}
    (active : engine.sequencer.stage ≠ .idle)
    (unended : ∀ ending, Mark.ended ending ∉ marks)
    (ticks : Ticks now inputs engine next outputs marks) :
    ∃ (driven : Engine σ γ) (deferral : Deferral) (step : SequencerStep),
      Drives now inputs.collision engine driven step ∧ step.ending = none ∧
        next = driven.deferring deferral ∧ marks = Sequencer.marksOfStep now step := by
  cases ticks with
  | @parts proceeded _ _ _ _ _ _ deferral _ proceeds advances considers =>
      cases proceeds with
      | goesOn drives unendedStep =>
          have activeThen : (proceeded.deferring deferral).sequencer.stage ≠ .idle :=
            drives.moves.active active unendedStep
          obtain ⟨rfl, _, rfl⟩ := considers.passing activeThen
          exact ⟨proceeded, deferral, _, drives, unendedStep, rfl, List.append_nil _⟩
      | settles drives ended settles =>
          have marked : Mark.ended _ ∈ Sequencer.marksOfStep now _ :=
            ended_mem_marksOfStep.mpr ended
          exact absurd (List.mem_append_left _ (List.mem_append_left _ marked)) (unended _)

/-- A tick on which the attempt in progress ends settles it. -/
theorem Ticks.ends {outputs : Outputs} {ending : Ending}
    (unstarted : ¬ HasStart marks)
    (ended : Mark.ended ending ∈ marks)
    (ticks : Ticks now inputs engine next outputs marks) :
    ∃ (driven settled : Engine σ γ) (step : SequencerStep) (outcome : Option Outcome),
      Drives now inputs.collision engine driven step ∧ step.ending = some ending ∧
        Settles now driven ending settled outcome ∧
          next.backoffUntil = settled.backoffUntil ∧ next.source = settled.source := by
  cases ticks with
  | @parts proceeded _ _ _ _ settled started deferral _ proceeds advances considers =>
      have kept : started = [] ∧ next.backoffUntil = proceeded.backoffUntil ∧
          next.source = proceeded.source := by
        cases considers with
        | launches poised free drives =>
            exact absurd ((hasStart_append _ _).mpr (.inr (hasStart_started _ _ _))) unstarted
        | holdsOff poised closed => exact ⟨rfl, rfl, rfl⟩
        | passes unpoised => exact ⟨rfl, rfl, rfl⟩
      rw [kept.1, List.append_nil] at ended
      cases proceeds with
      | goesOn drives unended => cases unended.symm.trans (ended_mem_marksOfStep.mp ended)
      | @settles driven _ step found outcome drives stops settles =>
          have marked : Mark.ended ending ∈ Sequencer.marksOfStep now step := by
            rcases List.mem_append.mp ended with inStep | completed
            · exact inStep
            · cases outcome <;> simp at completed
          cases stops.symm.trans (ended_mem_marksOfStep.mp marked)
          exact ⟨driven, proceeded, step, outcome, drives, stops, settles, kept.2⟩

/-- An attempt that met a collision notices no other, so the verdict on it stands. -/
theorem Drives.stands {step : SequencerStep}
    (struck : engine.sequencer.Struck)
    (drives : Drives now collision engine next step) :
    next.verdict = engine.verdict := by
  cases drives with
  | plain moves unnoticed => rfl
  | struck moves noticed => cases noticed.symm.trans (struck.moves moves).1

/-- The end of a jam that is to be followed by another attempt begins the backoff. -/
theorem Ticks.backs_off [FrameStore σ] {outputs : Outputs} {slots : Nat} {delay : Tick}
    (struck : engine.sequencer.Struck)
    (verdict : engine.verdict = some (.retry slots delay))
    (unstarted : ¬ HasStart marks)
    (jammed : Mark.ended .jammed ∈ marks)
    (ticks : Ticks now inputs engine next outputs marks) :
    next.backoffUntil = some (now + delay) ∧
      FrameStore.frames next.source = FrameStore.frames engine.source := by
  obtain ⟨driven, settled, step, outcome, drives, _, settles, backoff, source⟩ :=
    ticks.ends unstarted jammed
  have stands : driven.verdict = some (.retry slots delay) :=
    (drives.stands struck).trans verdict
  cases settles with
  | retry found =>
      cases stands.symm.trans found
      refine ⟨backoff, ?_⟩
      rw [source]
      exact (FrameStore.frames_rewind _).trans drives.frames
  | giveUp found => cases stands.symm.trans found
  | late found => cases stands.symm.trans found
  | unjudged found => cases stands.symm.trans found

/-- A tick on which a collision is noticed leaves it pending. -/
theorem Ticks.pending {outputs : Outputs}
    (noticed : HasNotice marks)
    (ticks : Ticks now inputs engine next outputs marks) :
    next.sequencer.aborting = true ∧ next.sequencer.stage.abortable = true := by
  cases ticks with
  | @parts proceeded _ _ _ _ _ _ deferral _ proceeds advances considers =>
      rcases (hasNotice_append _ _).mp noticed with before | after
      · cases proceeds with
        | goesOn drives unended =>
            have pending :=
              drives.moves.pending ((Sequencer.hasNotice_marksOfStep _ _).mp before)
            have active : (proceeded.deferring deferral).sequencer.stage ≠ .idle := by
              intro idle
              have abortable := pending.2
              rw [show proceeded.sequencer.stage = .idle from idle] at abortable
              cases abortable
            obtain ⟨rfl, _, _⟩ := considers.passing active
            exact pending
        | settles drives ended settles =>
            have unnoticed := (drives.moves.ended_idle ended).2.2
            simp [unnoticed] at before
      · cases considers with
        | launches poised free drives =>
            rw [hasNotice_started, Sequencer.hasNotice_marksOfStep] at after
            exact drives.moves.pending after
        | holdsOff | passes => exact absurd after not_hasNotice_nil

/-- Without an attempt in progress, a tick on which none starts leaves source and backoff
alone. -/
theorem Ticks.keeps_backoff {outputs : Outputs}
    (idle : engine.sequencer.stage = .idle)
    (unstarted : ¬ HasStart marks)
    (ticks : Ticks now inputs engine next outputs marks) :
    next.backoffUntil = engine.backoffUntil ∧ next.source = engine.source := by
  cases ticks with
  | @parts proceeded _ _ _ _ _ _ deferral _ proceeds advances considers =>
      obtain ⟨rfl, _, _, rfl⟩ := proceeds.resting idle
      cases considers with
      | launches poised free drives => exact absurd (hasStart_started _ _ _) unstarted
      | holdsOff poised closed => exact ⟨rfl, rfl⟩
      | passes unpoised => exact ⟨rfl, rfl⟩

/-- An attempt starts only once the backoff is over. -/
theorem Ticks.poised {outputs : Outputs}
    (idle : engine.sequencer.stage = .idle)
    (started : HasStart marks)
    (ticks : Ticks now inputs engine next outputs marks) :
    engine.Poised now := by
  cases ticks with
  | @parts proceeded _ _ _ _ _ _ deferral _ proceeds advances considers =>
      obtain ⟨rfl, _, _, rfl⟩ := proceeds.resting idle
      cases considers with
      | launches poised free drives => exact poised
      | holdsOff poised closed => exact absurd started not_hasStart_nil
      | passes unpoised => exact absurd started not_hasStart_nil

/-- The time that a start is marked with is that of its tick. -/
theorem Ticks.startTime {outputs : Outputs} {mark : Mark} {time : Tick}
    (ticks : Ticks now inputs engine next outputs marks)
    (member : mark ∈ marks)
    (told : mark.startTime? = some time) :
    time = now := by
  have fromStep (step : SequencerStep) : mark ∉ Sequencer.marksOfStep now step := by
    intro inStep
    have started : HasStart (Sequencer.marksOfStep now step) := by
      cases mark with
      | started number now => exact ⟨number, now, inStep⟩
      | noticed | ended | completed => cases told
    exact Sequencer.not_hasStart_marksOfStep now step started
  cases ticks with
  | parts proceeds advances considers =>
      rcases List.mem_append.mp member with earlier | later
      · have started := proceeds.unstarted
        cases mark with
        | started number now => exact absurd ⟨number, now, earlier⟩ started
        | noticed | ended | completed => cases told
      · cases considers with
        | launches poised free drives =>
            rcases List.mem_cons.mp later with rfl | inStep
            · exact (Option.some.inj told).symm
            · exact absurd inStep (fromStep _)
        | holdsOff | passes => cases later

end Engine

/-! ## From a collision to the end of the jam -/

namespace Run

variable {config : Config} {σ γ : Type} [ByteSource σ] [WordSource γ] {run : Run config σ γ}
  {early gap count start noticed finish : Nat}

/-- The number of collisions noticed so far in attempts on the frame that is in flight after
a tick. -/
def collisionNumber (run : Run config σ γ) (count : Nat) : Nat :=
  (marksInFlight (run.chronicle (count + 1))).countP Mark.isNotice

/-- The last time that the ticks tell is that of the last tick that tells one. -/
theorem lastTime_chronicle {time : Mark → Option Tick} {last : Nat}
    (own : ∀ mark ∈ run.marks last, ∀ now, time mark = some now → now = run.reading last)
    (told : ∃ mark ∈ run.marks last, (time mark).isSome = true)
    (before : last < count)
    (later : ∀ tick, last < tick → tick < count → ∀ mark ∈ run.marks tick, time mark = none) :
    lastTime time (run.chronicle count) = some (run.reading last) := by
  induction count with
  | zero => exact absurd before (Nat.not_lt_zero last)
  | succ count inductionHypothesis =>
      rw [chronicle_succ, lastTime, List.filterMap_append, List.getLast?_append]
      rcases Nat.lt_succ_iff_lt_or_eq.mp before with earlier | rfl
      · have silent : (run.marks count).filterMap time = [] :=
          List.filterMap_eq_nil_iff.mpr (later count earlier (Nat.lt_succ_self count))
        rw [silent, List.getLast?_nil, Option.none_or]
        exact inductionHypothesis earlier fun tick after within =>
          later tick after (Nat.lt_succ_of_lt within)
      · obtain ⟨mark, member, tells⟩ := told
        obtain ⟨now, nowEqual⟩ := Option.isSome_iff_exists.mp tells
        have nonempty : (run.marks last).filterMap time ≠ [] :=
          List.ne_nil_of_mem (List.mem_filterMap.mpr ⟨mark, member, nowEqual⟩)
        have lastMember := List.getLast_mem nonempty
        obtain ⟨other, otherMember, otherEqual⟩ := List.mem_filterMap.mp lastMember
        rw [List.getLast?_eq_some_getLast nonempty, own other otherMember _ otherEqual]
        rfl

theorem lastTime_start
    (within : count ≤ run.length)
    (lastStart : run.LastStart start count) :
    lastTime Mark.startTime? (run.chronicle count) = some (run.reading start) := by
  have ticks := run.ticks (Nat.lt_of_lt_of_le lastStart.before within)
  refine lastTime_chronicle (fun mark member now told => ticks.startTime member told) ?_
    lastStart.before ?_
  · obtain ⟨number, now, member⟩ := lastStart.starts
    exact ⟨.started number now, member, rfl⟩
  · intro tick after before mark member
    cases mark with
    | started number now => exact absurd ⟨number, now, member⟩ (lastStart.last tick after before)
    | noticed | ended | completed => rfl

theorem lastTime_notice (notices : run.Notices noticed) :
    lastTime Mark.noticeTime? (run.chronicle (noticed + 1)) = some (run.reading noticed) := by
  refine lastTime_chronicle ?_ ?_ (Nat.lt_succ_self noticed) fun tick after before => ?_
  · intro mark member now told
    obtain ⟨event, _, marked⟩ := List.mem_filterMap.mp member
    cases mark with
    | noticed time =>
        cases told
        cases event <;> simp [Event.mark?] at marked
        exact marked.symm
    | started | ended | completed => cases told
  · obtain ⟨now, member⟩ := notices
    exact ⟨.noticed now, member, rfl⟩
  · exact absurd (Nat.le_of_lt_succ before) (Nat.not_le.mpr after)

/-- The attempt that started on a tick met a collision on another tick, and goes on with the
verdict on it. -/
structure Caught (run : Run config σ γ) (start begun : Nat) (verdict : Verdict) (count : Nat) :
    Prop where
  lastStart : run.LastStart start count
  elapsed : count = start + (run.engine count).sequencer.elapsed
  beats : (run.engine count).sequencer.Beats begun
  struck : (run.engine count).sequencer.Struck
  stands : (run.engine count).verdict = some verdict

theorem Caught.ticks {begun : Nat} {verdict : Verdict}
    (timing : config.Timing early gap)
    (within : count < run.length)
    (unended : ∀ ending, Mark.ended ending ∉ run.marks count)
    (caught : run.Caught start begun verdict count) :
    run.Caught start begun verdict (count + 1) := by
  have whole := plan_whole (Nat.le_of_lt within)
  obtain ⟨_, positive⟩ := plan_positive timing (Nat.le_of_lt within)
  have struck : (run.entering count).sequencer.Struck := caught.struck
  obtain ⟨driven, deferral, step, drives, unendedStep, next, marked⟩ :=
    (run.ticks within).drives_on struck.active unended
  have unstarted : ¬ run.Starts count := by
    unfold Starts
    rw [marked]
    exact Sequencer.not_hasStart_marksOfStep _ step
  have elapsed : driven.sequencer.elapsed = (run.engine count).sequencer.elapsed + 1 :=
    drives.moves.elapsed struck.active unendedStep
  have struckNext : driven.sequencer.Struck := by
    have moved := (struck.moves drives.moves).2
    rwa [unendedStep] at moved
  have standsNext : driven.verdict = some verdict :=
    (drives.stands struck).trans caught.stands
  cases caught.beats.moves whole positive drives.moves with
  | goesOn beats _ kept =>
      rw [kept caught.struck] at beats
      refine ⟨caught.lastStart.next unstarted, ?_, ?_, ?_, ?_⟩
      · rw [next]
        show count + 1 = start + driven.sequencer.elapsed
        rw [elapsed, ← Nat.add_assoc]
        exact congrArg (· + 1) caught.elapsed
      · rw [next]
        exact beats
      · rw [next]
        exact struckNext
      · rw [next]
        exact standsNext
  | ends ended => cases unendedStep.symm.trans ended

theorem Caught.until {begun : Nat} {verdict : Verdict}
    (timing : config.Timing early gap)
    (within : finish ≤ run.length)
    (unended : ∀ tick, count ≤ tick → tick < finish → ∀ ending,
      Mark.ended ending ∉ run.marks tick)
    (before : count ≤ finish)
    (caught : run.Caught start begun verdict count) :
    run.Caught start begun verdict finish := by
  induction finish with
  | zero =>
      obtain rfl := Nat.le_zero.mp before
      exact caught
  | succ finish inductionHypothesis =>
      rcases Nat.lt_or_eq_of_le before with earlier | rfl
      · have atMost := Nat.le_of_lt_succ earlier
        have caughtBefore := inductionHypothesis (Nat.le_of_succ_le within)
          (fun tick after until_ => unended tick after (Nat.lt_succ_of_lt until_)) atMost
        exact caughtBefore.ticks timing within
          (unended finish atMost (Nat.lt_succ_self finish))
      · exact caught

theorem bounded (within : count ≤ run.length) : (run.engine count).Bounded := by
  induction count with
  | zero =>
      obtain ⟨_, _, _, _, _, engineEqual⟩ := Engine.ofConfig_eq_ok run.setUp
      refine .of_unjudged ?_
      rw [engineEqual]
  | succ count inductionHypothesis =>
      have before : (run.entering count).Bounded :=
        inductionHypothesis (Nat.le_of_succ_le within)
      exact before.ticks (run.ticks within)

/-- The tick after a collision was noticed knows the attempt by its pace. -/
theorem Notices.beats
    (timing : config.Timing early gap)
    (within : noticed < run.length)
    (lastStart : run.LastStart start (noticed + 1))
    (notices : run.Notices noticed) :
    ∃ begun, noticed + 1 = start + (run.engine (noticed + 1)).sequencer.elapsed ∧
      (run.engine (noticed + 1)).sequencer.Beats begun ∧
        (begun - 1) * config.byteTime ≤ noticed - start := by
  have pending := (run.ticks within).pending notices
  cases paces timing (Nat.succ_le_of_lt within) with
  | rests idle =>
      have abortable := pending.2
      rw [idle] at abortable
      cases abortable
  | @tries _ begun otherStart elapsed beats =>
      obtain rfl := otherStart.unique lastStart
      refine ⟨begun, elapsed, beats, ?_⟩
      cases beats with
      | marks stage =>
          have abortable := pending.2
          rw [stage] at abortable
          cases abortable
      | jams stage =>
          have abortable := pending.2
          rw [stage] at abortable
          cases abortable
      | writes placed paced =>
          rcases Nat.eq_zero_or_pos begun with rfl | positive
          · rw [Nat.zero_sub, Nat.zero_mul]
            exact Nat.zero_le _
          · have spent := paced.begun_lt positive
            rw [plan_byteTime timing (Nat.succ_le_of_lt within)] at spent
            lia

/-- Jam and remaining preamble take no longer than a whole preamble and a jam, counted from
the collision. -/
theorem jam_over_le {begun : Nat}
    (timing : config.Timing early gap)
    (within : finish ≤ run.length)
    (after : start ≤ noticed)
    (spent : (begun - 1) * config.byteTime ≤ noticed - start)
    (lasted : finish = start + (2 * begun + (run.engine finish).sequencer.jamLength begun) *
      (run.engine finish).sequencer.plan.nibbleTicks) :
    finish ≤ noticed +
      (config.preambleBytes.toNat + config.jamBytes.toNat) * config.byteTime := by
  let preamble := config.preambleBytes.toNat
  let jam := config.jamBytes.toNat
  have preamblePositive : 0 < preamble := timing.preambleBytes_pos
  have duration : (2 * begun + (run.engine finish).sequencer.jamLength begun) *
      (run.engine finish).sequencer.plan.nibbleTicks =
        (begun + jam + (preamble - begun)) * config.byteTime := by
    rw [Sequencer.jamLength, LinePlan.ofConfig_eq_ok (run.conforms within).plan,
      timing.byteTime_eq, ← Nat.mul_assoc]
    congr 1
    show 2 * begun + (jam * 2 + 2 * (preamble - begun)) = _
    omega
  have bytes : begun + jam + (preamble - begun) ≤ (begun - 1) + (preamble + jam) := by omega
  calc finish = start + (begun + jam + (preamble - begun)) * config.byteTime := by
        rw [← duration]
        exact lasted
    _ ≤ start + ((begun - 1) + (preamble + jam)) * config.byteTime :=
        Nat.add_le_add_left (Nat.mul_le_mul_right config.byteTime bytes) start
    _ = start + (begun - 1) * config.byteTime + (preamble + jam) * config.byteTime := by
        rw [Nat.add_mul, Nat.add_assoc]
    _ ≤ noticed + (preamble + jam) * config.byteTime := by
        refine Nat.add_le_add_right ?_ _
        lia

variable [FrameStore σ]

/-- An ordinary collision that is not one too many is judged to lead to another attempt. -/
theorem Notices.caught
    (timing : config.Timing early gap)
    (appends : ∀ tick, tick < run.length → FrameStore.Appends (run.supply tick))
    (within : noticed < run.length)
    (lastStart : run.LastStart start (noticed + 1))
    (notices : run.Notices noticed)
    (ordinary : run.reading noticed - run.reading start < config.slotTicks)
    (few : run.collisionNumber noticed < config.maxCollisions.toNat) :
    ∃ begun slots,
      run.Caught start begun (.retry slots (slots * config.backoffSlotTicks)) (noticed + 1) ∧
        (begun - 1) * config.byteTime ≤ noticed - start ∧
          slots < 2 ^ min (run.collisionNumber noticed) config.backoffLimit.toNat := by
  have after : noticed + 1 ≤ run.length := Nat.succ_le_of_lt within
  have pending := (run.ticks within).pending notices
  obtain ⟨begun, elapsed, beats, spent⟩ := notices.beats timing within lastStart
  obtain ⟨records, current, told, _, tells⟩ := tells appends after
  have number : run.collisionNumber noticed = current.marks.countP Mark.isNotice := by
    rw [collisionNumber, told, marksInFlight_append]
  have limits := (run.conforms after).limits
  cases tells.phase with
  | waiting idle =>
      have abortable := pending.2
      rw [idle] at abortable
      cases abortable
  | clear clear => cases clear.calm.symm.trans pending.1
  | @struck startTime noticeTime verdict struck running judged fits =>
      have startEqual : startTime = run.reading start := by
        have inChronicle := lastTime_start after lastStart
        rw [told, lastTime_append (current.lastTime_start running)] at inChronicle
        exact Option.some.inj inChronicle
      have noticeEqual : noticeTime = run.reading noticed := by
        have inChronicle := lastTime_notice notices
        rw [told, lastTime_append (current.lastTime_notice running)] at inChronicle
        exact Option.some.inj inChronicle
      rw [current.countP_isNotice tells.regular running] at number
      cases fits with
      | giveUp _ limit => omega
      | late late =>
          rw [startEqual, noticeEqual] at late
          exact absurd ordinary (Nat.not_lt.mpr late)
      | @retry slots delay _ room count =>
          obtain ⟨below, delayEqual⟩ := bounded after slots delay judged
          rw [limits, count] at below
          rw [limits] at delayEqual
          have delayIs : delay = slots * config.backoffSlotTicks := delayEqual
          subst delayIs
          refine ⟨begun, slots, ⟨lastStart, elapsed, beats, struck, judged⟩, spent, ?_⟩
          rw [number]
          exact below

/-! ## From the end of the jam to the next attempt -/

/-- A frame waits for its next attempt since the jam that was over on the tick `finish`, in
the gap or after it. -/
structure Recovers (run : Run config σ γ) (early gap finish : Nat) (delay : Tick)
    (count : Nat) : Prop where
  positive : 0 < finish
  begun : finish < count
  idle : (run.engine count).sequencer.stage = .idle
  due : (run.engine count).backoffUntil = some (run.reading finish + delay)
  held : FrameStore.frames (run.engine count).source ≠ []
  unstarted : ∀ tick, finish ≤ tick → tick < count → ¬ run.Starts tick
  timer :
    count ≤ finish + gap ∧ run.InGap early gap finish count ∨
      finish + gap < count ∧ (run.engine count).deferral.Open

namespace Recovers

variable {delay : Tick}

theorem waiting_iff
    (consecutive : run.Consecutive)
    (appends : FrameStore.Appends (run.supply count))
    (within : count < run.length)
    (recovers : run.Recovers early gap finish delay count) :
    run.Waiting count ↔ finish + delay ≤ count := by
  have ready : ByteSource.ready (run.entering count).source = true := by
    obtain ⟨added, grown⟩ := appends.frames (run.engine count).source
    refine (FrameStore.ready_iff _).mpr ?_
    show FrameStore.frames (run.supply count (run.engine count).source) ≠ []
    simp [grown, recovers.held]
  unfold Waiting Engine.backoffDone
  obtain ⟨passed, rfl⟩ := Nat.exists_eq_add_of_le (Nat.le_of_lt recovers.begun)
  rw [recovers.due, consecutive.reading passed within, decide_eq_true_iff, and_iff_right ready,
    Nat.add_le_add_iff_left, Nat.add_le_add_iff_left]

theorem unstarted_of_lt
    (consecutive : run.Consecutive)
    (appends : FrameStore.Appends (run.supply count))
    (within : count < run.length)
    (before : count < finish + delay)
    (recovers : run.Recovers early gap finish delay count) :
    ¬ run.Starts count := by
  intro starts
  have idle : (run.entering count).sequencer.stage = .idle := recovers.idle
  obtain ⟨_, ready, done⟩ := (run.ticks within).poised idle starts
  have waiting : run.Waiting count := ⟨ready, done⟩
  have due := (recovers.waiting_iff consecutive appends within).mp waiting
  exact absurd before (Nat.not_lt.mpr due)

/-- A tick on which no attempt starts leaves the frame waiting. -/
theorem next
    (timing : config.Timing early gap)
    (appends : FrameStore.Appends (run.supply count))
    (within : count < run.length)
    (unstarted : ¬ run.Starts count)
    (timer :
      count + 1 ≤ finish + gap ∧ run.InGap early gap finish (count + 1) ∨
        finish + gap < count + 1 ∧ (run.engine (count + 1)).deferral.Open)
    (recovers : run.Recovers early gap finish delay count) :
    run.Recovers early gap finish delay (count + 1) := by
  have idle : (run.entering count).sequencer.stage = .idle := recovers.idle
  obtain ⟨backoff, source⟩ := (run.ticks within).keeps_backoff idle unstarted
  refine ⟨recovers.positive, Nat.lt_succ_of_lt recovers.begun, ?_, backoff.trans recovers.due,
    ?_, ?_, timer⟩
  · obtain ⟨ready, pauses, _⟩ := pauses timing within recovers.idle
    cases pauses with
    | rests idleNext => exact idleNext
    | starts driven high free enabled started => exact absurd started unstarted
  · obtain ⟨added, grown⟩ := appends.frames (run.engine count).source
    rw [source]
    show FrameStore.frames (run.supply count (run.engine count).source) ≠ []
    simp [grown, recovers.held]
  · intro tick after before
    rcases Nat.lt_succ_iff_lt_or_eq.mp before with earlier | rfl
    · exact recovers.unstarted tick after earlier
    · exact unstarted

/-- Until gap and backoff are both over, the frame waits. -/
theorem ticks
    (timing : config.Timing early gap)
    (consecutive : run.Consecutive)
    (appends : FrameStore.Appends (run.supply count))
    (within : count < run.length)
    (before : count < finish + max gap delay)
    (calm : ¬ run.Starts count → run.carrier count = false)
    (recovers : run.Recovers early gap finish delay count) :
    run.Recovers early gap finish delay (count + 1) := by
  -- A gap that is not over keeps attempts from starting whether the backoff is over or not;
  -- from its last tick on only the backoff does.
  rcases recovers.timer with ⟨atMost, inGap⟩ | ⟨past, gapOver⟩
  · have gapEqual := run.gapTick_of_pos gap recovers.positive
    rcases Nat.lt_or_eq_of_le atMost with unfinished | complete
    · have quiet : count < run.gapTick finish early → run.carrier count = false := by
        intro inEarly
        rw [← Bool.not_eq_true]
        intro heard
        have unstarted := (inGap.restarts timing consecutive within inEarly heard).2.2
        exact Bool.false_ne_true ((calm unstarted).symm.trans heard)
      obtain ⟨inGapNext, _, unstarted⟩ :=
        inGap.lengthens timing consecutive within quiet (gapEqual ▸ unfinished)
      exact recovers.next timing appends within unstarted (.inl ⟨unfinished, inGapNext⟩)
    · have unstarted := recovers.unstarted_of_lt consecutive appends within (by lia)
      have opened := (inGap.completes timing consecutive within (gapEqual.trans complete.symm)).2
      exact recovers.next timing appends within unstarted
        (.inr ⟨complete ▸ Nat.lt_succ_self count, opened⟩)
  · have unstarted := recovers.unstarted_of_lt consecutive appends within (by lia)
    obtain ⟨_, _, advances⟩ := pauses timing within recovers.idle
    have advanced := advances.quiet gapOver
    rw [calm unstarted, if_neg Bool.false_ne_true] at advanced
    exact recovers.next timing appends within unstarted
      (.inr ⟨Nat.lt_succ_of_lt past, advanced.2⟩)

/-- As long as no carrier is heard, the frame waits until gap and backoff are both over. -/
theorem until_due
    (timing : config.Timing early gap)
    (consecutive : run.Consecutive)
    (appends : ∀ tick, tick < run.length → FrameStore.Appends (run.supply tick))
    (calm : ∀ tick, finish ≤ tick → tick < run.length →
      (∀ earlier, finish ≤ earlier → earlier < tick → ¬ run.Starts earlier) →
        ¬ run.Starts tick → run.carrier tick = false)
    (within : count ≤ run.length)
    (after : finish < count)
    (atMost : count ≤ finish + max gap delay)
    (recovers : run.Recovers early gap finish delay (finish + 1)) :
    run.Recovers early gap finish delay count := by
  induction count with
  | zero => exact absurd after (Nat.not_lt_zero finish)
  | succ count inductionHypothesis =>
      rcases Nat.lt_succ_iff_lt_or_eq.mp after with earlier | rfl
      · have before :=
          inductionHypothesis (Nat.le_of_succ_le within) earlier (Nat.le_of_succ_le atMost)
        exact before.ticks timing consecutive (appends count within) within atMost
          (calm count (Nat.le_of_lt earlier) within before.unstarted)
      · exact recovers

/-- Once gap and backoff are both over, the next attempt starts. -/
theorem starts
    (timing : config.Timing early gap)
    (consecutive : run.Consecutive)
    (appends : FrameStore.Appends (run.supply count))
    (within : count < run.length)
    (due : count = finish + max gap delay)
    (calm : ¬ run.Starts count → run.carrier count = false)
    (recovers : run.Recovers early gap finish delay count) :
    run.Starts count := by
  have waiting : run.Waiting count :=
    (recovers.waiting_iff consecutive appends within).mpr (by lia)
  rcases recovers.timer with ⟨atMost, inGap⟩ | ⟨past, gapOver⟩
  · have complete : run.gapTick finish gap = count := by
      rw [run.gapTick_of_pos gap recovers.positive]
      lia
    cases (inGap.completes timing consecutive within complete).1 with
    | rests idleNext unpoised => exact absurd waiting (unpoised rfl)
    | starts driven high free enabled started => exact started
  · obtain ⟨ready, pauses, advances⟩ := pauses timing within recovers.idle
    have advanced := advances.quiet gapOver
    cases pauses with
    | starts driven high free enabled started => exact started
    | rests idleNext unpoised disabled unstarted =>
        rw [calm unstarted, if_neg Bool.false_ne_true] at advanced
        exact absurd waiting (unpoised advanced.1)

end Recovers

omit [FrameStore σ] in
/-- The attempt is over on the tick on which its jam ends, and the gap begins. -/
theorem Caught.stops {begun : Nat} {verdict : Verdict}
    (timing : config.Timing early gap)
    (consecutive : run.Consecutive)
    (within : finish < run.length)
    (jammed : Mark.ended .jammed ∈ run.marks finish)
    (caught : run.Caught start begun verdict finish) :
    (run.engine (finish + 1)).sequencer.stage = .idle ∧ ¬ run.Starts finish ∧
      (run.engine (finish + 1)).deferral.state =
        .early (if run.carrier finish then run.gapOrigin (finish + 1)
          else run.gapOrigin finish) := by
  have active : (run.entering finish).sequencer.stage ≠ .idle := caught.struck.active
  have holds := defers timing consecutive (Nat.le_of_lt within)
  have driven : (run.engine finish).sequencer.Driven := by
    rcases holds.settled with idle | driven
    · exact absurd idle active
    · exact driven
  rcases holds.stops timing consecutive within driven with
    ⟨enabled, _, unstarted, _⟩ | ⟨_, idleNext, unstarted, _, state⟩
  · cases (run.ticks within).turns with
    | goesOn active moves unended shown unraised marked =>
        rw [marked, Engine.ended_mem_marksOfStep, unended] at jammed
        cases jammed
    | stops moves ended settles status leaves =>
        cases leaves with
        | rests idle same disabled => cases disabled.symm.trans enabled
        | starts waiting moves same started => exact absurd started unstarted
    | waits idle => exact absurd idle active
  · exact ⟨idleNext, unstarted, state⟩

omit [FrameStore σ] in
/-- The attempt lasted for the bytes that it had begun and for the jam. -/
theorem Caught.lasted {begun : Nat} {verdict : Verdict}
    (timing : config.Timing early gap)
    (within : finish < run.length)
    (unstarted : ¬ run.Starts finish)
    (jammed : Mark.ended .jammed ∈ run.marks finish)
    (caught : run.Caught start begun verdict finish) :
    finish = start + (2 * begun + (run.engine finish).sequencer.jamLength begun) *
      (run.engine finish).sequencer.plan.nibbleTicks := by
  have whole := plan_whole (Nat.le_of_lt within)
  obtain ⟨_, positive⟩ := plan_positive timing (Nat.le_of_lt within)
  obtain ⟨_, _, _, _, drives, ended, _⟩ := (run.ticks within).ends unstarted jammed
  cases caught.beats.moves whole positive drives.moves with
  | goesOn beats unended => cases unended.symm.trans ended
  | ends found lasted =>
      cases found.symm.trans ended
      rw [← lasted rfl]
      exact caught.elapsed

/-- The end of the jam begins gap and backoff on the same tick. -/
theorem Caught.recovers {begun slots : Nat} {delay : Tick}
    (timing : config.Timing early gap)
    (consecutive : run.Consecutive)
    (appends : FrameStore.Appends (run.supply finish))
    (within : finish < run.length)
    (jammed : Mark.ended .jammed ∈ run.marks finish)
    (held : FrameStore.frames (run.engine finish).source ≠ [])
    (calm : ¬ run.Starts finish → run.carrier finish = false)
    (caught : run.Caught start begun (.retry slots delay) finish) :
    run.Recovers early gap finish delay (finish + 1) := by
  obtain ⟨idleNext, unstarted, state⟩ := caught.stops timing consecutive within jammed
  rw [calm unstarted, if_neg Bool.false_ne_true] at state
  have struck : (run.entering finish).sequencer.Struck := caught.struck
  obtain ⟨backoff, source⟩ :=
    (run.ticks within).backs_off struck caught.stands unstarted jammed
  have shorter : early < gap := timing.early_lt_gap
  have positive : 0 < finish := Nat.zero_lt_of_lt caught.lastStart.before
  have inGap : run.InGap early gap finish (finish + 1) :=
    .second timing positive idleNext state
  refine ⟨positive, Nat.lt_succ_self finish, idleNext, backoff, ?_, ?_, .inl ⟨by lia, inGap⟩⟩
  · obtain ⟨added, grown⟩ := appends.frames (run.engine finish).source
    rw [source]
    show FrameStore.frames (run.supply finish (run.engine finish).source) ≠ []
    simp [grown, held]
  · intro tick after before
    obtain rfl : tick = finish := by lia
    exact unstarted

theorem Caught.held {begun : Nat} {verdict : Verdict}
    (appends : ∀ tick, tick < run.length → FrameStore.Appends (run.supply tick))
    (within : count ≤ run.length)
    (caught : run.Caught start begun verdict count) :
    FrameStore.frames (run.engine count).source ≠ [] := by
  obtain ⟨_, current, _, _, tells⟩ := tells appends within
  apply tells.held
  rintro rfl
  cases tells.phase with
  | waiting idle => exact absurd idle caught.struck.active
  | clear clear running => cases running
  | struck struck running => cases running

/-- When a frame is tried again.

An ordinary collision, the `collisionNumber`-th one of a frame that may meet more of them,
is followed by a jam that is over at most a preamble and a jam after it.  The verdict is
then a backoff of a number of slots that the collisions met so far allow.  If no carrier is
heard until the next attempt starts, that is when the gap and the backoff are both over,
both timed from the end of the jam: not before, and not later. -/
theorem retries_on_time
    (consecutive : run.Consecutive)
    (appends : ∀ tick, tick < run.length → FrameStore.Appends (run.supply tick))
    (within : finish < run.length)
    (lastStart : run.LastStart start (noticed + 1))
    (notices : run.Notices noticed)
    (ordinary : noticed - start < config.slotTicks)
    (few : run.collisionNumber noticed < config.maxCollisions.toNat)
    (after : noticed < finish)
    (unended : ∀ tick, noticed < tick → tick < finish → ∀ ending,
      Mark.ended ending ∉ run.marks tick)
    (jammed : Mark.ended .jammed ∈ run.marks finish)
    (calm : ∀ tick, finish ≤ tick → tick < run.length →
      (∀ earlier, finish ≤ earlier → earlier ≤ tick → ¬ run.Starts earlier) →
        run.carrier tick = false) :
    ∃ gap slots, config.gapTicks = .ok gap ∧
      let mostSlots := 2 ^ min (run.collisionNumber noticed) config.backoffLimit.toNat - 1
      let longest :=
        (config.preambleBytes.toNat + config.jamBytes.toNat) * config.byteTime
      let next := finish + max gap (slots * config.backoffSlotTicks)
      (run.engine finish).verdict = some (.retry slots (slots * config.backoffSlotTicks)) ∧
        slots ≤ mostSlots ∧
        finish - noticed ≤ longest ∧
        next ≤ noticed + longest + max gap (mostSlots * config.backoffSlotTicks) ∧
        (∀ tick, finish ≤ tick → tick < next → tick < run.length → ¬ run.Starts tick) ∧
        (next < run.length → run.Starts next) := by
  obtain ⟨early, gap, timing⟩ := run.accepted.timing
  have startedBefore : start ≤ noticed := Nat.le_of_lt_succ lastStart.before
  have noticedWithin : noticed < run.length := Nat.lt_trans after within
  have ordinaryReadings : run.reading noticed - run.reading start < config.slotTicks := by
    obtain ⟨passed, rfl⟩ := Nat.exists_eq_add_of_le startedBefore
    rw [consecutive.reading passed noticedWithin]
    lia
  obtain ⟨begun, slots, caughtFirst, spent, below⟩ :=
    notices.caught timing appends noticedWithin lastStart ordinaryReadings few
  have caught := caughtFirst.until timing (Nat.le_of_lt within)
    (fun tick from_ until_ => unended tick from_ until_) after
  have calmAt (tick : Nat) (atLeast : finish ≤ tick) (inside : tick < run.length)
      (silent : ∀ earlier, finish ≤ earlier → earlier < tick → ¬ run.Starts earlier)
      (unstarted : ¬ run.Starts tick) :
      run.carrier tick = false := by
    refine calm tick atLeast inside fun earlier begins ends => ?_
    rcases Nat.lt_or_eq_of_le ends with earlier | rfl
    · exact silent _ begins earlier
    · exact unstarted
  obtain ⟨_, unstarted, _⟩ := caught.stops timing consecutive within jammed
  have lasted := caught.lasted timing within unstarted jammed
  have recovers := caught.recovers timing consecutive (appends finish within) within
    jammed (caught.held appends (Nat.le_of_lt within))
    (calmAt finish (Nat.le_refl finish) within fun earlier begins ends => by omega)
  have positive : 0 < gap := Nat.lt_of_le_of_lt (Nat.zero_le early) timing.early_lt_gap
  have mostSlots :
      slots ≤ 2 ^ min (run.collisionNumber noticed) config.backoffLimit.toNat - 1 :=
    Nat.le_sub_one_of_lt below
  have atMost := jam_over_le timing (Nat.le_of_lt within) startedBefore spent lasted
  have longer := Nat.mul_le_mul_right config.backoffSlotTicks mostSlots
  refine ⟨gap, slots, timing.gapTicks_eq, caught.stands, mostSlots, by lia, by lia, ?_, ?_⟩
  · intro tick begins before inside
    have reached := recovers.until_due timing consecutive appends calmAt inside
      (Nat.lt_succ_of_le begins) before
    exact reached.unstarted tick begins (Nat.lt_succ_self tick)
  · intro inside
    have reached := recovers.until_due timing consecutive appends calmAt (Nat.le_of_lt inside)
      (by lia) (Nat.le_refl _)
    exact reached.starts timing consecutive (appends _ inside) inside rfl
      (calmAt _ (by lia) inside reached.unstarted)

/-- A frame of one octet, which meets a collision on the second tick of its first attempt. -/
def backoffScenario : Scenario (FrameQueue 2) MaxWords where
  source := (FrameQueue.empty 2).offer { octets := [.byte 0x96] }
  words := {}
  inputs count := { collision := count = 3 }

/-- The run of that scenario, with backoff slots that are longer than the gap. -/
def backoffRun :
    Run { Config.brief with backoffSlotBytes := 3, backoffLimit := 1 } (FrameQueue 2) MaxWords :=
  (backoffScenario.run? _ 13).get (by decide +kernel)

theorem retries_on_time_backoffRun :
    backoffRun.LastStart 2 4 ∧ backoffRun.Notices 3 ∧
      Mark.ended .jammed ∈ backoffRun.marks 6 ∧
      (backoffRun.engine 6).verdict = some (.retry 1 6) ∧
        ¬ backoffRun.Starts 11 ∧ backoffRun.Starts 12 := by
  have steady : backoffRun.Steady := fun count _ => (Nat.zero_add count).symm
  have appends :
      ∀ tick, tick < backoffRun.length → FrameStore.Appends (backoffRun.supply tick) :=
    fun _ _ => ⟨[], fun _ => rfl⟩
  have struckMarks : backoffRun.marks 3 = [.noticed 3] := by decide +kernel
  have quietMarks : ∀ tick, 3 < tick → tick < 6 → backoffRun.marks tick = [] := by
    intro tick after before
    obtain rfl | rfl : tick = 4 ∨ tick = 5 := by omega
    · decide +kernel
    · decide +kernel
  have lastStart : backoffRun.LastStart 2 4 := by
    refine ⟨⟨0, 2, by decide +kernel⟩, by decide, fun tick after before starts => ?_⟩
    obtain rfl : tick = 3 := by omega
    unfold Starts at starts
    rw [struckMarks] at starts
    simp [HasStart] at starts
  have notices : backoffRun.Notices 3 := by
    refine ⟨3, ?_⟩
    rw [struckMarks]
    exact List.mem_singleton_self _
  have jammed : Mark.ended .jammed ∈ backoffRun.marks 6 := by decide +kernel
  have unended : ∀ tick, 3 < tick → tick < 6 → ∀ ending,
      Mark.ended ending ∉ backoffRun.marks tick := by
    intro tick after before ending
    rw [quietMarks tick after before]
    exact List.not_mem_nil
  obtain ⟨gap, slots, gapEqual, verdict, _, _, _, waits, starts⟩ :=
    retries_on_time steady.consecutive appends (by decide +kernel) lastStart notices
      (by decide +kernel) (by decide +kernel) (by decide) unended jammed fun _ _ _ _ => rfl
  obtain rfl : 2 = gap := Except.ok.inj gapEqual
  have drawn : (backoffRun.engine 6).verdict = some (.retry 1 6) := by decide +kernel
  obtain rfl : 1 = slots := by
    rw [drawn] at verdict
    cases verdict
    rfl
  exact ⟨lastStart, notices, jammed, drawn, waits 11 (by decide) (by decide) (by decide +kernel),
    starts (by decide +kernel)⟩

end Run

end HalfDuplex
