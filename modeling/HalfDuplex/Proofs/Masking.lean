import HalfDuplex.Proofs.Backoff

/-!
# Inputs without effect

The collision input is sampled as the last thing that a tick of the sequencer does, and only
in an attempt that can still be aborted and has no collision pending.  Carrier is ignored in
the late part of a gap, and while the station itself drives the line.  Where an input is
masked in this way, runs that differ in it alone go on alike.

One trace is left: carrier that holds an attempt off is noted even in the late part of the
gap, and the attempt is counted as deferred when it starts.  So the runs are compared up to
that note and that count.
-/

namespace HalfDuplex

/-! ## The collision input -/

namespace Sequencer

variable {σ : Type} {sequencer next : Sequencer} {now : Tick} {source after : σ}
  {collision : Bool} {step : SequencerStep} {events : List Event}

/-- Notices a collision in what a tick without a collision left behind. -/
def noting (collision : Bool) (left : Sequencer × σ × SequencerStep) :
    Traced (Sequencer × σ × SequencerStep) :=
  if left.1.notices collision then do
    .record (.collisionLatched left.1.stage left.1.nibbles)
    return ({ left.1 with aborting := true }, left.2.1, { left.2.2 with collided := true })
  else
    return left

theorem noting_of_idle (idle : next.stage = .idle) :
    noting collision (next, source, step) = pure (next, source, step) := by
  simp [noting, notices, idle, Stage.abortable]

theorem sample_eq_noting (collision clockEnable : Bool) :
    (do
      let (sampled, step) ← sequencer.sample collision clockEnable
      return (sampled, source, step)) =
    (do
      let (sampled, step) ← sequencer.sample false clockEnable
      noting collision (sampled, source, step)) := by
  by_cases noticed : sequencer.notices collision = true
  · have sampled := noticed
    unfold notices at sampled
    simp [sample, noting, noticed, sampled]
  · have sampled := noticed
    unfold notices at sampled
    simp [sample, noting, noticed, sampled]

theorem hold_eq_noting (collision : Bool) :
    (do
      let (held, step) ← sequencer.hold collision
      return (held, source, step)) =
    (do
      let (held, step) ← sequencer.hold false
      return (held, source, step)) >>= noting collision := by
  unfold hold
  simp only [bind_assoc, pure_bind]
  congr 1
  funext elapsed
  exact sample_eq_noting collision false

theorem present_eq_noting (collision : Bool) :
    (do
      let (driven, step) ← sequencer.present collision
      return (driven, source, step)) =
    (do
      let (driven, step) ← sequencer.present false
      return (driven, source, step)) >>= noting collision := by
  unfold present
  simp only [bind_assoc, pure_bind]
  congr 1
  funext advanced
  congr 1
  funext nibbles
  congr 1
  funext elapsed
  exact sample_eq_noting collision true

variable [ByteSource σ]

theorem stepBoundary_eq_noting (collision : Bool) :
    sequencer.stepBoundary now collision source =
      sequencer.stepBoundary now false source >>= noting collision := by
  unfold stepBoundary
  simp only [bind_assoc]
  congr 1
  funext ⟨loaded, after, ending⟩
  cases ending with
  | some ending => simp [noting_of_idle, rest]
  | none => exact present_eq_noting collision

/-- Sampling the collision input is the last thing that a tick does. -/
theorem step_eq_noting (collision : Bool) :
    sequencer.step now collision source =
      sequencer.step now false source >>= noting collision := by
  unfold step
  by_cases idle : sequencer.stage = .idle
  · simp [idle, noting_of_idle]
  · simp only [idle, if_false, bind_assoc]
    congr 1
    funext phase
    by_cases between : phase ≠ 0
    · simp only [if_pos between]
      exact hold_eq_noting collision
    · rw [if_neg between, if_neg between]
      by_cases high : sequencer.highNext
      · simp only [if_pos high]
        exact present_eq_noting collision
      · rw [if_neg high, if_neg high]
        exact stepBoundary_eq_noting collision

/-- A collision input makes no difference to a tick that noticed no collision and would not
have noticed one. -/
theorem step_unnoticing
    (unnoticed : step.collided = false)
    (deaf : next.notices true = false)
    (yields : (sequencer.step now collision source).Yields events (next, after, step))
    (other : Bool) :
    (sequencer.step now other source).Yields events (next, after, step) := by
  have unnoticing : next.notices other = false := by
    cases other with
    | false => rfl
    | true => exact deaf
  rw [step_eq_noting] at yields ⊢
  rw [Traced.yields_bind] at yields ⊢
  obtain ⟨left, before, late, steps, notes, rfl⟩ := yields
  refine ⟨left, before, late, steps, ?_, rfl⟩
  unfold noting at notes ⊢
  split at notes
  · simp only [Traced.yields_bind, Traced.yields_pure, Prod.mk.injEq] at notes
    obtain ⟨_, _, _, _, ⟨_, _, _, rfl⟩, _⟩ := notes
    cases unnoticed
  · rw [Traced.yields_pure] at notes
    obtain ⟨rfl, rfl⟩ := notes
    rw [if_neg (by rw [unnoticing]; exact Bool.false_ne_true)]
    exact Traced.yields_pure.mpr ⟨rfl, rfl⟩

end Sequencer

/-! ## The carrier input -/

/-- In the late part of a gap carrier is ignored. -/
theorem Deferral.tick_past {timer : Deferral} {now since : Tick}
    (past : timer.Past now since) (carrier other : Bool) :
    timer.tick now carrier = timer.tick now other := by
  rcases past with late | ⟨early, ended⟩
  · unfold tick
    rw [late]
  · unfold tick
    rw [early]
    simp only [tickEarly]
    cases added : checkedAdd wideLimit since timer.earlyTicks with
    | error fault => rfl
    | ok due =>
        obtain ⟨_, rfl⟩ := checkedAdd_eq_ok_iff.mp added
        have lifted : Traced.lift (.ok (since + timer.earlyTicks)) =
            (pure (since + timer.earlyTicks) : Traced Tick) :=
          rfl
        rw [lifted]
        simp only [pure_bind, if_pos ended]

/-! ## The note of a deferral -/

namespace Engine

variable {σ γ α : Type} (engine : Engine σ γ) (deferred : Bool) (deferrals : Nat)

/-- The engine with another note of having been held off, and another count of the attempts
that were. -/
def noted : Engine σ γ :=
  { engine with deferred, stats := { engine.stats with deferrals } }

/-- What an operation of the engine leaves behind, with another note and another count. -/
def alongside (left : Engine σ γ × α) : Engine σ γ × α :=
  (left.1.noted deferred deferrals, left.2)

/-- An attempt that starts is counted if it was held off, and the note is cleared. -/
theorem begin_noted (now : Tick) :
    ∃ counted, (engine.noted deferred deferrals).begin now =
      (engine.begin now).noted false counted := by
  refine ⟨((engine.noted deferred deferrals).begin now).stats.deferrals, ?_⟩
  cases own : engine.deferred <;> cases deferred <;>
    simp [begin, noted, own, Statistics.countDeferral]

variable [ByteSource σ]

theorem finish_noted (now : Tick) (outcome : Outcome) :
    (engine.noted deferred deferrals).finish now outcome =
      alongside deferred deferrals <$> engine.finish now outcome := by
  cases outcome <;> simp [finish, noted, alongside, Statistics.countOutcome]

theorem settle_noted (now : Tick) (ending : Ending) :
    (engine.noted deferred deferrals).settle now ending =
      alongside deferred deferrals <$> engine.settle now ending := by
  cases ending with
  | sent => exact engine.finish_noted deferred deferrals now .ok
  | underflow => exact engine.finish_noted deferred deferrals now .underflow
  | jammed =>
      have kept : (engine.noted deferred deferrals).verdict = engine.verdict := rfl
      cases verdict : engine.verdict with
      | none => simp [settle, verdict, alongside, noted, rewindSource]
      | some judged =>
          cases judged with
          | retry slots delay =>
              simp [settle, verdict, alongside, noted, rewindSource, Statistics.countCollision]
          | giveUp =>
              simp only [settle, kept, verdict]
              exact finish_noted { engine with stats := engine.stats.countCollision } deferred
                deferrals now _
          | late =>
              simp only [settle, kept, verdict]
              exact engine.finish_noted deferred deferrals now .lateCollision

variable [WordSource γ]

theorem drive_noted (now : Tick) (collision : Bool) :
    (engine.noted deferred deferrals).drive now collision =
      alongside deferred deferrals <$> engine.drive now collision := by
  have sequencer : (engine.noted deferred deferrals).sequencer = engine.sequencer := rfl
  have source : (engine.noted deferred deferrals).source = engine.source := rfl
  unfold drive
  rw [sequencer, source]
  simp only [map_bind]
  congr 1
  funext ⟨driven, after, step⟩
  by_cases noticed : step.collided
  · simp [alongside, noted, noticed]
  · simp [alongside, noted, noticed]

theorem proceed_noted (now : Tick) (collision : Bool) :
    (engine.noted deferred deferrals).proceed now collision =
      alongside deferred deferrals <$> engine.proceed now collision := by
  unfold proceed
  rw [drive_noted]
  simp only [map_bind, bind_map_left]
  congr 1
  funext ⟨driven, step⟩
  cases ended : step.ending with
  | none => simp [alongside, ended]
  | some ending =>
      simp only [alongside, ended]
      rw [settle_noted]
      simp only [map_bind, bind_map_left]
      congr 1
      funext ⟨settled, outcome⟩
      cases outcome <;> simp [alongside]

/-! ## Ticks with masked inputs -/

section Ticks

variable {engine next : Engine σ γ} {now : Tick} {collision : Bool} {events : List Event}
  {signals shown : Signals} {status : Indicators}

/-- No collision was noticed on a tick, and none would have been. -/
structure Unnoticing (now : Tick) (events : List Event) (next : Engine σ γ) : Prop where
  unnoticed : ¬ HasNotice (marksOf now events)
  deaf : next.sequencer.notices true = false

omit [ByteSource σ] [WordSource γ] in
theorem Unnoticing.part {other : Engine σ γ} {part : List Event}
    (unnoticing : next.Unnoticing now events)
    (subset : part ⊆ events)
    (same : other.sequencer = next.sequencer) :
    other.Unnoticing now part where
  unnoticed := by
    rintro ⟨time, member⟩
    obtain ⟨event, recorded, marked⟩ := List.mem_filterMap.mp member
    exact unnoticing.unnoticed ⟨time, List.mem_filterMap.mpr ⟨event, subset recorded, marked⟩⟩
  deaf := same ▸ unnoticing.deaf

theorem drive_unnoticing {step : SequencerStep}
    (unnoticing : next.Unnoticing now events)
    (yields : (engine.drive now collision).Yields events (next, step))
    (other : Bool) :
    (engine.drive now other).Yields events (next, step) := by
  have unnoticed : step.collided = false := by
    have marked := (drive_yields yields).2
    have unmarked := unnoticing.unnoticed
    rwa [marked, Sequencer.hasNotice_marksOfStep, Bool.not_eq_true] at unmarked
  simp only [drive, Traced.yields_bind] at yields ⊢
  obtain ⟨⟨sequencer, source, moved⟩, before, after, steps, left, rfl⟩ := yields
  split at left
  · rename_i collided
    simp only [Traced.yields_bind, Traced.yields_pure, Prod.mk.injEq] at left
    obtain ⟨_, _, _, _, ⟨_, _, rfl⟩, _⟩ := left
    cases collided.symm.trans unnoticed
  · rename_i uncollided
    simp only [Traced.yields_pure, Prod.mk.injEq] at left
    obtain ⟨rfl, rfl, rfl⟩ := left
    have stepsOther := Sequencer.step_unnoticing unnoticed unnoticing.deaf steps other
    refine ⟨_, before, [], stepsOther, ?_, rfl⟩
    rw [if_neg uncollided]
    exact Traced.yields_pure.mpr ⟨rfl, rfl⟩

theorem proceed_unnoticing
    (unnoticing : next.Unnoticing now events)
    (yields : (engine.proceed now collision).Yields events (next, signals, status))
    (other : Bool) :
    (engine.proceed now other).Yields events (next, signals, status) := by
  simp only [proceed, Traced.yields_bind] at yields ⊢
  obtain ⟨⟨driven, step⟩, before, after, drives, left, rfl⟩ := yields
  -- Settling an attempt leaves the sequencer alone, so it is as deaf before as after.
  have kept : driven.sequencer = next.sequencer := by
    cases ended : step.ending with
    | none =>
        simp only [ended, Traced.yields_pure, Prod.mk.injEq] at left
        rw [left.2.1]
    | some ending =>
        simp only [ended, Traced.yields_bind] at left
        obtain ⟨⟨settled, outcome⟩, _, _, settles, left, _⟩ := left
        have same : settled = next := by
          cases outcome with
          | none | some =>
              simp only [Traced.yields_pure, Prod.mk.injEq] at left
              exact left.2.1
        rw [← same]
        exact (settle_yields settles).1.keeps.1.symm
  have unnoticingThen : driven.Unnoticing now before :=
    unnoticing.part (List.subset_append_left before after) kept
  exact ⟨(driven, step), before, after, drive_unnoticing unnoticingThen drives other, left, rfl⟩

theorem launch_masked {other : Bool}
    (masked : other = collision ∨ next.Unnoticing now events)
    (yields : (engine.launch now collision).Yields events (next, shown))
    (deferred : Bool) (deferrals : Nat) :
    ∃ counted, ((engine.noted deferred deferrals).launch now other).Yields events
      (next.noted false counted, shown) := by
  obtain ⟨counted, begun⟩ := engine.begin_noted deferred deferrals now
  simp only [launch, Traced.yields_bind, Traced.yields_record, Traced.yields_pure,
    Prod.mk.injEq] at yields
  obtain ⟨_, _, _, rfl, ⟨⟨driven, step⟩, marked, _, drives, ⟨rfl, rfl, rfl⟩, rfl⟩,
    rfl⟩ := yields
  have drivesOther :
      ((engine.begin now).drive now other).Yields marked (driven, step) := by
    rcases masked with same | unnoticing
    · rw [same]
      exact drives
    · have recorded : marked ⊆
          [.attemptStarted (engine.window.nextAttempt now).number now] ++ (marked ++ []) := by
        rw [List.append_nil]
        exact List.subset_append_right _ marked
      exact drive_unnoticing (unnoticing.part recorded rfl) drives _
  have drivesNoted := drivesOther.map (alongside false counted)
  rw [← drive_noted, ← begun] at drivesNoted
  refine ⟨counted, ?_⟩
  simp only [launch, Traced.yields_bind, Traced.yields_record, Traced.yields_pure,
    Prod.mk.injEq]
  exact ⟨(), _, _, rfl, ⟨_, _, _, drivesNoted, ⟨rfl, rfl, rfl⟩, rfl⟩, rfl⟩

/-- Carrier that holds an attempt off leaves a note, and nothing else about the start of an
attempt depends on it. -/
theorem consider_masked {inputs otherInputs : Inputs} {ready : Bool}
    (collision :
      otherInputs.collision = inputs.collision ∨ next.Unnoticing now events)
    (yields : (engine.consider now inputs ready signals).Yields events (next, shown))
    (deferred : Bool) (deferrals : Nat) :
    ∃ deferredNext deferralsNext,
      ((engine.noted deferred deferrals).consider now otherInputs ready signals).Yields events
        (next.noted deferredNext deferralsNext, shown) := by
  have sequencer : (engine.noted deferred deferrals).sequencer = engine.sequencer := rfl
  have source : (engine.noted deferred deferrals).source = engine.source := rfl
  have backoffDone :
      (engine.noted deferred deferrals).backoffDone now = engine.backoffDone now :=
    rfl
  unfold consider at yields ⊢
  rw [sequencer, source, backoffDone]
  split at yields
  · rename_i mayStart
    rw [if_pos mayStart]
    split at yields
    · rename_i free
      rw [if_pos free]
      obtain ⟨counted, launches⟩ := launch_masked collision yields deferred deferrals
      exact ⟨false, counted, launches⟩
    · rename_i closed
      rw [if_neg closed]
      rw [Traced.yields_pure, Prod.mk.injEq] at yields
      obtain ⟨rfl, rfl, rfl⟩ := yields
      exact ⟨deferred || otherInputs.carrier, deferrals, Traced.yields_pure.mpr ⟨rfl, rfl⟩⟩
  · rename_i unable
    rw [if_neg unable]
    rw [Traced.yields_pure, Prod.mk.injEq] at yields
    obtain ⟨rfl, rfl, rfl⟩ := yields
    exact ⟨deferred, deferrals, Traced.yields_pure.mpr ⟨rfl, rfl⟩⟩

/-- Unless an attempt starts, considering one leaves the sequencer and the line alone. -/
theorem Considers.starts_or_keeps {inputs : Inputs} {ready : Bool} {marks : List Mark}
    (considers : Considers now inputs ready signals engine next shown marks) :
    HasStart marks ∧ engine.sequencer.stage = .idle ∨
      next.sequencer = engine.sequencer ∧ shown = signals := by
  cases considers with
  | launches poised => exact .inl ⟨hasStart_started _ _ _, poised.1⟩
  | holdsOff | passes => exact .inr ⟨rfl, rfl⟩

/-- A tick does not depend on inputs that are masked on it, except that it may note a
deferral. -/
theorem tick_masked {inputs otherInputs : Inputs} {outputs : Outputs}
    (collision :
      otherInputs.collision = inputs.collision ∨ next.Unnoticing now events)
    (carrier :
      otherInputs.carrier = inputs.carrier ∨
        outputs.signals.enable = true ∧ ¬ HasStart (marksOf now events) ∨
        ∃ since, engine.deferral.Past now since)
    (yields : (engine.tick now inputs).Yields events (next, outputs))
    (deferred : Bool) (deferrals : Nat) :
    ∃ deferredNext deferralsNext,
      ((engine.noted deferred deferrals).tick now otherInputs).Yields events
        (next.noted deferredNext deferralsNext, outputs) := by
  obtain ⟨proceeded, signals, before, deferral, ready, between, after, proceeds, advances,
    considers, rfl⟩ := tick_yields_iff.mp yields
  have startsOrKeeps := (consider_yields considers).starts_or_keeps
  have proceedsOther :
      (engine.proceed now otherInputs.collision).Yields before
        (proceeded, signals, outputs.status) := by
    rcases collision with same | unnoticing
    · rw [same]
      exact proceeds
    · have recorded : before ⊆ before ++ (between ++ after) :=
        List.subset_append_left before _
      -- An attempt can only start where none is in progress, and there nothing is noticed.
      have deaf : proceeded.sequencer.notices true = false := by
        rcases startsOrKeeps with ⟨_, idle⟩ | ⟨same, _⟩
        · have stage : proceeded.sequencer.stage = .idle := idle
          simp [Sequencer.notices, stage, Stage.abortable]
        · have kept : next.sequencer = proceeded.sequencer := same
          exact kept ▸ unnoticing.deaf
      have unnoticed := (unnoticing.part recorded rfl).unnoticed
      exact proceed_unnoticing ⟨unnoticed, deaf⟩ proceeds _
  have advancesOther :
      (proceeded.deferral.tick now (otherInputs.carrier || signals.enable)).Yields between
        (deferral, ready) := by
    rcases carrier with same | ⟨enabled, unstarted⟩ | ⟨since, past⟩
    · rw [same]
      exact advances
    · have driving : signals.enable = true := by
        rcases startsOrKeeps with ⟨started, _⟩ | ⟨_, same⟩
        · simp [started] at unstarted
        · have kept : outputs.signals = signals := same
          exact kept ▸ enabled
      rw [driving, Bool.or_true] at advances ⊢
      exact advances
    · rw [← (proceed_yields proceeds).deferral] at past
      rw [Deferral.tick_past past _ (inputs.carrier || signals.enable)]
      exact advances
  have recordedAfter : after ⊆ before ++ (between ++ after) := by
    simp
  obtain ⟨deferredNext, deferralsNext, considersOther⟩ :=
    consider_masked (collision.imp_right fun unnoticing => unnoticing.part recordedAfter rfl)
      considers deferred deferrals
  have proceedsNoted := proceedsOther.map (alongside deferred deferrals)
  rw [← proceed_noted] at proceedsNoted
  exact ⟨deferredNext, deferralsNext, tick_yields_iff.mpr ⟨_, _, _, _, _, _, _, proceedsNoted,
    advancesOther, considersOther, rfl⟩⟩

variable {inputs : Inputs} {outputs : Outputs} {marks : List Mark}

/-- An attempt that is struck stays so until it ends, and no other collision is noticed. -/
theorem Ticks.keeps_struck
    (struck : engine.sequencer.Struck ∨ engine.sequencer.stage = .idle)
    (unstarted : ¬ HasStart marks)
    (ticks : Ticks now inputs engine next outputs marks) :
    ¬ HasNotice marks ∧ (next.sequencer.Struck ∨ next.sequencer.stage = .idle) := by
  cases ticks.turns with
  | goesOn active moves unended _ _ marked =>
      rcases struck with struck | idle
      · obtain ⟨uncollided, kept⟩ := struck.moves moves
        rw [unended] at kept
        refine ⟨?_, .inl kept⟩
        rw [marked, Sequencer.hasNotice_marksOfStep, uncollided]
        exact Bool.false_ne_true
      · exact absurd idle active
  | stops moves ended settles status leaves | waits idle unraised leaves =>
      cases leaves with
      | rests idle =>
          refine ⟨fun noticed => ?_, .inr idle⟩
          have abortable := (ticks.pending noticed).2
          rw [idle] at abortable
          cases abortable
      | starts waiting moves same started => exact absurd started unstarted

end Ticks

end Engine

/-! ## Runs that differ in masked inputs -/

/-- A gap with a late part of two ticks, and a slot that holds a whole frame. -/
def Config.longGap : Config :=
  { Config.brief with slotBytes := 8, ipgBytes := 3 }

namespace Run

variable {config : Config} {σ γ : Type} [ByteSource σ] [WordSource γ]
  {run other : Run config σ γ} {first count tick : Nat}

/-- The collision input of a tick is masked: the tick leaves no attempt that could be aborted,
or a collision was already noticed in the attempt. -/
inductive MasksCollision (run : Run config σ γ) (tick : Nat) : Prop
  | unabortable
      (unabortable : (run.engine (tick + 1)).stage.abortable = false)
  | latched {start noticed : Nat}
      (running : run.LastStart start (tick + 1))
      (after : start ≤ noticed)
      (before : noticed < tick)
      (notices : run.Notices noticed)

/-- The carrier input of a tick is masked: an attempt that started earlier drives the line, or
the gap is in its late part. -/
inductive MasksCarrier (run : Run config σ γ) (tick : Nat) : Prop
  | driving
      (enabled : (run.outputs tick).signals.enable = true)
      (unstarted : ¬ run.Starts tick)
  | late {since : Tick}
      (past : (run.engine tick).deferral.Past (run.reading tick) since)

/-- From the tick `first` on two runs are given the same, masked inputs apart. -/
structure Parallels (run other : Run config σ γ) (first : Nat) : Prop where
  engine : other.engine first = run.engine first
  supply : ∀ tick, first ≤ tick → tick < run.length → tick < other.length →
    other.supply tick = run.supply tick
  reading : ∀ tick, first ≤ tick → tick < run.length → tick < other.length →
    other.reading tick = run.reading tick
  collision : ∀ tick, first ≤ tick → tick < run.length → tick < other.length →
    (other.inputs tick).collision = (run.inputs tick).collision ∨ run.MasksCollision tick
  carrier : ∀ tick, first ≤ tick → tick < run.length → tick < other.length →
    (other.inputs tick).carrier = (run.inputs tick).carrier ∨ run.MasksCarrier tick

theorem unnoticing_of_unabortable
    (within : tick < run.length)
    (unabortable : (run.engine (tick + 1)).stage.abortable = false) :
    (run.engine (tick + 1)).Unnoticing (run.reading tick) (run.events tick) where
  unnoticed := by
    intro noticed
    have abortable := ((run.ticks within).pending noticed).2
    cases unabortable.symm.trans abortable
  deaf := by
    have stage : (run.engine (tick + 1)).sequencer.stage.abortable = false := unabortable
    simp [Sequencer.notices, stage]

/-- From a collision to the end of its attempt the sequencer is struck. -/
theorem struck_of_notices {start noticed : Nat}
    (running : run.LastStart start count)
    (within : count ≤ run.length)
    (after : start ≤ noticed)
    (before : noticed < count)
    (notices : run.Notices noticed) :
    (run.engine count).sequencer.Struck ∨ (run.engine count).sequencer.stage = .idle := by
  induction before with
  | refl =>
      have pending := (run.ticks within).pending notices
      exact .inl (.pending pending.1 pending.2)
  | @step count before inductionHypothesis =>
      have started : start < count := Nat.lt_of_le_of_lt after before
      have unstarted := running.last count started (Nat.lt_succ_self count)
      have struck : (run.entering count).sequencer.Struck ∨
          (run.entering count).sequencer.stage = .idle :=
        inductionHypothesis (running.earlier started) (Nat.le_of_succ_le within)
      exact ((run.ticks within).keeps_struck struck unstarted).2

/-- A collision input that is masked is not noticed, and would not be. -/
theorem MasksCollision.unnoticing
    (within : tick < run.length)
    (masks : run.MasksCollision tick) :
    (run.engine (tick + 1)).Unnoticing (run.reading tick) (run.events tick) := by
  cases masks with
  | unabortable unabortable => exact unnoticing_of_unabortable within unabortable
  | latched running after before notices =>
      have started := Nat.lt_of_le_of_lt after before
      have unstarted := running.last tick started (Nat.lt_succ_self tick)
      have struck : (run.entering tick).sequencer.Struck ∨
          (run.entering tick).sequencer.stage = .idle :=
        struck_of_notices (running.earlier started) (Nat.le_of_lt within) after before notices
      obtain ⟨unnoticed, struckNext⟩ := (run.ticks within).keeps_struck struck unstarted
      refine ⟨unnoticed, ?_⟩
      rcases struckNext with struckNext | idle
      · exact struckNext.not_notices
      · simp [Sequencer.notices, idle, Stage.abortable]

theorem MasksCarrier.alternatives
    (masks : run.MasksCarrier tick) :
    (run.outputs tick).signals.enable = true ∧
        ¬ HasStart (marksOf (run.reading tick) (run.events tick)) ∨
      ∃ since, (run.entering tick).deferral.Past (run.reading tick) since := by
  cases masks with
  | driving enabled unstarted => exact .inl ⟨enabled, unstarted⟩
  | late past => exact .inr ⟨_, past⟩

/-- A tick of two runs that differed only in what they noted of deferrals. -/
theorem Parallels.ticks {deferred : Bool} {deferrals : Nat}
    (parallels : run.Parallels other first)
    (started : first ≤ tick)
    (within : tick < run.length)
    (withinOther : tick < other.length)
    (same : other.engine tick = (run.engine tick).noted deferred deferrals) :
    other.outputs tick = run.outputs tick ∧
      ∃ deferredNext deferralsNext,
        other.engine (tick + 1) =
          (run.engine (tick + 1)).noted deferredNext deferralsNext := by
  have collision := (parallels.collision tick started within withinOther).imp_right
    fun masks => masks.unnoticing within
  have carrier := (parallels.carrier tick started within withinOther).imp_right
    MasksCarrier.alternatives
  obtain ⟨deferredNext, deferralsNext, yields⟩ :=
    Engine.tick_masked collision carrier (run.ticked tick within) deferred deferrals
  have entering : other.entering tick = (run.entering tick).noted deferred deferrals := by
    unfold entering
    rw [same, parallels.supply tick started within withinOther]
    rfl
  have yieldsOther := other.ticked tick withinOther
  rw [show (other.engine tick).supplied (other.supply tick) = _ from entering,
    parallels.reading tick started within withinOther] at yieldsOther
  obtain ⟨_, left⟩ := yieldsOther.unique yields
  obtain ⟨engine, outputs⟩ := Prod.mk.inj left
  exact ⟨outputs, deferredNext, deferralsNext, engine⟩

/-- Runs that differ in masked inputs alone differ in what they note of deferrals alone. -/
theorem Parallels.noted
    (parallels : run.Parallels other first)
    (started : first ≤ count)
    (within : count ≤ run.length)
    (withinOther : count ≤ other.length) :
    ∃ deferred deferrals, other.engine count = (run.engine count).noted deferred deferrals := by
  induction started with
  | refl => exact ⟨_, _, parallels.engine⟩
  | @step count started inductionHypothesis =>
      obtain ⟨deferred, deferrals, same⟩ :=
        inductionHypothesis (Nat.le_of_succ_le within) (Nat.le_of_succ_le withinOther)
      exact (parallels.ticks started within withinOther same).2

/-- Masked inputs have no effect.  Runs that are given the same from a common state on,
except for the collision input on ticks on which it cannot be noticed and for the carrier
input on ticks on which the line is driven anyway or the gap is in its late part, show the
same on every tick, and agree in everything but the number of deferrals. -/
theorem masked_inputs_have_no_effect
    (parallels : run.Parallels other first) :
    (∀ tick, first ≤ tick → tick < run.length → tick < other.length →
      other.outputs tick = run.outputs tick) ∧
    ∀ count, first ≤ count → count ≤ run.length → count ≤ other.length →
      (other.engine count).stage = (run.engine count).stage ∧
      (other.engine count).deferral = (run.engine count).deferral ∧
      (other.engine count).attempt = (run.engine count).attempt ∧
      (other.engine count).collisions = (run.engine count).collisions ∧
      (other.engine count).busy = (run.engine count).busy ∧
      ∃ deferrals,
        (other.engine count).stats = { (run.engine count).stats with deferrals } := by
  constructor
  · intro tick started within withinOther
    obtain ⟨deferred, deferrals, same⟩ :=
      parallels.noted started (Nat.le_of_lt within) (Nat.le_of_lt withinOther)
    exact (parallels.ticks started within withinOther same).1
  · intro count started within withinOther
    obtain ⟨deferred, deferrals, same⟩ := parallels.noted started within withinOther
    rw [same]
    exact ⟨rfl, rfl, rfl, rfl, rfl, deferrals, rfl⟩

/-- A frame of one octet, which meets one collision. -/
def calmScenario : Scenario (FrameQueue 2) ZeroWords where
  source := (FrameQueue.empty 2).offer { octets := [.byte 0xC3] }
  words := {}
  inputs count := { collision := count = 8 }

/-- The same with collisions while no attempt is in progress, while one is pending and in the
jam, and with carrier in the late part of both gaps and while the line is driven. -/
def noisyScenario : Scenario (FrameQueue 2) ZeroWords :=
  { calmScenario with
    inputs := fun count => {
      carrier := count = 4 ∨ count = 5 ∨ count = 7 ∨ count = 16
      collision := count < 6 ∨ 8 ≤ count ∧ count < 15 } }

def calmRun : Run .longGap (FrameQueue 2) ZeroWords :=
  (calmScenario.run? .longGap 31).get (by decide +kernel)

def noisyRun : Run .longGap (FrameQueue 2) ZeroWords :=
  (noisyScenario.run? .longGap 31).get (by decide +kernel)

theorem masked_inputs_have_no_effect_noisyRun :
    calmRun.Parallels noisyRun 2 ∧
      noisyRun.outputs 9 = calmRun.outputs 9 ∧ noisyRun.outputs 30 = calmRun.outputs 30 ∧
      (noisyRun.engine 19).attempt = (calmRun.engine 19).attempt ∧
      (calmRun.outputs 30).status = { ok := true } ∧
      (calmRun.engine 31).stats.deferrals = 0 ∧ (noisyRun.engine 31).stats.deferrals = 2 := by
  have running : calmRun.LastStart 6 10 := by
    refine ⟨by decide +kernel, by decide, fun tick after before => ?_⟩
    obtain rfl | rfl | rfl : tick = 7 ∨ tick = 8 ∨ tick = 9 := by omega
    · decide +kernel
    · decide +kernel
    · decide +kernel
  have notices : calmRun.Notices 8 := by decide +kernel
  have collisions : ∀ tick, tick < 31 → tick = 9 ∨
      (noisyRun.inputs tick).collision = (calmRun.inputs tick).collision ∨
        (calmRun.engine (tick + 1)).stage.abortable = false := by
    decide +kernel
  have carriers : ∀ tick, tick < 31 → tick = 4 ∨ tick = 5 ∨ tick = 7 ∨ tick = 16 ∨
      (noisyRun.inputs tick).carrier = (calmRun.inputs tick).carrier := by
    decide +kernel
  have firstLate : (calmRun.engine 4).deferral.Past (calmRun.reading 4) 0 :=
    .inr (by decide +kernel)
  have runningOn : (calmRun.engine 5).deferral.state = .late 0 := by decide +kernel
  have secondLate : (calmRun.engine 16).deferral.Past (calmRun.reading 16) 12 :=
    .inr (by decide +kernel)
  have parallels : calmRun.Parallels noisyRun 2 := {
    engine := rfl
    supply := fun _ _ _ _ => rfl
    reading := fun _ _ _ _ => rfl
    collision := by
      intro tick _ within _
      rcases collisions tick within with rfl | same | unabortable
      · exact .inr (.latched running (by decide) (by decide) notices)
      · exact .inl same
      · exact .inr (.unabortable unabortable)
    carrier := by
      intro tick _ within _
      rcases carriers tick within with rfl | rfl | rfl | rfl | same
      · exact .inr (.late firstLate)
      · exact .inr (.late (.inl runningOn))
      · exact .inr (.driving (by decide +kernel) (by decide +kernel))
      · exact .inr (.late secondLate)
      · exact .inl same }
  obtain ⟨shown, agree⟩ := masked_inputs_have_no_effect parallels
  have agreeing := agree 19 (by decide) (by decide +kernel) (by decide +kernel)
  exact ⟨parallels, shown 9 (by decide) (by decide +kernel) (by decide +kernel),
    shown 30 (by decide) (by decide +kernel) (by decide +kernel), agreeing.2.2.1,
    by decide +kernel, by decide +kernel, by decide +kernel⟩

end Run

end HalfDuplex
