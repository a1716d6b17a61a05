import HalfDuplex.Proofs.Collisions
import HalfDuplex.Proofs.FrameStore
import HalfDuplex.Proofs.History
import HalfDuplex.Proofs.Scenario

/-!
# One outcome for each frame

The engine keeps five pieces of state in step: the stage of the attempt, the verdict on
a collision, the count of collisions, the attempt itself and the frames in the source.
`Engine.Tells` says how they hang together, by relating the engine to the open history
that its marks tell.  `Engine.Progress` is what a tick can do to that relation: it
extends the open history, or it completes a regular one and opens the next.

The readings of the timer need not be in any order here.
-/

namespace HalfDuplex

theorem Outcome.indicators_injective : Function.Injective Outcome.indicators := by
  intro left right same
  have decoded := congrArg Outcome.ofIndicators? same
  rw [Outcome.ofIndicators?_indicators, Outcome.ofIndicators?_indicators] at decoded
  exact Option.some.inj decoded

theorem Outcome.indicators_ne (outcome : Outcome) : outcome.indicators ≠ {} := by
  cases outcome <;> decide

/-- The verdict fits a collision at `now` in the attempt that started at `start`. -/
inductive Verdict.Fits (config : Config) (number : Nat) (start now : Tick)
    (collisions : Nat) : Verdict → Prop
  | retry {slots : Nat} {delay : Tick}
      (ordinary : now - start < config.slotTicks)
      (room : number + 1 < config.maxCollisions.toNat)
      (count : collisions = number + 1) :
      Fits config number start now collisions (.retry slots delay)
  | giveUp
      (ordinary : now - start < config.slotTicks)
      (limit : number + 1 = config.maxCollisions.toNat) :
      Fits config number start now collisions .giveUp
  | late
      (late : config.slotTicks ≤ now - start) :
      Fits config number start now collisions .late

namespace CollisionWindow

variable {γ : Type} [WordSource γ] {config : Config} {window next : CollisionWindow γ}

/-- A verdict fits the collision that it is about. -/
theorem Judges.fits {now start : Tick} {number : Nat} {verdict : Verdict}
    (judges : Judges now window next verdict)
    (limits : window.limits = CollisionLimits.ofConfig config)
    (few : number < config.maxCollisions.toNat)
    (count : window.collisions = number)
    (attempt : window.attempt = some ⟨number, start⟩) :
    verdict.Fits config number start now next.collisions := by
  have slotTicks : window.limits.slotTicks = config.slotTicks := by rw [limits]; rfl
  have maxCollisions : window.limits.maxCollisions = config.maxCollisions.toNat := by
    rw [limits]; rfl
  have elapsed : window.elapsed now = now - start := by simp [CollisionWindow.elapsed, attempt]
  have narrow : config.maxCollisions.toNat < 2 ^ 8 := config.maxCollisions.toNat_lt
  have counted : window.counted = number + 1 := by
    unfold CollisionWindow.counted saturatingSucc collisionLimit
    omega
  cases judges with
  | late outside =>
      rw [slotTicks, elapsed] at outside
      exact .late outside
  | giveUp inside tooMany =>
      rw [slotTicks, elapsed] at inside
      rw [maxCollisions, counted] at tooMany
      exact .giveUp inside (by omega)
  | retry inside room =>
      rw [slotTicks, elapsed] at inside
      rw [maxCollisions, counted] at room
      exact .retry inside room counted

end CollisionWindow

namespace Engine

variable {σ γ : Type}

/-- How far the engine is with the frame that a history is about. -/
inductive Phase (config : Config) (engine : Engine σ γ) (history : OpenHistory) : Prop
  | waiting
      (idle : engine.sequencer.stage = .idle)
      (paused : history.running = none)
      (unjudged : engine.verdict = none)
      (count : engine.window.collisions = history.retried.length)
  | clear {start : Tick}
      (clear : engine.sequencer.Clear)
      (running : history.running = some (start, none))
      (unjudged : engine.verdict = none)
      (count : engine.window.collisions = history.retried.length)
  | struck {start now : Tick} {verdict : Verdict}
      (struck : engine.sequencer.Struck)
      (running : history.running = some (start, some now))
      (judged : engine.verdict = some verdict)
      (fits :
        verdict.Fits config history.retried.length start now engine.window.collisions)

variable [ByteSource σ] [FrameStore σ]

/-- The engine is where the history says it is. -/
structure Tells (config : Config) (engine : Engine σ γ) (history : OpenHistory) : Prop where
  regular : history.Regular config
  phase : engine.Phase config history
  attempt : engine.attempt = history.attempt
  /-- A frame of which an attempt was made waits in the source. -/
  held : history ≠ {} → FrameStore.frames engine.source ≠ []

/-- What a tick, or a part of it, does to the history of the frame in flight. -/
inductive Progress (config : Config) (history : OpenHistory) (before after : Engine σ γ)
    (status : Indicators) (marks : List Mark) : Prop
  | extended (longer : OpenHistory)
      (told : longer.marks = history.marks ++ marks)
      (tells : after.Tells config longer)
      (incomplete : outcomesOf marks = [])
      (unraised : status = {})
      (kept : FrameStore.frames after.source = FrameStore.frames before.source)
  | completed (record : FrameHistory) (fresh : OpenHistory) (front : List ScriptEntry)
      (told : record.marks ++ fresh.marks = history.marks ++ marks)
      (regular : record.Regular config)
      (tells : after.Tells config fresh)
      (complete : outcomesOf marks = [record.outcome])
      (raised : status = record.outcome.indicators)
      (released :
        FrameStore.frames before.source = front :: FrameStore.frames after.source)

variable {config : Config} {engine next : Engine σ γ} {history : OpenHistory} {now : Tick}
  {collision : Bool}

theorem Tells.idle_waiting
    (tells : engine.Tells config history)
    (idle : engine.sequencer.stage = .idle) :
    history.running = none ∧ engine.verdict = none ∧
      engine.window.collisions = history.retried.length := by
  cases tells.phase with
  | waiting _ paused unjudged count => exact ⟨paused, unjudged, count⟩
  | clear clear => exact absurd idle clear.active
  | struck struck => exact absurd idle struck.active

theorem regular_empty {early gap : Tick} (timing : config.Timing early gap) :
    ({} : OpenHistory).Regular config :=
  ⟨rfl, timing.maxCollisions_pos, nofun⟩

theorem Tells.supplied {change : σ → σ}
    (tells : engine.Tells config history)
    (appends : FrameStore.Appends change) :
    (engine.supplied change).Tells config history := by
  have phase : (engine.supplied change).Phase config history := by
    cases tells.phase with
    | waiting idle paused unjudged count => exact .waiting idle paused unjudged count
    | clear clear running unjudged count => exact .clear clear running unjudged count
    | struck struck running judged fits => exact .struck struck running judged fits
  refine ⟨tells.regular, phase, tells.attempt, fun nonempty => ?_⟩
  obtain ⟨added, grown⟩ := appends.frames engine.source
  have held := tells.held nonempty
  show FrameStore.frames (change engine.source) ≠ []
  simp [grown, held]

theorem Tells.deferring
    (tells : engine.Tells config history)
    (deferral : Deferral) :
    (engine.deferring deferral).Tells config history := by
  refine ⟨tells.regular, ?_, tells.attempt, tells.held⟩
  cases tells.phase with
  | waiting idle paused unjudged count => exact .waiting idle paused unjudged count
  | clear clear running unjudged count => exact .clear clear running unjudged count
  | struck struck running judged fits => exact .struck struck running judged fits

/-- A frame in flight that comes to its outcome leaves an engine without history. -/
theorem tells_finished {early gap : Tick} {outcome : Outcome}
    (timing : config.Timing early gap)
    (idle : engine.sequencer.stage = .idle) :
    (engine.finished outcome).Tells config {} :=
  ⟨regular_empty timing, .waiting idle rfl rfl rfl, rfl, fun nonempty => absurd rfl nonempty⟩

/-- The history is completed when the attempt in progress decides the outcome. -/
theorem Tells.completes {early gap start : Tick} {noticed : Option Tick}
    {ending : Ending} {outcome : Outcome} {driven : Engine σ γ}
    (tells : engine.Tells config history)
    (timing : config.Timing early gap)
    (running : history.running = some (start, noticed))
    (decided :
      AttemptHistory.Decides config ⟨history.retried.length, start, noticed, ending⟩
        outcome)
    (idle : driven.sequencer.stage = .idle)
    (kept : FrameStore.frames driven.source = FrameStore.frames engine.source) :
    Progress config history engine (driven.finished outcome) outcome.indicators
      [.ended ending, .completed outcome] := by
  let last : AttemptHistory := ⟨history.retried.length, start, noticed, ending⟩
  have held : FrameStore.frames engine.source ≠ [] := by
    apply tells.held
    rintro rfl
    cases running
  obtain ⟨front, rest, frames⟩ := List.exists_cons_of_ne_nil held
  have released : FrameStore.frames (driven.finished outcome).source = rest := by
    show FrameStore.frames (ByteSource.release driven.source) = rest
    rw [FrameStore.frames_release, kept, frames, List.tail_cons]
  have told :
      (history.close last outcome).marks ++ ({} : OpenHistory).marks =
        history.marks ++ [.ended ending, .completed outcome] := by
    rw [history.marks_of_running running]
    simp [FrameHistory.marks, FrameHistory.attempts, OpenHistory.close, OpenHistory.marks,
      AttemptHistory.marks, last]
  refine .completed (history.close last outcome) {} front told
    (tells.regular.close rfl decided) (tells_finished timing idle) ?_ rfl ?_
  · simp [Mark.outcome?, OpenHistory.close]
  · rw [released, frames]

/-- The history is extended when the attempt in progress is to be made again. -/
theorem Tells.retries {start noticed due : Tick} {driven : Engine σ γ}
    (tells : engine.Tells config history)
    (running : history.running = some (start, some noticed))
    (ordinary : noticed - start < config.slotTicks)
    (room : history.retried.length + 1 < config.maxCollisions.toNat)
    (count : driven.window.collisions = history.retried.length + 1)
    (closed : driven.attempt = none)
    (idle : driven.sequencer.stage = .idle)
    (kept : FrameStore.frames driven.source = FrameStore.frames engine.source) :
    Progress config history engine (driven.backingOff due) {} [.ended .jammed] := by
  let attempt : AttemptHistory := ⟨history.retried.length, start, some noticed, .jammed⟩
  have frames :
      FrameStore.frames (driven.backingOff due).source =
        FrameStore.frames engine.source :=
    (FrameStore.frames_rewind driven.source).trans kept
  have told : (history.retry attempt).marks = history.marks ++ [.ended .jammed] := by
    rw [history.marks_of_running running]
    simp [OpenHistory.retry, OpenHistory.marks, AttemptHistory.marks, attempt]
  have regular : (history.retry attempt).Regular config :=
    tells.regular.retry rfl room ⟨rfl, noticed, rfl, ordinary⟩
  have phase : (driven.backingOff due).Phase config (history.retry attempt) := by
    refine .waiting idle rfl rfl ?_
    show driven.window.collisions = (history.retried ++ [attempt]).length
    rw [count, List.length_append, List.length_singleton]
  refine .extended (history.retry attempt) told ⟨regular, phase, closed, fun _ => ?_⟩ rfl rfl
    frames
  rw [frames]
  apply tells.held
  rintro rfl
  cases running

section Ticking

variable [WordSource γ]

theorem Drives.frames {step : SequencerStep}
    (drives : Drives now collision engine next step) :
    FrameStore.frames next.source = FrameStore.frames engine.source := by
  cases drives with
  | plain moves unnoticed => exact moves.frames
  | struck moves noticed judges => exact moves.frames

/-- A tick of the sequencer that does not end the attempt extends the history at most by
a collision. -/
theorem Tells.drives {step : SequencerStep}
    (tells : engine.Tells config history)
    (conforms : engine.Conforms config)
    (drives : Drives now collision engine next step)
    (unended : step.ending = none) :
    ∃ longer : OpenHistory, longer.marks = history.marks ++ Sequencer.marksOfStep now step ∧
      next.Tells config longer := by
  have regular := tells.regular
  have held : history ≠ {} → FrameStore.frames next.source ≠ [] := by
    rw [drives.frames]
    exact tells.held
  cases tells.phase with
  | waiting idle paused unjudged count =>
      obtain ⟨rfl, rfl⟩ := drives.resting idle
      exact ⟨history, (List.append_nil _).symm, tells⟩
  | @clear start clear running unjudged count =>
      have attempt : engine.window.attempt = some ⟨history.retried.length, start⟩ := by
        rw [← OpenHistory.attempt_of_clear running]
        exact tells.attempt
      cases drives with
      | plain moves unnoticed =>
          have goesOn := clear.moves moves
          simp only [unended, unnoticed, Bool.false_eq_true, if_false] at goesOn
          exact ⟨history, by simp [Sequencer.marksOfStep, unended, unnoticed], regular,
            .clear goesOn running unjudged count, tells.attempt, held⟩
      | struck moves noticed judges =>
          have goesOn := clear.moves moves
          simp only [unended, noticed, if_true] at goesOn
          have fits := judges.fits conforms.limits regular.few count attempt
          let longer : OpenHistory := { history with running := some (start, some now) }
          have running' : longer.running = some (start, some now) := rfl
          refine ⟨longer, ?_, ⟨regular.numbers, regular.few, regular.retries⟩,
            .struck goesOn rfl rfl fits, judges.attempt, fun _ => held ?_⟩
          · rw [longer.marks_of_running running', history.marks_of_running running]
            simp [longer, AttemptHistory.opening, Sequencer.marksOfStep, unended, noticed]
          · rintro rfl
            cases running
  | struck struck running judged fits =>
      cases drives with
      | plain moves unnoticed =>
          have goesOn := struck.moves moves
          simp only [unended] at goesOn
          exact ⟨history, by simp [Sequencer.marksOfStep, unended, unnoticed], regular,
            .struck goesOn.2 running judged fits, tells.attempt, held⟩
      | struck moves noticed judges =>
          have goesOn := struck.moves moves
          simp [noticed] at goesOn

/-- What is known of an attempt when it ends. -/
inductive Concludes (config : Config) (engine : Engine σ γ) (history : OpenHistory)
    (ending : Ending) : Prop
  | clear {start : Tick}
      (running : history.running = some (start, none))
      (unjammed : ending ≠ .jammed)
  | struck {start noticed : Tick} {verdict : Verdict}
      (running : history.running = some (start, some noticed))
      (unsent : ending ≠ .sent)
      (judged : engine.verdict = some verdict)
      (fits :
        verdict.Fits config history.retried.length start noticed engine.window.collisions)
      (closed : engine.attempt = none)

/-- An attempt that ends leaves an idle sequencer and the mark of its end. -/
theorem Tells.ends {step : SequencerStep} {ending : Ending}
    (tells : engine.Tells config history)
    (drives : Drives now collision engine next step)
    (ended : step.ending = some ending) :
    next.Concludes config history ending ∧ next.sequencer.stage = .idle ∧
      Sequencer.marksOfStep now step = [.ended ending] := by
  have marks (unnoticed : step.collided = false) :
      Sequencer.marksOfStep now step = [.ended ending] := by
    simp [Sequencer.marksOfStep, unnoticed, ended]
  cases tells.phase with
  | waiting idle paused unjudged count =>
      obtain ⟨_, rfl⟩ := drives.resting idle
      cases ended
  | clear clear running unjudged count =>
      cases drives with
      | plain moves unnoticed =>
          have goesOn := clear.moves moves
          simp only [ended] at goesOn
          exact ⟨.clear running goesOn.1, goesOn.2.1, marks unnoticed⟩
      | struck moves noticed judges =>
          have goesOn := clear.moves moves
          simp [ended, noticed] at goesOn
  | struck struck running judged fits =>
      cases drives with
      | plain moves unnoticed =>
          have goesOn := struck.moves moves
          simp only [ended] at goesOn
          have closed := tells.attempt.trans (OpenHistory.attempt_of_struck running)
          exact ⟨.struck running goesOn.2.1 judged fits closed, goesOn.2.2, marks unnoticed⟩
      | struck moves noticed judges =>
          have goesOn := struck.moves moves
          simp [noticed] at goesOn

omit [ByteSource σ] [FrameStore σ] [WordSource γ] in
theorem Concludes.running {ending : Ending}
    (concludes : engine.Concludes config history ending) :
    ∃ start noticed, history.running = some (start, noticed) := by
  cases concludes with
  | clear running unjammed => exact ⟨_, _, running⟩
  | struck running unsent judged fits => exact ⟨_, _, running⟩

omit [ByteSource σ] [FrameStore σ] [WordSource γ] in
/-- An attempt that was sent in full met no collision. -/
theorem Concludes.unnoticed (concludes : engine.Concludes config history .sent) :
    ∃ start, history.running = some (start, none) := by
  cases concludes with
  | clear running unjammed => exact ⟨_, running⟩
  | struck running unsent => exact absurd rfl unsent

omit [ByteSource σ] [FrameStore σ] [WordSource γ] in
/-- A jammed attempt met a collision, and there is a verdict on it. -/
theorem Concludes.judged (concludes : engine.Concludes config history .jammed) :
    ∃ start noticed verdict, history.running = some (start, some noticed) ∧
      engine.verdict = some verdict ∧
        verdict.Fits config history.retried.length start noticed engine.window.collisions ∧
          engine.attempt = none := by
  cases concludes with
  | clear running unjammed => exact absurd rfl unjammed
  | struck running unsent judged fits closed => exact ⟨_, _, _, running, judged, fits, closed⟩

omit [WordSource γ] in
/-- What the engine makes of an attempt that ended fits the history of its frame. -/
theorem Tells.settles {early gap : Tick} {driven : Engine σ γ} {ending : Ending}
    {outcome : Option Outcome}
    (tells : engine.Tells config history)
    (timing : config.Timing early gap)
    (concludes : driven.Concludes config history ending)
    (idle : driven.sequencer.stage = .idle)
    (kept : FrameStore.frames driven.source = FrameStore.frames engine.source)
    (settles : Settles now driven ending next outcome) :
    Progress config history engine next (raised outcome)
      (.ended ending :: (outcome.map .completed).toList) := by
  cases settles with
  | sent =>
      obtain ⟨start, running⟩ := concludes.unnoticed
      exact tells.completes timing running (.ok rfl rfl) idle kept
  | underflow =>
      obtain ⟨start, noticed, running⟩ := concludes.running
      exact tells.completes timing running (.underflow rfl) idle kept
  | retry verdict =>
      obtain ⟨start, noticed, known, running, judged, fits, closed⟩ := concludes.judged
      cases judged.symm.trans verdict
      cases fits with
      | retry ordinary room count =>
          exact tells.retries running ordinary room count closed idle kept
  | giveUp verdict =>
      obtain ⟨start, noticed, known, running, judged, fits, _⟩ := concludes.judged
      cases judged.symm.trans verdict
      cases fits with
      | giveUp ordinary limit =>
          exact tells.completes timing running (.gaveUp rfl rfl ordinary limit) idle kept
  | late verdict =>
      obtain ⟨start, noticed, known, running, judged, fits, _⟩ := concludes.judged
      cases judged.symm.trans verdict
      cases fits with
      | late late => exact tells.completes timing running (.lateCollision rfl rfl late) idle kept
  | unjudged verdict =>
      obtain ⟨start, noticed, known, running, judged, fits, _⟩ := concludes.judged
      cases judged.symm.trans verdict

/-- The attempt in progress makes progress with the history of its frame. -/
theorem Tells.proceeds {early gap : Tick} {signals : Signals} {status : Indicators}
    {marks : List Mark}
    (tells : engine.Tells config history)
    (conforms : engine.Conforms config)
    (timing : config.Timing early gap)
    (proceeds : Proceeds now collision engine next signals status marks) :
    Progress config history engine next status marks := by
  cases proceeds with
  | goesOn drives unended =>
      obtain ⟨longer, told, tells⟩ := tells.drives conforms drives unended
      exact .extended longer told tells (Sequencer.outcomesOf_marksOfStep now _) rfl
        drives.frames
  | settles drives ended settles =>
      obtain ⟨concludes, idle, marked⟩ := tells.ends drives ended
      rw [marked]
      exact tells.settles timing concludes idle drives.frames settles

/-- A new attempt extends the history of its frame. -/
theorem Tells.considers {early gap : Tick} {inputs : Inputs} {ready : Bool}
    {signals shown : Signals} {marks : List Mark}
    (tells : engine.Tells config history)
    (conforms : engine.Conforms config)
    (timing : config.Timing early gap)
    (considers : Considers now inputs ready signals engine next shown marks) :
    (∃ longer : OpenHistory, longer.marks = history.marks ++ marks ∧
      next.Tells config longer) ∧
      outcomesOf marks = [] ∧
        FrameStore.frames next.source = FrameStore.frames engine.source := by
  cases considers with
  | launches poised free drives =>
      obtain ⟨paused, unjudged, count⟩ := tells.idle_waiting poised.1
      let begun : OpenHistory := { history with running := some (now, none) }
      have numbered : engine.window.nextAttempt now = ⟨history.retried.length, now⟩ := by
        rw [CollisionWindow.nextAttempt, count]
      have opened : begun.marks =
          history.marks ++ [.started (engine.window.nextAttempt now).number now] := by
        rw [begun.marks_of_running rfl, history.marks_of_waiting paused, numbered]
        rfl
      have regular : begun.Regular config :=
        ⟨tells.regular.numbers, tells.regular.few, tells.regular.retries⟩
      have phase : (engine.begin now).Phase config begun :=
        .clear ⟨nofun, rfl, nofun⟩ rfl unjudged count
      have attempt : (engine.begin now).attempt = begun.attempt := by
        show some (engine.window.nextAttempt now) = _
        rw [numbered]
        rfl
      have held : FrameStore.frames engine.source ≠ [] :=
        (FrameStore.ready_iff engine.source).mp poised.2.1
      have tellsBegun : (engine.begin now).Tells config begun :=
        ⟨regular, phase, attempt, fun _ => held⟩
      have unended : _ = none :=
        congrArg SequencerStep.ending (conforms.launches timing drives).1
      obtain ⟨longer, told, tellsLonger⟩ :=
        tellsBegun.drives (conforms.begin now) drives unended
      refine ⟨⟨longer, ?_, tellsLonger⟩, ?_, drives.frames⟩
      · rw [told, opened, List.append_assoc, List.singleton_append]
      · simp [Mark.outcome?]
  | holdsOff poised closed =>
      obtain ⟨paused, unjudged, count⟩ := tells.idle_waiting poised.1
      have tellsHeldOff : (engine.heldOff inputs.carrier).Tells config history :=
        ⟨tells.regular, .waiting poised.1 paused unjudged count, tells.attempt, tells.held⟩
      exact ⟨⟨history, (List.append_nil _).symm, tellsHeldOff⟩, rfl, rfl⟩
  | passes unpoised =>
      exact ⟨⟨history, (List.append_nil _).symm, tells⟩, rfl, rfl⟩

/-- A tick makes progress with the history of the frame in flight. -/
theorem Tells.ticks {early gap : Tick} {inputs : Inputs} {outputs : Outputs}
    {marks : List Mark}
    (tells : engine.Tells config history)
    (conforms : engine.Conforms config)
    (timing : config.Timing early gap)
    (ticks : Ticks now inputs engine next outputs marks) :
    Progress config history engine next outputs.status marks := by
  cases ticks with
  | parts proceeds advances considers =>
      have conformsThen := (conforms.proceeds proceeds).deferring advances.spans
      cases tells.proceeds conforms timing proceeds with
      | extended longer told tellsThen incomplete unraised kept =>
          obtain ⟨⟨longest, toldOn, tellsOn⟩, uncompleted, keptOn⟩ :=
            (tellsThen.deferring _).considers conformsThen timing considers
          refine .extended longest ?_ tellsOn ?_ unraised (keptOn.trans kept)
          · rw [toldOn, told, List.append_assoc]
          · rw [outcomesOf_append, incomplete, uncompleted, List.append_nil]
      | completed record fresh front told regular tellsThen complete raised released =>
          obtain ⟨⟨longer, toldOn, tellsOn⟩, uncompleted, keptOn⟩ :=
            (tellsThen.deferring _).considers conformsThen timing considers
          refine .completed record longer front ?_ regular tellsOn ?_ raised ?_
          · rw [toldOn, ← List.append_assoc, told, List.append_assoc]
          · rw [outcomesOf_append, complete, uncompleted, List.append_nil]
          · rw [released, keptOn]
            rfl

end Ticking

end Engine

namespace Run

variable {config : Config} {σ γ : Type} [ByteSource σ] [WordSource γ] [FrameStore σ]
  (run : Run config σ γ)

/-- What a tick does about the frame in front: it leaves it there, or it releases it and
raises the indicator of one outcome. -/
inductive Resolves (count : Nat) : Prop
  | leaves
      (unraised : (run.outputs count).status = {})
      (unmarked : outcomesOf (run.marks count) = [])
      (kept :
        FrameStore.frames (run.engine (count + 1)).source =
          FrameStore.frames (run.entering count).source)
  | releases (outcome : Outcome) (front : List ScriptEntry)
      (raised : (run.outputs count).status = outcome.indicators)
      (marked : outcomesOf (run.marks count) = [outcome])
      (released :
        FrameStore.frames (run.entering count).source =
          front :: FrameStore.frames (run.engine (count + 1)).source)

variable {run} {count : Nat} {history : OpenHistory}

theorem progress
    (appends : FrameStore.Appends (run.supply count))
    (within : count < run.length)
    (tells : (run.engine count).Tells config history) :
    Engine.Progress config history (run.entering count) (run.engine (count + 1))
      (run.outputs count).status (run.marks count) := by
  obtain ⟨early, gap, timing⟩ := run.accepted.timing
  have conforms := (run.conforms (Nat.le_of_lt within)).supplied (run.supply count)
  exact (tells.supplied appends).ticks conforms timing (run.ticks within)

/-- The ticks so far tell the histories of the frames that were completed, and the open
history of the frame in flight. -/
theorem tells
    (appends : ∀ tick, tick < run.length → FrameStore.Appends (run.supply tick))
    (within : count ≤ run.length) :
    ∃ (records : List FrameHistory) (current : OpenHistory),
      run.chronicle count = records.flatMap FrameHistory.marks ++ current.marks ∧
        (∀ record ∈ records, record.Regular config) ∧
          (run.engine count).Tells config current := by
  induction count with
  | zero =>
      obtain ⟨early, gap, timing⟩ := run.accepted.timing
      obtain ⟨_, deferral, sequencer, _, sequencerEqual, engineEqual⟩ :=
        Engine.ofConfig_eq_ok run.setUp
      obtain ⟨plan, _, rfl⟩ := Sequencer.ofConfig_eq_ok sequencerEqual
      refine ⟨[], {}, rfl, nofun, Engine.regular_empty timing, ?_, ?_,
        fun held => absurd rfl held⟩
      · rw [engineEqual]
        exact .waiting rfl rfl rfl rfl
      · rw [engineEqual]
        rfl
  | succ count inductionHypothesis =>
      obtain ⟨records, current, told, regular, tells⟩ :=
        inductionHypothesis (Nat.le_of_succ_le within)
      rw [chronicle_succ, told, List.append_assoc]
      cases progress (appends count within) within tells with
      | extended longer toldOn tellsOn =>
          exact ⟨records, longer, by rw [toldOn], regular, tellsOn⟩
      | completed record fresh front toldOn regularRecord tellsOn =>
          refine ⟨records ++ [record], fresh, ?_, ?_, tellsOn⟩
          · rw [List.flatMap_append, List.flatMap_singleton, List.append_assoc, toldOn]
          · intro tested member
            rcases List.mem_append.mp member with earlier | last
            · exact regular tested earlier
            · rw [List.mem_singleton.mp last]
              exact regularRecord

/-- A tick raises at most one indicator, and raises one exactly when it releases the frame
in front. -/
theorem resolves
    (appends : ∀ tick, tick < run.length → FrameStore.Appends (run.supply tick))
    (within : count < run.length) :
    (run.outputs count).status.count ≤ 1 ∧ run.Resolves count := by
  obtain ⟨_, history, _, _, tellsHistory⟩ := tells appends (Nat.le_of_lt within)
  cases progress (appends count within) within tellsHistory with
  | extended longer told tells incomplete unraised kept =>
      refine ⟨?_, .leaves unraised incomplete kept⟩
      rw [unraised]
      decide
  | completed record fresh front told regular tells complete raised released =>
      refine ⟨?_, .releases record.outcome front raised complete released⟩
      rw [raised]
      cases record.outcome <;> decide

/-- Every frame comes to exactly one outcome.  A tick raises at most one indicator, and
it raises one exactly when it releases the frame in front.  From one outcome to the next
the ticks tell a regular history: the attempts on the frame are numbered without gap,
every attempt but the last was jammed after an ordinary collision, and the last one alone
decides the outcome.  The attempt that the engine itself holds is the one in progress there,
with its number and its start, until a collision is noticed in it. -/
theorem one_outcome_each
    (appends : ∀ tick, tick < run.length → FrameStore.Appends (run.supply tick)) :
    (∀ tick, tick < run.length →
      (run.outputs tick).status.count ≤ 1 ∧ run.Resolves tick) ∧
    ∀ count, count ≤ run.length →
      ∃ (records : List FrameHistory) (current : OpenHistory),
        run.chronicle count = records.flatMap FrameHistory.marks ++ current.marks ∧
          (∀ record ∈ records, record.Regular config) ∧ current.Regular config ∧
            (run.engine count).attempt = current.attempt := by
  constructor
  · exact fun tick within => resolves appends within
  · intro count within
    obtain ⟨records, current, told, regular, tellsCurrent⟩ := tells appends within
    exact ⟨records, current, told, regular, tellsCurrent.regular, tellsCurrent.attempt⟩

/-- One frame is added before the second tick, and its first attempt meets a collision. -/
def retryScenario : Scenario ScriptedSource ZeroWords where
  source := ScriptedSource.empty
  words := {}
  supply count source :=
    FrameStore.offerAll source (if count = 1 then [ScriptedFrame.ofBytes [0xA5]] else [])
  inputs count := { collision := count = 3 }

/-- The run of that scenario up to the outcome of the frame. -/
def retryRun : Run .brief ScriptedSource ZeroWords :=
  (retryScenario.run? .brief 21).get (by decide +kernel)

theorem one_outcome_each_retryRun :
    (∀ tick, tick < retryRun.length → FrameStore.Appends (retryRun.supply tick)) ∧
      retryRun.chronicle 21 =
        [.started 0 2, .noticed 3, .ended .jammed, .started 1 8, .ended .sent,
          .completed .ok] ∧
        (retryRun.engine 9).attempt = some { number := 1, start := 8 } ∧
        (retryRun.outputs 20).status = Outcome.ok.indicators ∧ retryRun.Resolves 20 := by
  have appends : ∀ tick, tick < retryRun.length → FrameStore.Appends (retryRun.supply tick) :=
    fun tick _ => ⟨if tick = 1 then [ScriptedFrame.ofBytes [0xA5]] else [], fun _ => rfl⟩
  have outcome := (one_outcome_each appends).1 20 (by decide +kernel)
  exact ⟨appends, by decide +kernel, by decide +kernel, by decide +kernel, outcome.2⟩

end Run

end HalfDuplex
