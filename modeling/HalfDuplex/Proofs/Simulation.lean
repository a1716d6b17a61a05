import HalfDuplex.Proofs.Observation

/-!
# Engines that go alike

Two engines are compared tick by tick.  Their readings of the timer lie a constant apart, and
their sources may be of different kinds.  If the sources answer alike whenever they are asked,
the engines stay alike: `Engine.tick_shadows` is what a tick adds to that.

A fixed width is the one thing that tells an early reading from a late one.  `Shadows`
therefore lets the second of two computations stop where the first goes on, but only because
a sum does not fit.
-/

namespace HalfDuplex

/-- The second of two computations shadows the first: both have values that are related, or
both stop with the same fault, or the second stops because a sum does not fit. -/
inductive Shadows {α β : Type} (related : α → β → Prop) :
    Except Fault α → Except Fault β → Prop
  | value {a : α} {b : β}
      (values : related a b) :
      Shadows related (.ok a) (.ok b)
  | fault (fault : Fault) :
      Shadows related (.error fault) (.error fault)
  | overflow (result : Except Fault α) :
      Shadows related result (.error .additionOverflow)

namespace Shadows

variable {α β α' β' : Type} {related : α → β → Prop} {relatedNext : α' → β' → Prop}

theorem refl (result : Except Fault α) : Shadows Eq result result := by
  cases result with
  | ok a => exact .value rfl
  | error fault => exact .fault fault

theorem mono {weaker : α → β → Prop} {first : Except Fault α} {second : Except Fault β}
    (weakens : ∀ a b, first = .ok a → related a b → weaker a b)
    (shadows : Shadows related first second) :
    Shadows weaker first second := by
  cases shadows with
  | value values => exact .value (weakens _ _ rfl values)
  | fault fault => exact .fault fault
  | overflow => exact .overflow _

/-- A sequence shadows another if its parts shadow the parts of that. -/
theorem chain {first : Except Fault α} {second : Except Fault β}
    {next : α → Except Fault α'} {nextSecond : β → Except Fault β'}
    (shadows : Shadows related first second)
    (rest : ∀ a b, first = .ok a → related a b → Shadows relatedNext (next a) (nextSecond b)) :
    Shadows relatedNext (first >>= next) (second >>= nextSecond) := by
  cases shadows with
  | value values => exact rest _ _ rfl values
  | fault fault => exact .fault fault
  | overflow => exact .overflow _

theorem map {first : Except Fault α} {second : Except Fault β} {f : α → α'} {g : β → β'}
    (shadows : Shadows related first second)
    (maps : ∀ a b, related a b → relatedNext (f a) (g b)) :
    Shadows relatedNext (first.map f) (second.map g) := by
  cases shadows with
  | value values => exact .value (maps _ _ values)
  | fault fault => exact .fault fault
  | overflow => exact .overflow _

/-- Computations that shadow each other stop in the same way. -/
theorem antisymm {first second : Except Fault α}
    (shadows : Shadows Eq first second)
    (shadowed : Shadows Eq second first) :
    first = second := by
  cases shadows with
  | value values => rw [values]
  | fault => rfl
  | overflow =>
      cases shadowed with
      | fault | overflow => rfl

theorem bind {first : Traced α} {second : Traced β} {next : α → Traced α'}
    {nextSecond : β → Traced β'}
    (shadows : Shadows related first.value second.value)
    (rest : ∀ a b, first.value = .ok a → related a b →
      Shadows relatedNext (next a).value (nextSecond b).value) :
    Shadows relatedNext (first >>= next).value (second >>= nextSecond).value := by
  rw [Traced.value_bind, Traced.value_bind]
  exact shadows.chain rest

/-- What is recorded does not matter. -/
theorem recorded {event other : Event} {next : Traced α} {nextSecond : Traced β}
    (shadows : Shadows related next.value nextSecond.value) :
    Shadows related (Traced.record event >>= fun _ => next).value
      (Traced.record other >>= fun _ => nextSecond).value := by
  have done : Shadows Eq (Traced.record event).value (Traced.record other).value := .value rfl
  exact done.bind fun _ _ _ _ => shadows

/-- A sum of a time that is later by `delay` is later by as much, unless it does not fit. -/
theorem checkedAdd (limit time span delay : Nat) :
    Shadows (fun sum later => later = sum + delay) (checkedAdd limit time span)
      (HalfDuplex.checkedAdd limit (time + delay) span) := by
  unfold HalfDuplex.checkedAdd
  by_cases fitsLater : time + delay + span < limit
  · have fits : time + span < limit := by lia
    rw [if_pos fits, if_pos fitsLater]
    exact .value (by lia)
  · rw [if_neg fitsLater]
    exact .overflow _

end Shadows

/-- Sources of two kinds that stay alike under rewinds and releases. -/
structure Likeness (σ τ : Type) [ByteSource σ] [ByteSource τ] where
  Alike : σ → τ → Prop
  ready : ∀ {source image}, Alike source image →
    ByteSource.ready image = ByteSource.ready source
  rewind : ∀ {source image}, Alike source image →
    Alike (ByteSource.rewind source) (ByteSource.rewind image)
  release : ∀ {source image}, Alike source image →
    Alike (ByteSource.release source) (ByteSource.release image)

variable {σ τ γ : Type}

/-- Asked at `now` and at `later`, two sources answer the same and are alike afterwards. -/
def Likeness.Answers [ByteSource σ] [ByteSource τ] (likeness : Likeness σ τ)
    (now later : Tick) (source : σ) (image : τ) : Prop :=
  Shadows
    (fun left right => ∃ after, likeness.Alike left.1 after ∧ right = (after, left.2))
    (ByteSource.pull source now) (ByteSource.pull image later)

/-! ## The sequencer over sources that are alike -/

namespace Sequencer

variable [ByteSource σ] [ByteSource τ] {likeness : Likeness σ τ} {sequencer : Sequencer}
  {now later : Tick} {source : σ} {image : τ}

/-- What an operation of the sequencer leaves over one source and over another. -/
def Alongside {α : Type} (likeness : Likeness σ τ) (left : Sequencer × σ × α)
    (right : Sequencer × τ × α) : Prop :=
  ∃ after, likeness.Alike left.2.1 after ∧ right = (left.1, after, left.2.2)

/-- An operation that does not touch the source goes on alike. -/
theorem alongside_of_same {α β : Type} {operation : Traced α}
    (left : α → Sequencer × β)
    (alike : likeness.Alike source image) :
    Shadows (Alongside likeness)
      (operation >>= fun a => pure ((left a).1, source, (left a).2)).value
      (operation >>= fun a => pure ((left a).1, image, (left a).2)).value := by
  refine Shadows.bind (Shadows.refl _) ?_
  rintro a _ _ rfl
  exact .value ⟨image, alike, rfl⟩

theorem loadData_shadows
    (answers : likeness.Answers now later source image) :
    Shadows (Alongside likeness) (sequencer.loadData now source).value
      (sequencer.loadData later image).value := by
  refine Shadows.bind answers ?_
  rintro ⟨after, answer⟩ _ - ⟨afterImage, alike, rfl⟩
  rcases answer with (octet | _ | _)
  · cases octet with
    | byte value => exact alongside_of_same (fun taken => (taken, none)) alike
    | poisoned =>
        exact .recorded (alongside_of_same (fun taken => (taken, none)) alike)
  · exact alongside_of_same id alike
  · exact .recorded (.value ⟨afterImage, alike, rfl⟩)

theorem load_shadows
    (alike : likeness.Alike source image)
    (answers : sequencer.Pulling → likeness.Answers now later source image) :
    Shadows (Alongside likeness) (sequencer.load now source).value
      (sequencer.load later image).value := by
  unfold load
  split
  · exact .value ⟨image, alike, rfl⟩
  · rename_i stage
    split
    · exact .value ⟨image, alike, rfl⟩
    · rename_i complete
      exact loadData_shadows (answers (.inr ⟨stage, Nat.le_of_not_lt complete⟩))
  · rename_i stage
    exact loadData_shadows (answers (.inl stage))
  · exact alongside_of_same id alike
  · exact .value ⟨image, alike, rfl⟩
  · exact .value ⟨image, alike, rfl⟩
  · exact .value ⟨image, alike, rfl⟩

theorem abandon_shadows
    (alike : likeness.Alike source image)
    (answers : sequencer.stage = .data → likeness.Answers now later source image) :
    Shadows (Alongside likeness) (sequencer.abandon now source).value
      (sequencer.abandon later image).value := by
  unfold abandon
  simp only
  split
  · rename_i stage
    refine Shadows.bind (answers stage) ?_
    rintro ⟨after, answer⟩ _ - ⟨afterImage, alikeThen, rfl⟩
    by_cases starved : answer = .starved
    · simp only [if_pos starved]
      exact .recorded (.value ⟨afterImage, alikeThen, rfl⟩)
    · simp only [if_neg starved]
      exact alongside_of_same id alikeThen
  · exact alongside_of_same id alike

theorem boundary_shadows
    (alike : likeness.Alike source image)
    (answers : sequencer.Among → likeness.Answers now later source image) :
    Shadows (Alongside likeness) (sequencer.boundary now source).value
      (sequencer.boundary later image).value := by
  unfold boundary
  split
  · exact abandon_shadows alike fun stage => answers (.inl stage)
  · rename_i free
    refine load_shadows alike fun pulling => answers (.inr ⟨?_, pulling⟩)
    simpa [pulling.abortable] using free

theorem stepBoundary_shadows {collision : Bool}
    (alike : likeness.Alike source image)
    (answers : sequencer.Among → likeness.Answers now later source image) :
    Shadows (Alongside likeness) (sequencer.stepBoundary now collision source).value
      (sequencer.stepBoundary later collision image).value := by
  refine Shadows.bind (boundary_shadows alike answers) ?_
  rintro ⟨loaded, after, ending⟩ _ - ⟨afterImage, alikeThen, rfl⟩
  cases ending with
  | some ending => exact .recorded (.value ⟨afterImage, alikeThen, rfl⟩)
  | none => exact alongside_of_same id alikeThen

/-- A tick of the sequencer goes on alike if the sources answer alike when they are asked. -/
theorem step_shadows {collision : Bool}
    (alike : likeness.Alike source image)
    (answers : sequencer.Asks → likeness.Answers now later source image) :
    Shadows (Alongside likeness) (sequencer.step now collision source).value
      (sequencer.step later collision image).value := by
  unfold step
  split
  · exact .value ⟨image, alike, rfl⟩
  · refine Shadows.bind (Shadows.refl _) ?_
    rintro phase _ computed rfl
    split
    · exact alongside_of_same id alike
    · rename_i due
      split
      · exact alongside_of_same id alike
      · rename_i low
        obtain ⟨_, rfl⟩ := checkedMod_eq_ok_iff.mp computed
        exact stepBoundary_shadows alike fun among =>
          answers ⟨Decidable.not_not.mp due, by simpa using low, among⟩

end Sequencer

/-! ## Times that lie apart -/

/-- The state of a deferral timer as it is `delay` ticks later. -/
def DeferralState.later (delay : Tick) : DeferralState → DeferralState
  | .idle => .idle
  | .early since => .early (since + delay)
  | .late since => .late (since + delay)
  | .ready => .ready

namespace Deferral

variable (timer : Deferral) (delay now : Tick) (carrier : Bool)

/-- The timer as it is `delay` ticks later. -/
def later : Deferral :=
  timer.moved (timer.state.later delay)

theorem later_zero : timer.later 0 = timer := by
  obtain ⟨earlyTicks, gapTicks, state⟩ := timer
  cases state <;> rfl

/-- What a tick of the deferral timer leaves, and what it leaves `delay` ticks later. -/
def Alongside (left right : Deferral × Bool) : Prop :=
  right = (left.1.later delay, left.2)

theorem restart_shadows :
    Shadows (fun left right => right = left.later delay) (timer.restart now)
      ((timer.later delay).restart (now + delay)) := by
  refine Shadows.chain (.checkedAdd wideLimit now 1 delay) ?_
  rintro since _ - rfl
  exact .value rfl

theorem tickQuiet_shadows :
    Shadows (Alongside delay) (timer.tickQuiet now carrier).value
      ((timer.later delay).tickQuiet (now + delay) carrier).value := by
  unfold tickQuiet
  split
  · refine .recorded (Shadows.bind (timer.restart_shadows delay now) ?_)
    rintro restarted _ - rfl
    exact .value rfl
  · exact .value rfl

theorem tickLate_shadows (since : Tick) :
    Shadows (Alongside delay) (timer.tickLate since now).value
      ((timer.later delay).tickLate (since + delay) (now + delay)).value := by
  refine Shadows.bind (.checkedAdd wideLimit since timer.gapTicks delay) ?_
  rintro due _ - rfl
  simp only [Nat.add_le_add_iff_right]
  split
  · exact .recorded (.value rfl)
  · exact .value rfl

theorem tickEarly_shadows (since : Tick) :
    Shadows (Alongside delay) (timer.tickEarly since now carrier).value
      ((timer.later delay).tickEarly (since + delay) (now + delay) carrier).value := by
  refine Shadows.bind (.checkedAdd wideLimit since timer.earlyTicks delay) ?_
  rintro due _ - rfl
  simp only [Nat.add_le_add_iff_right]
  split
  · exact .recorded (timer.tickLate_shadows delay now since)
  · split
    · refine Shadows.bind (timer.restart_shadows delay now) ?_
      rintro restarted _ - rfl
      exact .value rfl
    · exact .value rfl

/-- A tick of the deferral timer is the same `delay` ticks later. -/
theorem tick_shadows :
    Shadows (Alongside delay) (timer.tick now carrier).value
      ((timer.later delay).tick (now + delay) carrier).value := by
  unfold tick
  cases state : timer.state with
  | idle =>
      have shadows := timer.tickQuiet_shadows delay now carrier
      simpa only [later, moved, state, DeferralState.later] using shadows
  | ready =>
      have shadows := timer.tickQuiet_shadows delay now carrier
      simpa only [later, moved, state, DeferralState.later] using shadows
  | early since =>
      have shadows := timer.tickEarly_shadows delay now carrier since
      simpa only [later, moved, state, DeferralState.later] using shadows
  | late since =>
      have shadows := timer.tickLate_shadows delay now since
      simpa only [later, moved, state, DeferralState.later] using shadows

end Deferral

def Attempt.later (delay : Tick) (attempt : Attempt) : Attempt :=
  { attempt with start := attempt.start + delay }

namespace CollisionWindow

/-- The window as it is `delay` ticks later. -/
def later (window : CollisionWindow γ) (delay : Tick) : CollisionWindow γ :=
  { window with attempt := window.attempt.map (Attempt.later delay) }

theorem elapsed_later (window : CollisionWindow γ) (delay now : Tick) :
    (window.later delay).elapsed (now + delay) = window.elapsed now := by
  unfold elapsed later
  cases window.attempt with
  | none => rfl
  | some attempt => exact Nat.add_sub_add_right now delay attempt.start

theorem later_closed {window : CollisionWindow γ} (delay : Tick)
    (unattempted : window.attempt = none) :
    window.later delay = window := by
  cases window
  cases unattempted
  rfl

variable [WordSource γ]

theorem collide_later (window : CollisionWindow γ) (delay now : Tick) :
    (window.later delay).collide (now + delay) = window.collide now := by
  unfold collide classify
  rw [elapsed_later]
  rfl

/-- A collision is judged the same `delay` ticks later. -/
theorem collide_shadows (window : CollisionWindow γ) (delay now : Tick) :
    Shadows (fun left right => right = (left.1.later delay, left.2))
      (window.collide now).value ((window.later delay).collide (now + delay)).value := by
  rw [collide_later]
  refine (Shadows.refl _).mono ?_
  rintro ⟨next, verdict⟩ _ judged rfl
  have judges := (collide_yields (Traced.yields_of_value judged)).1
  have closed : next.attempt = none := by cases judges <;> rfl
  rw [later_closed delay closed]

end CollisionWindow

/-! ## The engine `delay` ticks later over a source that is alike -/

namespace Engine

/-- The engine as it is `delay` ticks later, over another source. -/
def later (engine : Engine σ γ) (delay : Tick) (image : τ) : Engine τ γ :=
  { engine with
    source := image
    deferral := engine.deferral.later delay
    window := engine.window.later delay
    backoffUntil := engine.backoffUntil.map (· + delay) }

theorem later_backoffDone (engine : Engine σ γ) (delay now : Tick) (image : τ) :
    (engine.later delay image).backoffDone (now + delay) = engine.backoffDone now := by
  unfold backoffDone later
  cases engine.backoffUntil with
  | none => rfl
  | some due => simp

variable [ByteSource σ] [ByteSource τ] {likeness : Likeness σ τ} {engine : Engine σ γ}
  {now : Tick} {image : τ} {config : Config} {early gap : Tick}

/-- What an operation of the engine leaves, and what it leaves `delay` ticks later. -/
def Alongside {α : Type} (likeness : Likeness σ τ) (delay : Tick) (left : Engine σ γ × α)
    (right : Engine τ γ × α) : Prop :=
  ∃ after, likeness.Alike left.1.source after ∧ right = (left.1.later delay after, left.2)

variable (delay : Tick)

theorem finish_shadows
    (alike : likeness.Alike engine.source image)
    (outcome : Outcome) :
    Shadows (Alongside likeness delay) (engine.finish now outcome).value
      ((engine.later delay image).finish (now + delay) outcome).value :=
  .recorded (.value ⟨ByteSource.release image, likeness.release alike, rfl⟩)

theorem settle_shadows
    (alike : likeness.Alike engine.source image)
    (ending : Ending) :
    Shadows (Alongside likeness delay) (engine.settle now ending).value
      ((engine.later delay image).settle (now + delay) ending).value := by
  cases ending with
  | sent => exact finish_shadows delay alike .ok
  | underflow => exact finish_shadows delay alike .underflow
  | jammed =>
      have kept : (engine.later delay image).verdict = engine.verdict := rfl
      unfold settle
      rw [kept]
      cases verdict : engine.verdict with
      | none => exact .recorded (.value ⟨ByteSource.rewind image, likeness.rewind alike, rfl⟩)
      | some judged =>
          cases judged with
          | retry slots span =>
              refine .bind (.checkedAdd wideLimit now span delay) ?_
              rintro due _ - rfl
              exact .recorded (.value ⟨ByteSource.rewind image, likeness.rewind alike, rfl⟩)
          | giveUp =>
              have alikeCounted : likeness.Alike engine.counted.source image := alike
              exact finish_shadows delay alikeCounted .gaveUp
          | late => exact finish_shadows delay alike .lateCollision

variable [WordSource γ] {collision : Bool}

theorem drive_shadows
    (alike : likeness.Alike engine.source image)
    (answers : engine.sequencer.Asks →
      likeness.Answers now (now + delay) engine.source image) :
    Shadows (Alongside likeness delay) (engine.drive now collision).value
      ((engine.later delay image).drive (now + delay) collision).value := by
  refine .bind (Sequencer.step_shadows alike answers) ?_
  rintro ⟨sequencer, source, step⟩ _ - ⟨after, alikeThen, rfl⟩
  simp only
  split
  · refine .bind (engine.window.collide_shadows delay now) ?_
    rintro ⟨window, verdict⟩ _ - rfl
    exact .value ⟨after, alikeThen, rfl⟩
  · exact .value ⟨after, alikeThen, rfl⟩

theorem proceed_shadows
    (alike : likeness.Alike engine.source image)
    (answers : engine.sequencer.Asks →
      likeness.Answers now (now + delay) engine.source image) :
    Shadows (Alongside likeness delay) (engine.proceed now collision).value
      ((engine.later delay image).proceed (now + delay) collision).value := by
  refine .bind (drive_shadows delay alike answers) ?_
  rintro ⟨driven, step⟩ _ - ⟨after, alikeThen, rfl⟩
  simp only
  cases step.ending with
  | none => exact .value ⟨after, alikeThen, rfl⟩
  | some ending =>
      refine .bind (settle_shadows delay alikeThen ending) ?_
      rintro ⟨settled, outcome⟩ _ - ⟨last, alikeLast, rfl⟩
      cases outcome with
      | none => exact .value ⟨last, alikeLast, rfl⟩
      | some outcome => exact .value ⟨last, alikeLast, rfl⟩

/-- An attempt begins with its preamble, for which the source is not asked. -/
theorem launch_shadows
    (alike : likeness.Alike engine.source image)
    (conforms : engine.Conforms config)
    (timing : config.Timing early gap) :
    Shadows (Alongside likeness delay) (engine.launch now collision).value
      ((engine.later delay image).launch (now + delay) collision).value := by
  have preamble : 0 < engine.sequencer.start.plan.preambleBytes := by
    show 0 < engine.sequencer.plan.preambleBytes
    rw [conforms.preambleBytes]
    exact timing.preambleBytes_pos
  have silent : ¬ (engine.begin now).sequencer.Asks := by
    have notData : (engine.begin now).sequencer.stage ≠ .data := nofun
    exact fun asks => Sequencer.not_among notData (Sequencer.not_pulling rfl preamble) asks.among
  have drives : Shadows (Alongside likeness delay) ((engine.begin now).drive now collision).value
      (((engine.begin now).later delay image).drive (now + delay) collision).value :=
    drive_shadows delay alike fun asks => absurd asks silent
  refine .recorded (.bind drives ?_)
  rintro ⟨driven, step⟩ _ - ⟨after, alikeThen, rfl⟩
  exact .value ⟨after, alikeThen, rfl⟩

theorem consider_shadows {inputs : Inputs} {ready : Bool} {signals : Signals}
    (alike : likeness.Alike engine.source image)
    (conforms : engine.Conforms config)
    (timing : config.Timing early gap) :
    Shadows (Alongside likeness delay) (engine.consider now inputs ready signals).value
      ((engine.later delay image).consider (now + delay) inputs ready signals).value := by
  have readyEqual : ByteSource.ready (engine.later delay image).source =
      ByteSource.ready engine.source :=
    likeness.ready alike
  have active : (engine.later delay image).sequencer.active = engine.sequencer.active := rfl
  unfold consider
  rw [readyEqual, active, later_backoffDone]
  split
  · split
    · exact launch_shadows delay alike conforms timing
    · exact .value ⟨image, alike, rfl⟩
  · exact .value ⟨image, alike, rfl⟩

/-- A tick is the same `delay` ticks later over a source that is alike, if the two sources
answer alike when they are asked. -/
theorem tick_shadows {inputs : Inputs}
    (alike : likeness.Alike engine.source image)
    (conforms : engine.Conforms config)
    (timing : config.Timing early gap)
    (answers : engine.sequencer.Asks →
      likeness.Answers now (now + delay) engine.source image) :
    Shadows (Alongside likeness delay) (engine.tick now inputs).value
      ((engine.later delay image).tick (now + delay) inputs).value := by
  refine .bind (proceed_shadows delay alike answers) ?_
  rintro ⟨proceeded, signals, status⟩ _ computed ⟨after, alikeThen, rfl⟩
  have proceeds := proceed_yields (Traced.yields_of_value computed)
  have conformsThen := conforms.proceeds proceeds
  refine .bind (proceeded.deferral.tick_shadows delay now _) ?_
  rintro ⟨deferral, ready⟩ _ advanced rfl
  have advances := (Deferral.tick_yields (Traced.yields_of_value advanced)).1
  have alikeDeferring : likeness.Alike (proceeded.deferring deferral).source after := alikeThen
  have conformsDeferring := conformsThen.deferring advances.spans
  refine .bind (consider_shadows delay alikeDeferring conformsDeferring timing) ?_
  rintro ⟨considered, shown⟩ _ - ⟨last, alikeLast, rfl⟩
  exact .value ⟨last, alikeLast, rfl⟩

end Engine

end HalfDuplex
