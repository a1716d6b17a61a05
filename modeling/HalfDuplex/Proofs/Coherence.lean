import HalfDuplex.Proofs.Backoff
import HalfDuplex.Proofs.Delivery

/-!
# Components in step

Sequencer, verdict, collision window, backoff and source are separate pieces of state, and
each of them is changed by events of another.  `Engine.Coherent` says how they hang together
between two ticks: no attempt is in progress, or one in which no collision was noticed, or
one with a verdict on its collision.  None of these three is kept by every part of a tick on
its own; only together they are.

The readings of the timer are arbitrary.  A tick may end an attempt and start the next one.
-/

namespace HalfDuplex

/-- A frame store that may remember the time of its last pull. -/
class PullClock (σ : Type) [ByteSource σ] [FrameStore σ] where
  lastPull : σ → Option Tick
  lastPull_offer : ∀ source item, lastPull (FrameStore.offer source item) = lastPull source
  lastPull_rewind : ∀ source, lastPull (ByteSource.rewind source) = none
  lastPull_release : ∀ source, lastPull (ByteSource.release source) = none

/-- A queue has no use for the time. -/
instance {capacity : Nat} : PullClock (FrameQueue capacity) where
  lastPull _ := none
  lastPull_offer _ _ := rfl
  lastPull_rewind _ := rfl
  lastPull_release _ := rfl

instance : PullClock ScriptedSource where
  lastPull source := source.last
  lastPull_offer _ _ := rfl
  lastPull_rewind _ := rfl
  lastPull_release _ := rfl

namespace FrameStore

variable {σ : Type} [ByteSource σ] [FrameStore σ] [PullClock σ]

/-- The source stands at the beginning of a frame, and remembers no pull. -/
structure Unread (source : σ) : Prop where
  cursor : FrameStore.cursor source = 0
  lastPull : PullClock.lastPull source = none

theorem lastPull_offerAll (source : σ) (items : List (Item σ)) :
    PullClock.lastPull (offerAll source items) = PullClock.lastPull source := by
  induction items generalizing source with
  | nil => rfl
  | cons item items inductionHypothesis =>
      exact (inductionHypothesis (offer source item)).trans
        (PullClock.lastPull_offer source item)

theorem Unread.appends {source : σ} {change : σ → σ}
    (unread : Unread source)
    (appends : Appends change) :
    Unread (change source) := by
  have cursor := (appends.cursor source).trans unread.cursor
  obtain ⟨items, offers⟩ := appends
  refine ⟨cursor, ?_⟩
  rw [offers, lastPull_offerAll, unread.lastPull]

end FrameStore

namespace Sequencer

/-- A collision is pending only where it can abort the attempt. -/
def Tidy (sequencer : Sequencer) : Prop :=
  sequencer.aborting = true → sequencer.stage.abortable = true

variable {sequencer next : Sequencer} {collision : Bool}

theorem Tidy.calm
    (tidy : sequencer.Tidy)
    (unabortable : sequencer.stage.abortable = false) :
    sequencer.aborting = false := by
  cases aborting : sequencer.aborting with
  | false => rfl
  | true => cases unabortable.symm.trans (tidy aborting)

theorem tidy_of_calm (calm : sequencer.aborting = false) : sequencer.Tidy := by
  intro aborting
  cases calm.symm.trans aborting

theorem Tidy.sampled (tidy : sequencer.Tidy) : (sequencer.sampled collision).Tidy := by
  intro aborting
  rcases Bool.or_eq_true_iff.mp aborting with pending | noticed
  · exact tidy pending
  · simp only [notices, Bool.and_eq_true] at noticed
    exact noticed.2

theorem Tidy.driving (tidy : sequencer.Tidy) : sequencer.driving.Tidy := by
  intro aborting
  have abortable := tidy aborting
  rw [driving_stage (abortable_unjammed abortable)]
  exact abortable

variable {σ : Type} [ByteSource σ] {now : Tick} {source after : σ} {step : SequencerStep}

/-- Every byte boundary disposes of the collision that is pending. -/
theorem Tidy.boundary {ending : Option Ending}
    (tidy : sequencer.Tidy)
    (boundary : Boundary now sequencer source next after ending) :
    next.aborting = false := by
  cases boundary with
  | preamble stage missing calm => exact calm
  | octet pulling pulled calm => exact calm
  | starved pulling pulled calm => exact calm
  | pad exhausted short calm => exact calm
  | firstCheck exhausted full place calm => exact calm
  | check stage place calm => exact calm
  | sent stage complete calm => exact calm
  | marked stage => exact tidy.calm (by rw [stage]; rfl)
  | jamming stage => exact tidy.calm (by rw [stage]; rfl)
  | jamOver stage => exact tidy.calm (by rw [stage]; rfl)
  | abandoned | abandonedStarved => rfl

theorem Tidy.moves
    (tidy : sequencer.Tidy)
    (moves : Moves now collision sequencer source next after step) :
    next.Tidy := by
  cases moves with
  | rests => exact tidy
  | holds =>
      have held : sequencer.holding.Tidy := tidy
      exact held.sampled
  | continues => exact tidy.driving.sampled
  | begins active due low boundary =>
      exact (tidy_of_calm (tidy.boundary boundary)).driving.sampled
  | ends active due low boundary =>
      have calm := tidy.boundary boundary
      exact tidy_of_calm calm

end Sequencer

/-- The number of collisions that a frame has met when a verdict is given. -/
def Verdict.Counts (config : Config) (collisions : Nat) : Verdict → Prop
  | .retry _ _ => 0 < collisions ∧ collisions < config.maxCollisions.toNat
  | .giveUp => collisions = config.maxCollisions.toNat
  | .late => collisions < config.maxCollisions.toNat

/-- Below the limit of a configuration no collision is lost to the bound of the counter. -/
theorem CollisionWindow.counted_eq {γ : Type} {config : Config} {window : CollisionWindow γ}
    (few : window.collisions < config.maxCollisions.toNat) :
    window.counted = window.collisions + 1 := by
  have narrow : config.maxCollisions.toNat < 2 ^ 8 := config.maxCollisions.toNat_lt
  unfold counted saturatingSucc collisionLimit
  omega

/-- A verdict counts the collision that it is on, unless that is a late one. -/
theorem CollisionWindow.Judges.counts {γ : Type} [WordSource γ] {config : Config}
    {now : Tick} {window next : CollisionWindow γ} {verdict : Verdict}
    (judges : Judges now window next verdict)
    (limits : window.limits = CollisionLimits.ofConfig config)
    (few : window.collisions < config.maxCollisions.toNat) :
    next.attempt = none ∧ verdict.Counts config next.collisions := by
  have maxCollisions : window.limits.maxCollisions = config.maxCollisions.toNat := by
    rw [limits]
    rfl
  have counted := CollisionWindow.counted_eq few
  cases judges with
  | late outside => exact ⟨rfl, few⟩
  | giveUp inside tooMany =>
      rw [maxCollisions] at tooMany
      refine ⟨rfl, ?_⟩
      show window.counted = config.maxCollisions.toNat
      omega
  | retry inside room =>
      rw [maxCollisions] at room
      refine ⟨rfl, ?_⟩
      show 0 < window.counted ∧ window.counted < config.maxCollisions.toNat
      omega

namespace Engine

variable {σ γ : Type} [ByteSource σ] [FrameStore σ] [PullClock σ] {config : Config}
  {engine next : Engine σ γ} {now early gap : Tick} {collision : Bool} {inputs : Inputs}

/-- How the components of the engine hang together. -/
inductive Coherent (config : Config) (engine : Engine σ γ) : Prop
  | idle
      (idle : engine.sequencer.stage = .idle)
      (unattempted : engine.window.attempt = none)
      (unjudged : engine.verdict = none)
      (unread : FrameStore.Unread engine.source)
      (backoff : engine.backoffUntil.isSome = true ↔ 0 < engine.window.collisions)
      (few : engine.window.collisions < config.maxCollisions.toNat)
  | clear
      (clear : engine.sequencer.Clear)
      (attempted : engine.window.attempt.isSome = true)
      (unjudged : engine.verdict = none)
      (unset : engine.backoffUntil = none)
      (few : engine.window.collisions < config.maxCollisions.toNat)
  | struck {verdict : Verdict}
      (struck : engine.sequencer.Struck)
      (unattempted : engine.window.attempt = none)
      (judged : engine.verdict = some verdict)
      (unset : engine.backoffUntil = none)
      (counts : verdict.Counts config engine.window.collisions)

/-- What is left of the components when an attempt has ended. -/
inductive Rests (config : Config) (engine : Engine σ γ) : Ending → Prop
  | clear {ending : Ending}
      (unjammed : ending ≠ .jammed) :
      Rests config engine ending
  | struck {ending : Ending} {verdict : Verdict}
      (unsent : ending ≠ .sent)
      (unattempted : engine.window.attempt = none)
      (judged : engine.verdict = some verdict)
      (counts : verdict.Counts config engine.window.collisions) :
      Rests config engine ending

omit [ByteSource σ] [FrameStore σ] [PullClock σ] in
theorem busy_of_active (active : engine.sequencer.stage ≠ .idle) : engine.busy = true := by
  simp [busy, Sequencer.active, Stage.active, active]

omit [ByteSource σ] [FrameStore σ] [PullClock σ] in
/-- A jam is over only where there is a verdict. -/
theorem Rests.judged (rests : engine.Rests config .jammed) : engine.verdict ≠ none := by
  cases rests with
  | clear unjammed => exact absurd rfl unjammed
  | struck unsent unattempted judged counts => simp [judged]

theorem Coherent.supplied {change : σ → σ}
    (coherent : engine.Coherent config)
    (appends : FrameStore.Appends change) :
    (engine.supplied change).Coherent config := by
  cases coherent with
  | idle idle unattempted unjudged unread backoff few =>
      exact .idle idle unattempted unjudged (unread.appends appends) backoff few
  | clear clear attempted unjudged unset few => exact .clear clear attempted unjudged unset few
  | struck struck unattempted judged unset counts =>
      exact .struck struck unattempted judged unset counts

theorem Coherent.deferring
    (coherent : engine.Coherent config)
    (deferral : Deferral) :
    (engine.deferring deferral).Coherent config := by
  cases coherent with
  | idle idle unattempted unjudged unread backoff few =>
      exact .idle idle unattempted unjudged unread backoff few
  | clear clear attempted unjudged unset few => exact .clear clear attempted unjudged unset few
  | struck struck unattempted judged unset counts =>
      exact .struck struck unattempted judged unset counts

theorem Coherent.unjudged_of_idle
    (coherent : engine.Coherent config)
    (idle : engine.sequencer.stage = .idle) :
    engine.verdict = none ∧ engine.window.collisions < config.maxCollisions.toNat := by
  cases coherent with
  | idle _ _ unjudged _ _ few => exact ⟨unjudged, few⟩
  | clear clear => exact absurd idle clear.active
  | struck struck => exact absurd idle struck.active

/-- A frame that came to its outcome leaves nothing behind. -/
theorem coherent_finished
    (timing : config.Timing early gap)
    (idle : engine.sequencer.stage = .idle)
    (outcome : Outcome) :
    (engine.finished outcome).Coherent config ∧ (engine.finished outcome).busy = false := by
  have unread : FrameStore.Unread (engine.finished outcome).source :=
    ⟨FrameStore.cursor_release _, PullClock.lastPull_release _⟩
  refine ⟨.idle idle rfl rfl unread ?_ timing.maxCollisions_pos, ?_⟩
  · show (none : Option Tick).isSome = true ↔ 0 < 0
    simp
  · simp [busy, Sequencer.active, Stage.active, idle, finished, CollisionWindow.reset]

/-- Settling an attempt that ended leaves the frame in flight exactly when it has no
outcome. -/
theorem Rests.settles {ending : Ending} {outcome : Option Outcome}
    (rests : engine.Rests config ending)
    (timing : config.Timing early gap)
    (idle : engine.sequencer.stage = .idle)
    (settles : Settles now engine ending next outcome) :
    next.Coherent config ∧ (next.busy = true ↔ raised outcome = {}) := by
  have finishes (finishing : Engine σ γ) (outcome : Outcome)
      (idleThen : finishing.sequencer.stage = .idle) :
      (finishing.finished outcome).Coherent config ∧
        ((finishing.finished outcome).busy = true ↔ raised (some outcome) = {}) := by
    obtain ⟨coherent, free⟩ := coherent_finished timing idleThen outcome
    refine ⟨coherent, ?_⟩
    rw [free]
    exact iff_of_false Bool.false_ne_true outcome.indicators_ne
  cases settles with
  | sent => exact finishes engine .ok idle
  | underflow => exact finishes engine .underflow idle
  | giveUp verdict => exact finishes engine.counted .gaveUp idle
  | late verdict => exact finishes engine .lateCollision idle
  | unjudged verdict => exact absurd verdict rests.judged
  | @retry slots delay verdict =>
      cases rests with
      | clear unjammed => exact absurd rfl unjammed
      | struck unsent unattempted judged counts =>
          cases judged.symm.trans verdict
          have unread : FrameStore.Unread (engine.backingOff (now + delay)).source :=
            ⟨FrameStore.cursor_rewind _, PullClock.lastPull_rewind _⟩
          have backoff : (engine.backingOff (now + delay)).backoffUntil.isSome = true ↔
              0 < engine.window.collisions :=
            iff_of_true rfl counts.1
          have waits : (engine.backingOff (now + delay)).busy = true := by
            simp [busy, backingOff]
          exact ⟨.idle idle unattempted rfl unread backoff counts.2, iff_of_true waits rfl⟩

section Ticking

variable [WordSource γ] {signals shown : Signals} {status : Indicators} {marks : List Mark}
  {step : SequencerStep} {ready : Bool}

/-- A tick of the sequencer that does not end the attempt keeps the components in step. -/
theorem Coherent.drives
    (coherent : engine.Coherent config)
    (conforms : engine.Conforms config)
    (drives : Drives now collision engine next step)
    (unended : step.ending = none) :
    next.Coherent config := by
  cases coherent with
  | idle idle unattempted unjudged unread backoff few =>
      obtain ⟨rfl, rfl⟩ := drives.resting idle
      exact .idle idle unattempted unjudged unread backoff few
  | clear clear attempted unjudged unset few =>
      cases drives with
      | plain moves unnoticed =>
          have goesOn := clear.moves moves
          simp only [unended, unnoticed, Bool.false_eq_true, if_false] at goesOn
          exact .clear goesOn attempted unjudged unset few
      | struck moves noticed judges =>
          have goesOn := clear.moves moves
          simp only [unended, noticed, if_true] at goesOn
          obtain ⟨unattempted, counts⟩ := judges.counts conforms.limits few
          exact .struck goesOn unattempted rfl unset counts
  | struck struck unattempted judged unset counts =>
      cases drives with
      | plain moves unnoticed =>
          have goesOn := struck.moves moves
          simp only [unended] at goesOn
          exact .struck goesOn.2 unattempted judged unset counts
      | struck moves noticed judges =>
          have goesOn := struck.moves moves
          simp [noticed] at goesOn

theorem Coherent.ends {ending : Ending}
    (coherent : engine.Coherent config)
    (drives : Drives now collision engine next step)
    (ended : step.ending = some ending) :
    engine.sequencer.stage ≠ .idle ∧ next.Rests config ending := by
  have unnoticed := (drives.moves.ended_idle ended).2.2
  cases coherent with
  | idle idle =>
      obtain ⟨_, rfl⟩ := drives.resting idle
      cases ended
  | clear clear =>
      have goesOn := clear.moves drives.moves
      simp only [ended] at goesOn
      exact ⟨clear.active, .clear goesOn.1⟩
  | struck struck unattempted judged unset counts =>
      have goesOn := struck.moves drives.moves
      simp only [ended] at goesOn
      cases drives with
      | plain moves => exact ⟨struck.active, .struck goesOn.2.1 unattempted judged counts⟩
      | struck moves noticed => cases unnoticed.symm.trans noticed

/-- The frame in flight stays in the hands of the engine as long as it has no outcome. -/
theorem Coherent.proceeds
    (coherent : engine.Coherent config)
    (conforms : engine.Conforms config)
    (timing : config.Timing early gap)
    (proceeds : Proceeds now collision engine next signals status marks) :
    next.Coherent config ∧ (next.busy = true ↔ engine.busy = true ∧ status = {}) := by
  cases proceeds with
  | goesOn drives unended =>
      refine ⟨coherent.drives conforms drives unended, ?_⟩
      by_cases idle : engine.sequencer.stage = .idle
      · obtain ⟨rfl, _⟩ := drives.resting idle
        exact (and_iff_left rfl).symm
      · have busyNext := busy_of_active (drives.moves.active idle unended)
        exact iff_of_true busyNext ⟨busy_of_active idle, rfl⟩
  | settles drives ended settles =>
      obtain ⟨active, rests⟩ := coherent.ends drives ended
      have idle := (drives.moves.ended_idle ended).1
      obtain ⟨coherentNext, busyNext⟩ := rests.settles timing idle settles
      refine ⟨coherentNext, busyNext.trans ?_⟩
      exact (and_iff_right (busy_of_active active)).symm

/-- An attempt that starts takes the frame in front into the hands of the engine. -/
theorem Coherent.considers
    (coherent : engine.Coherent config)
    (conforms : engine.Conforms config)
    (timing : config.Timing early gap)
    (considers : Considers now inputs ready signals engine next shown marks) :
    next.Coherent config ∧ (next.busy = true ↔ engine.busy = true ∨ HasStart marks) := by
  cases considers with
  | launches poised free drives =>
      obtain ⟨unjudged, few⟩ := coherent.unjudged_of_idle poised.1
      have begun : (engine.begin now).Coherent config :=
        .clear ⟨nofun, rfl, nofun⟩ rfl unjudged rfl few
      have unended : _ = none :=
        congrArg SequencerStep.ending (conforms.launches timing drives).1
      have active : (engine.begin now).sequencer.stage ≠ .idle := nofun
      have busyNext := busy_of_active (drives.moves.active active unended)
      exact ⟨begun.drives (conforms.begin now) drives unended,
        iff_of_true busyNext (.inr (hasStart_started _ _ _))⟩
  | holdsOff poised closed =>
      refine ⟨?_, (or_iff_left not_hasStart_nil).symm⟩
      cases coherent with
      | idle idle unattempted unjudged unread backoff few =>
          exact .idle idle unattempted unjudged unread backoff few
      | clear clear => exact absurd poised.1 clear.active
      | struck struck => exact absurd poised.1 struck.active
  | passes unpoised => exact ⟨coherent, (or_iff_left not_hasStart_nil).symm⟩

theorem Coherent.ticks {outputs : Outputs}
    (coherent : engine.Coherent config)
    (conforms : engine.Conforms config)
    (timing : config.Timing early gap)
    (ticks : Ticks now inputs engine next outputs marks) :
    next.Coherent config ∧
      (next.busy = true ↔ engine.busy = true ∧ outputs.status = {} ∨ HasStart marks) := by
  cases ticks with
  | parts proceeds advances considers =>
      have conformsThen := (conforms.proceeds proceeds).deferring advances.spans
      have unstarted := proceeds.unstarted
      obtain ⟨coherentThen, busyThen⟩ := coherent.proceeds conforms timing proceeds
      obtain ⟨coherentNext, busyNext⟩ :=
        (coherentThen.deferring _).considers conformsThen timing considers
      refine ⟨coherentNext, busyNext.trans ?_⟩
      rw [hasStart_append, or_iff_right unstarted]
      exact or_congr_left busyThen

omit [FrameStore σ] [PullClock σ] in
theorem tidy_ticks {outputs : Outputs}
    (tidy : engine.sequencer.Tidy)
    (ticks : Ticks now inputs engine next outputs marks) :
    next.sequencer.Tidy := by
  cases ticks with
  | @parts proceeded _ _ _ _ _ _ deferral _ proceeds advances considers =>
      have tidyThen : proceeded.sequencer.Tidy := by
        cases proceeds with
        | goesOn drives unended => exact tidy.moves drives.moves
        | settles drives ended settles =>
            rw [settles.keeps.1]
            exact tidy.moves drives.moves
      cases considers with
      | launches poised free drives =>
          have begun : ((proceeded.deferring deferral).begin now).sequencer.Tidy := nofun
          exact begun.moves drives.moves
      | holdsOff | passes => exact tidyThen

end Ticking

/-- The components of the engine agree on where it stands. -/
structure InStep (config : Config) (engine : Engine σ γ) : Prop where
  /-- There is an attempt while one is in progress without a verdict on a collision. -/
  attempt : engine.attempt.isSome = true ↔
    engine.sequencer.active = true ∧ engine.verdict = none
  /-- Where a collision is pending or jammed, there is a verdict on it. -/
  verdict : engine.sequencer.aborting = true ∨ (∃ remaining, engine.stage = .jam remaining) →
    engine.verdict ≠ none
  /-- Without an attempt in progress nothing is left of one. -/
  idle : engine.sequencer.active = false →
    engine.verdict = none ∧ FrameStore.Unread engine.source
  /-- A backoff runs between two attempts on a frame. -/
  backoff : engine.backoffUntil.isSome = true ↔
    engine.sequencer.active = false ∧ 0 < engine.collisions
  /-- The collisions stay below their limit until the frame is given up. -/
  collisions :
    if engine.verdict = some .giveUp then engine.collisions = config.maxCollisions.toNat
    else engine.collisions < config.maxCollisions.toNat

theorem Coherent.inStep
    (coherent : engine.Coherent config)
    (tidy : engine.sequencer.Tidy) :
    engine.InStep config := by
  have active_iff : engine.sequencer.active = true ↔ engine.sequencer.stage ≠ .idle := by
    simp [Sequencer.active, Stage.active]
  cases coherent with
  | idle idle unattempted unjudged unread backoff few =>
      have inactive : engine.sequencer.active = false := active_eq_false_iff.mpr idle
      have calm : engine.sequencer.aborting = false := tidy.calm (by rw [idle]; rfl)
      exact {
        attempt := by simp [Engine.attempt, unattempted, inactive]
        verdict := by
          rintro (aborting | ⟨remaining, jam⟩)
          · cases calm.symm.trans aborting
          · cases idle.symm.trans jam
        idle := fun _ => ⟨unjudged, unread⟩
        backoff := backoff.trans (and_iff_right inactive).symm
        collisions := by simpa [unjudged, Engine.collisions] using few }
  | clear clear attempted unjudged unset few =>
      have active : engine.sequencer.active = true := active_iff.mpr clear.active
      exact {
        attempt := iff_of_true attempted ⟨active, unjudged⟩
        verdict := by
          rintro (aborting | ⟨remaining, jam⟩)
          · cases clear.calm.symm.trans aborting
          · exact absurd jam (clear.unjammed remaining)
        idle := fun inactive => by cases active.symm.trans inactive
        backoff := by simp [unset, active]
        collisions := by simpa [unjudged, Engine.collisions] using few }
  | @struck verdict struck unattempted judged unset counts =>
      have active : engine.sequencer.active = true := active_iff.mpr struck.active
      exact {
        attempt := by simp [Engine.attempt, unattempted, judged]
        verdict := fun _ => by simp [judged]
        idle := fun inactive => by cases active.symm.trans inactive
        backoff := by simp [unset, active]
        collisions := by
          rw [judged]
          cases verdict with
          | retry slots delay => exact counts.2
          | giveUp => exact counts
          | late => exact counts }

end Engine

namespace Run

variable {config : Config} {σ γ : Type} [ByteSource σ] [WordSource γ] [FrameStore σ]
  [PullClock σ] (run : Run config σ γ) {count : Nat}

/-- An attempt started before the tick `count`, and no indicator was raised on a tick after
the one on which it started. -/
def InFlight (count : Nat) : Prop :=
  ∃ start, start < count ∧ run.Starts start ∧
    ∀ tick, start < tick → tick < count → (run.outputs tick).status = {}

omit [FrameStore σ] [PullClock σ] in
theorem inFlight_succ (count : Nat) :
    run.InFlight (count + 1) ↔
      run.InFlight count ∧ (run.outputs count).status = {} ∨ run.Starts count := by
  constructor
  · rintro ⟨start, before, starts, unraised⟩
    rcases Nat.lt_succ_iff_lt_or_eq.mp before with earlier | rfl
    · refine .inl ⟨⟨start, earlier, starts, ?_⟩, unraised count earlier (Nat.lt_succ_self count)⟩
      exact fun tick after before => unraised tick after (Nat.lt_succ_of_lt before)
    · exact .inr starts
  · rintro (⟨⟨start, before, starts, unraised⟩, last⟩ | starts)
    · refine ⟨start, Nat.lt_succ_of_lt before, starts, ?_⟩
      intro tick after within
      rcases Nat.lt_succ_iff_lt_or_eq.mp within with earlier | rfl
      · exact unraised tick after earlier
      · exact last
    · refine ⟨count, Nat.lt_succ_self count, starts, ?_⟩
      exact fun tick after before => absurd (Nat.le_of_lt_succ before) (Nat.not_le.mpr after)

variable {run}

theorem coherent
    (unread : FrameStore.Unread run.source)
    (appends : ∀ tick, tick < run.length → FrameStore.Appends (run.supply tick))
    (within : count ≤ run.length) :
    (run.engine count).Coherent config ∧ (run.engine count).sequencer.Tidy ∧
      ((run.engine count).busy = true ↔ run.InFlight count) := by
  obtain ⟨early, gap, timing⟩ := run.accepted.timing
  induction count with
  | zero =>
      obtain ⟨_, deferral, sequencer, _, sequencerEqual, engineEqual⟩ :=
        Engine.ofConfig_eq_ok run.setUp
      obtain ⟨plan, _, rfl⟩ := Sequencer.ofConfig_eq_ok sequencerEqual
      have grounded : ¬ run.InFlight 0 := by
        rintro ⟨start, before, _⟩
        exact absurd before (Nat.not_lt_zero start)
      rw [engineEqual]
      refine ⟨.idle rfl rfl rfl unread ?_ timing.maxCollisions_pos, nofun, ?_⟩
      · exact iff_of_false Bool.false_ne_true (Nat.lt_irrefl 0)
      · exact iff_of_false Bool.false_ne_true grounded
  | succ count inductionHypothesis =>
      obtain ⟨coherent, tidy, busy⟩ := inductionHypothesis (Nat.le_of_succ_le within)
      have conforms :=
        (run.conforms (Nat.le_of_succ_le within)).supplied (run.supply count)
      have coherentThen := coherent.supplied (appends count within)
      obtain ⟨coherentNext, busyNext⟩ :=
        coherentThen.ticks conforms timing (run.ticks within)
      have tidyThen : (run.entering count).sequencer.Tidy := tidy
      refine ⟨coherentNext, Engine.tidy_ticks tidyThen (run.ticks within), busyNext.trans ?_⟩
      rw [inFlight_succ]
      exact or_congr_left (and_congr_left' busy)

/-- The components of the engine are in step after every tick, and a frame is in its hands
exactly since an attempt on it started.  No attempt ends jammed without a verdict. -/
theorem components_in_step
    (unread : FrameStore.Unread run.source)
    (appends : ∀ tick, tick < run.length → FrameStore.Appends (run.supply tick)) :
    (∀ count, count ≤ run.length →
      (run.engine count).InStep config ∧
        ((run.engine count).busy = true ↔ run.InFlight count)) ∧
    ∀ tick, tick < run.length → ∀ (recorded : List Event) (driven : Engine σ γ)
      (step : SequencerStep),
      ((run.entering tick).drive (run.reading tick) (run.inputs tick).collision).Yields
          recorded (driven, step) →
        step.ending = some .jammed → driven.verdict ≠ none := by
  constructor
  · intro count within
    obtain ⟨coherent, tidy, busy⟩ := run.coherent unread appends within
    exact ⟨coherent.inStep tidy, busy⟩
  · intro tick within recorded driven step yields jammed
    obtain ⟨coherent, _, _⟩ := run.coherent unread appends (Nat.le_of_lt within)
    have coherentThen := coherent.supplied (appends tick within)
    exact (coherentThen.ends (Engine.drive_yields yields).1 jammed).2.judged

/-- The first attempt on a frame meets a collision.  When its jam is over the timer leaps
ahead, so the second attempt starts on the same tick. -/
def leapScenario : Scenario ScriptedSource ZeroWords where
  source := ScriptedSource.empty.push (ScriptedFrame.ofBytes [0xA5])
  words := {}
  reading count := if count < 6 then count else count + 10
  inputs count := { collision := count = 3 }

def leapRun : Run .brief ScriptedSource ZeroWords :=
  (leapScenario.run? .brief 21).get (by decide +kernel)

theorem components_in_step_leapRun :
    FrameStore.Unread leapRun.source ∧
      (∀ tick, tick < leapRun.length → FrameStore.Appends (leapRun.supply tick)) ∧
      (leapRun.engine 5).verdict = some (.retry 0 0) ∧ (leapRun.engine 5).InStep .brief ∧
      leapRun.marks 6 = [.ended .jammed, .started 1 16] ∧ (leapRun.engine 7).InStep .brief ∧
      leapRun.InFlight 7 ∧ ¬ leapRun.InFlight 19 := by
  have unread : FrameStore.Unread leapRun.source := ⟨rfl, rfl⟩
  have appends : ∀ tick, tick < leapRun.length → FrameStore.Appends (leapRun.supply tick) :=
    fun _ _ => ⟨[], fun _ => rfl⟩
  have inStep := (components_in_step unread appends).1
  have jamming := inStep 5 (by decide +kernel)
  have trying := inStep 7 (by decide +kernel)
  have sent := inStep 19 (by decide +kernel)
  have done : (leapRun.engine 19).busy ≠ true := by decide +kernel
  exact ⟨unread, appends, by decide +kernel, jamming.1, by decide +kernel, trying.1,
    trying.2.mp (by decide +kernel), fun inFlight => done (sent.2.mpr inFlight)⟩

end Run

end HalfDuplex
