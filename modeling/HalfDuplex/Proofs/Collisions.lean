import HalfDuplex.Proofs.Transitions.Sequencer

/-!
# A collision in the course of an attempt

An attempt is `Clear` until a collision is noticed in it, and `Struck` from then on.  It
is struck with a collision pending, in a jam, or while it drives the error marker, since
starvation may win over a pending collision.  At most one collision is noticed in an
attempt: a struck attempt notices none.
-/

namespace HalfDuplex

namespace Sequencer

/-- An attempt is in progress in which no collision was noticed. -/
structure Clear (sequencer : Sequencer) : Prop where
  active : sequencer.stage ≠ .idle
  calm : sequencer.aborting = false
  unjammed : ∀ remaining, sequencer.stage ≠ .jam remaining

/-- An attempt is in progress in which a collision was noticed. -/
inductive Struck (sequencer : Sequencer) : Prop
  | pending
      (aborting : sequencer.aborting = true)
      (abortable : sequencer.stage.abortable = true)
  | jam {remaining : Nat}
      (stage : sequencer.stage = .jam remaining)
  | marker
      (stage : sequencer.stage = .underflow)

variable {sequencer next : Sequencer} {now : Tick} {collision : Bool}

theorem driving_stage (unjammed : ∀ remaining, sequencer.stage ≠ .jam remaining) :
    sequencer.driving.stage = sequencer.stage := by
  show sequencer.nextStage = sequencer.stage
  unfold nextStage
  split
  · rename_i remaining stage
    exact absurd stage (unjammed remaining)
  · rfl

theorem abortable_unjammed (abortable : sequencer.stage.abortable = true) :
    ∀ remaining, sequencer.stage ≠ .jam remaining := by
  intro remaining stage
  simp [stage, Stage.abortable] at abortable

/-- The two are at the same byte of the same attempt. -/
structure Level (sequencer next : Sequencer) : Prop where
  stage : next.stage = sequencer.stage
  plan : next.plan = sequencer.plan
  position : next.position = sequencer.position
  length : next.length = sequencer.length
  checksum : next.checksum = sequencer.checksum
  trailer : next.trailer = sequencer.trailer

theorem Level.trans {later : Sequencer} (first : next.Level later)
    (second : sequencer.Level next) : sequencer.Level later where
  stage := first.stage.trans second.stage
  plan := first.plan.trans second.plan
  position := first.position.trans second.position
  length := first.length.trans second.length
  checksum := first.checksum.trans second.checksum
  trailer := first.trailer.trans second.trailer

theorem level_holding (sequencer : Sequencer) (collision : Bool) :
    sequencer.Level (sequencer.holding.sampled collision) :=
  ⟨rfl, rfl, rfl, rfl, rfl, rfl⟩

/-- It takes a byte boundary to go on to another byte. -/
theorem level_driving (collision : Bool)
    (unjammed : ∀ remaining, sequencer.stage ≠ .jam remaining) :
    sequencer.Level (sequencer.driving.sampled collision) :=
  ⟨driving_stage unjammed, rfl, rfl, rfl, rfl, rfl⟩

theorem Struck.active (struck : sequencer.Struck) : sequencer.stage ≠ .idle := by
  intro idle
  cases struck with
  | pending aborting abortable => simp [idle, Stage.abortable] at abortable
  | jam stage => simp [idle] at stage
  | marker stage => simp [idle] at stage

theorem Clear.holding (clear : sequencer.Clear) : sequencer.holding.Clear :=
  ⟨clear.active, clear.calm, clear.unjammed⟩

theorem Clear.driving (clear : sequencer.Clear) : sequencer.driving.Clear := by
  have stage := driving_stage clear.unjammed
  exact ⟨stage.symm ▸ clear.active, clear.calm, stage.symm ▸ clear.unjammed⟩

theorem Clear.sampled (clear : sequencer.Clear)
    (unnoticed : sequencer.notices collision = false) :
    (sequencer.sampled collision).Clear :=
  ⟨clear.active, by simp [Sequencer.sampled, clear.calm, unnoticed], clear.unjammed⟩

theorem struck_of_notices (noticed : sequencer.notices collision = true) :
    (sequencer.sampled collision).Struck := by
  refine .pending (by simp [sampled, noticed]) ?_
  simp only [notices, Bool.and_eq_true] at noticed
  exact noticed.2

theorem Struck.holding (struck : sequencer.Struck) : sequencer.holding.Struck := by
  cases struck with
  | pending aborting abortable => exact .pending aborting abortable
  | jam stage => exact .jam stage
  | marker stage => exact .marker stage

theorem Struck.driving (struck : sequencer.Struck) : sequencer.driving.Struck := by
  cases struck with
  | pending aborting abortable =>
      have stage := driving_stage (abortable_unjammed abortable)
      exact .pending aborting (stage.symm ▸ abortable)
  | @jam remaining stage =>
      have shorter : sequencer.driving.stage = .jam (remaining - 1) := by
        simp [Sequencer.driving, nextStage, stage]
      exact .jam shorter
  | marker stage =>
      refine .marker ?_
      simp [Sequencer.driving, nextStage, stage]

theorem Struck.not_notices (struck : sequencer.Struck) :
    sequencer.notices collision = false := by
  cases struck with
  | pending aborting abortable => simp [notices, aborting]
  | jam stage => simp [notices, stage, Stage.abortable]
  | marker stage => simp [notices, stage, Stage.abortable]

theorem Struck.sampled (struck : sequencer.Struck) :
    (sequencer.sampled collision).Struck := by
  cases struck with
  | pending aborting abortable =>
      exact .pending (by simp [Sequencer.sampled, aborting]) abortable
  | jam stage => exact .jam stage
  | marker stage => exact .marker stage

section Source

variable {σ : Type} [ByteSource σ] {source after : σ} {step : SequencerStep}
  {ending : Option Ending}

theorem Clear.boundary (clear : sequencer.Clear)
    (boundary : Boundary now sequencer source next after ending) :
    ending ≠ some .jammed ∧ (ending = none → next.Clear) := by
  have calm := clear.calm
  cases boundary with
  | preamble => exact ⟨nofun, fun _ => ⟨clear.active, calm, clear.unjammed⟩⟩
  | octet => exact ⟨nofun, fun _ => ⟨nofun, calm, nofun⟩⟩
  | starved => exact ⟨nofun, fun _ => ⟨nofun, calm, nofun⟩⟩
  | pad => exact ⟨nofun, fun _ => ⟨nofun, calm, nofun⟩⟩
  | firstCheck => exact ⟨nofun, fun _ => ⟨nofun, calm, nofun⟩⟩
  | check => exact ⟨nofun, fun _ => ⟨clear.active, calm, clear.unjammed⟩⟩
  | sent => exact ⟨nofun, nofun⟩
  | marked => exact ⟨nofun, nofun⟩
  | jamming stage => exact absurd stage (clear.unjammed _)
  | jamOver stage => exact absurd stage (clear.unjammed _)
  | abandoned aborting => simp [calm] at aborting
  | abandonedStarved aborting => simp [calm] at aborting

theorem Struck.boundary (struck : sequencer.Struck)
    (boundary : Boundary now sequencer source next after ending) :
    ending ≠ some .sent ∧ (ending = none → next.Struck) := by
  -- A pending collision is given way to, and neither jam nor marker loads a byte.
  have not_calm : sequencer.stage.abortable = true → sequencer.aborting = true := by
    intro abortable
    cases struck with
    | pending aborting => exact aborting
    | jam stage => simp [stage, Stage.abortable] at abortable
    | marker stage => simp [stage, Stage.abortable] at abortable
  cases boundary with
  | preamble stage missing calm =>
      simp [not_calm (by simp [stage, Stage.abortable])] at calm
  | octet pulling pulled calm =>
      simp [not_calm pulling.abortable] at calm
  | starved pulling pulled calm =>
      simp [not_calm pulling.abortable] at calm
  | pad exhausted short calm =>
      simp [not_calm exhausted.abortable] at calm
  | firstCheck exhausted full place calm =>
      simp [not_calm exhausted.abortable] at calm
  | check stage place calm =>
      simp [not_calm (by simp [stage, Stage.abortable])] at calm
  | sent stage complete calm =>
      simp [not_calm (by simp [stage, Stage.abortable])] at calm
  | marked => exact ⟨by decide, fun unended => by cases unended⟩
  | jamming stage => exact ⟨by decide, fun _ => .jam stage⟩
  | jamOver => exact ⟨by decide, fun unended => by cases unended⟩
  | abandoned aborting abortable discards owes total ends =>
      refine ⟨?_, fun _ => .jam rfl⟩
      rw [ends]
      split <;> decide
  | abandonedStarved => exact ⟨by decide, fun _ => .marker rfl⟩

/-- How a clear attempt goes on. -/
theorem Clear.moves (clear : sequencer.Clear)
    (moves : Moves now collision sequencer source next after step) :
    match step.ending with
    | some ending => ending ≠ .jammed ∧ next.stage = .idle ∧ step.collided = false
    | none => if step.collided then next.Struck else next.Clear := by
  have shown {driven : Sequencer} (driven_clear : driven.Clear) :
      if driven.notices collision then (driven.sampled collision).Struck
        else (driven.sampled collision).Clear := by
    split
    · rename_i noticed
      exact struck_of_notices noticed
    · rename_i unnoticed
      exact driven_clear.sampled (Bool.not_eq_true _ ▸ unnoticed)
  cases moves with
  | rests idle => exact absurd idle clear.active
  | holds active between => exact shown clear.holding
  | continues active due high notOver => exact shown clear.driving
  | begins active due low boundary notOver =>
      exact shown ((clear.boundary boundary).2 rfl).driving
  | ends active due low boundary =>
      refine ⟨?_, rfl, rfl⟩
      rintro rfl
      exact (clear.boundary boundary).1 rfl

/-- How a struck attempt goes on. -/
theorem Struck.moves (struck : sequencer.Struck)
    (moves : Moves now collision sequencer source next after step) :
    step.collided = false ∧
      match step.ending with
      | some ending => ending ≠ .sent ∧ next.stage = .idle
      | none => next.Struck := by
  cases moves with
  | rests idle => exact absurd idle struck.active
  | holds active between =>
      exact ⟨struck.holding.not_notices, struck.holding.sampled⟩
  | continues active due high notOver =>
      exact ⟨struck.driving.not_notices, struck.driving.sampled⟩
  | begins active due low boundary notOver =>
      have loaded := ((struck.boundary boundary).2 rfl).driving
      exact ⟨loaded.not_notices, loaded.sampled⟩
  | ends active due low boundary =>
      refine ⟨rfl, ?_, rfl⟩
      rintro rfl
      exact (struck.boundary boundary).1 rfl

/-- A boundary in a preamble that is not complete begins another byte of it. -/
theorem preamble_boundary
    (stage : sequencer.stage = .preamble)
    (missing : sequencer.position < sequencer.plan.preambleBytes)
    (calm : sequencer.aborting = false)
    (boundary : Boundary now sequencer source next after ending) :
    next = sequencer.loadPreamble ∧ after = source ∧ ending = none := by
  have unpulled := not_pulling stage missing
  have unpadded : sequencer.stage ≠ .pad := by simp [stage]
  cases boundary with
  | preamble => exact ⟨rfl, rfl, rfl⟩
  | octet pulling => exact absurd pulling unpulled
  | starved pulling => exact absurd pulling unpulled
  | pad exhausted => exact absurd (exhausted.pulling unpadded) unpulled
  | firstCheck exhausted => exact absurd (exhausted.pulling unpadded) unpulled
  | check other => cases stage.symm.trans other
  | sent other => cases stage.symm.trans other
  | marked other => cases stage.symm.trans other
  | jamming other => cases stage.symm.trans other
  | jamOver other => cases stage.symm.trans other
  | abandoned aborting => simp [calm] at aborting
  | abandonedStarved aborting => simp [calm] at aborting

/-- The first tick of an attempt drives the first nibble of its preamble. -/
theorem start_moves
    (preamble : 0 < sequencer.plan.preambleBytes)
    (moves : Moves now collision sequencer.start source next after step) :
    step = sequencer.start.loadPreamble.driving.shown collision true ∧
      next = sequencer.start.loadPreamble.driving.sampled collision ∧
      after = source := by
  have stage : sequencer.start.stage = .preamble := rfl
  have calm : sequencer.start.aborting = false := rfl
  have missing : 0 < sequencer.start.plan.preambleBytes := preamble
  cases moves with
  | rests idle => cases idle
  | holds active between => exact absurd (Nat.zero_mod _) between
  | continues active due high notOver => cases high
  | begins active due low boundary notOver =>
      obtain ⟨rfl, rfl, _⟩ := preamble_boundary stage missing calm boundary
      exact ⟨rfl, rfl, rfl⟩
  | ends active due low boundary =>
      obtain ⟨_, _, unended⟩ := preamble_boundary stage missing calm boundary
      cases unended

theorem start_enabled
    (preamble : 0 < sequencer.plan.preambleBytes)
    (moves : Moves now collision sequencer.start source next after step) :
    step.signals.enable = true := by
  rw [(start_moves preamble moves).1]
  exact dueSignals_enable _

end Source

end Sequencer

end HalfDuplex
