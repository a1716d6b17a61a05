import HalfDuplex.Proofs.Marks
import HalfDuplex.Sequencer

/-!
# The transitions of the sequencer

What one step of the sequencer can do, said once.  `Boundary` lists what a boundary
between two bytes brings, with the conditions under which it does, and `Moves` lists
the ways in which a tick goes on.  `boundary_yields` and `step_yields` read both off a
step that ran through; every later statement about the sequencer is a case analysis on
them.
-/

namespace HalfDuplex

namespace Sequencer

/-- The next boundary asks the source for an octet, unless a collision is pending. -/
def Pulling (sequencer : Sequencer) : Prop :=
  sequencer.stage = .data ∨
    sequencer.stage = .preamble ∧ sequencer.plan.preambleBytes ≤ sequencer.position

/-- The attempt is at its preamble or at the octets of its frame. -/
def Asking (sequencer : Sequencer) : Prop :=
  sequencer.stage = .data ∨ sequencer.stage = .preamble

/-- The byte in flight and its mark, as the octet that they stand for. -/
def current (sequencer : Sequencer) : Octet :=
  if sequencer.error then .poisoned else .byte sequencer.byte

/-- The sequencer that has taken up an octet, or a byte of padding. -/
def taken (sequencer : Sequencer) (stage : Stage) (octet : Octet) : Sequencer :=
  { sequencer with
    stage
    length := sequencer.length + 1
    byte := octet.value
    error := octet.isPoisoned
    checksum := sequencer.checksum.update octet.value }

theorem current_taken (sequencer : Sequencer) (stage : Stage) (octet : Octet) :
    (sequencer.taken stage octet).current = octet := by
  cases octet <;> rfl

/-- The sequencer that has taken up the next byte of the checksum. -/
def checking (sequencer : Sequencer) (byte : UInt8) : Sequencer :=
  { sequencer with
    trailer := sequencer.dueTrailer
    position := sequencer.position + 1
    byte
    error := false }

/-- The sequencer that gives way to a collision with a jam. -/
def jammed (sequencer : Sequencer) (nibbles : Nat) : Sequencer :=
  { sequencer with aborting := false, stage := .jam nibbles, error := false }

/-- The sequencer without the collision that it had noticed. -/
def relieved (sequencer : Sequencer) : Sequencer :=
  { sequencer with aborting := false }

/-- Whether a collision sampled on a tick is noticed. -/
def notices (sequencer : Sequencer) (collision : Bool) : Bool :=
  collision && !sequencer.aborting && sequencer.stage.abortable

/-- The sequencer after the collision input was sampled. -/
def sampled (sequencer : Sequencer) (collision : Bool) : Sequencer :=
  { sequencer with aborting := sequencer.aborting || sequencer.notices collision }

/-- What the sequencer shows on a tick on which it drives the line. -/
def shown (sequencer : Sequencer) (collision clockEnable : Bool) : SequencerStep where
  signals := { sequencer.held with clockEnable }
  collided := sequencer.notices collision

/-- The sequencer one tick later, with the nibble on the line unchanged. -/
def holding (sequencer : Sequencer) : Sequencer :=
  { sequencer with elapsed := sequencer.elapsed + 1 }

/-- The stage after the nibble that is due. -/
def nextStage (sequencer : Sequencer) : Stage :=
  match sequencer.stage with
  | .jam remaining => .jam (remaining - 1)
  | stage => stage

/-- Which half of the octet in flight follows the nibble that is due. -/
def nextHigh (sequencer : Sequencer) : Bool :=
  match sequencer.stage with
  | .jam _ => sequencer.highNext
  | _ => !sequencer.highNext

/-- The sequencer one tick later, with the nibble that was due on the line. -/
def driving (sequencer : Sequencer) : Sequencer :=
  { sequencer with
    stage := sequencer.nextStage
    highNext := sequencer.nextHigh
    held := sequencer.dueSignals
    nibbles := sequencer.nibbles + 1
    elapsed := sequencer.elapsed + 1 }

theorem Pulling.asking {sequencer : Sequencer} (pulling : sequencer.Pulling) :
    sequencer.Asking :=
  pulling.imp_right And.left

theorem Pulling.abortable {sequencer : Sequencer} (pulling : sequencer.Pulling) :
    sequencer.stage.abortable = true := by
  rcases pulling with stage | ⟨stage, _⟩ <;>
    simp [stage, Stage.abortable]

theorem not_pulling {sequencer : Sequencer}
    (stage : sequencer.stage = .preamble)
    (missing : sequencer.position < sequencer.plan.preambleBytes) :
    ¬ sequencer.Pulling := by
  rintro (data | ⟨_, complete⟩)
  · simp [stage] at data
  · exact absurd missing (Nat.not_lt.mpr complete)

@[simp]
theorem dueSignals_enable (sequencer : Sequencer) :
    sequencer.dueSignals.enable = true :=
  rfl

theorem takeUp_eq_ok_iff {sequencer next : Sequencer} {stage : Stage} {octet : Octet} :
    sequencer.takeUp stage octet = .ok next ↔
      sequencer.length + 1 < wideLimit ∧ sequencer.taken stage octet = next := by
  unfold takeUp checkedAdd taken
  split
  · simp [bind, Except.bind, pure, Except.pure, *]
  · simp [bind, Except.bind, *]

theorem sample_yields {sequencer next : Sequencer} {collision clockEnable : Bool}
    {step : SequencerStep} {events : List Event} (now : Tick)
    (yields : (sequencer.sample collision clockEnable).Yields events (next, step)) :
    next = sequencer.sampled collision ∧ step = sequencer.shown collision clockEnable ∧
      marksOf now events = if step.collided then [.noticed now] else [] := by
  unfold sample at yields
  split at yields
  · rename_i noticed
    simp only [Traced.yields_bind, Traced.yields_record, Traced.yields_pure,
      Prod.mk.injEq] at yields
    obtain ⟨_, _, _, rfl, ⟨rfl, rfl, rfl⟩, rfl⟩ := yields
    simp [sampled, shown, notices, noticed, Event.mark?]
  · rename_i unnoticed
    simp only [Traced.yields_pure, Prod.mk.injEq] at yields
    obtain ⟨rfl, rfl, rfl⟩ := yields
    simp only [Bool.not_eq_true] at unnoticed
    simp [sampled, shown, notices, unnoticed]

/-! ## Boundaries between bytes -/

section Source

variable {σ : Type} [ByteSource σ]

/-- The octets of the frame are over, and padding or checksum come next.  The position is
counted anew when the source has no more octets. -/
inductive Exhausted (now : Tick) (sequencer : Sequencer) (source : σ) : Nat → σ → Prop
  | finished {after : σ}
      (pulling : sequencer.Pulling)
      (pulled : ByteSource.pull source now = .ok (after, .finished)) :
      Exhausted now sequencer source 0 after
  | padding
      (stage : sequencer.stage = .pad) :
      Exhausted now sequencer source sequencer.position source

/-- What the source was asked when an attempt gives way to a collision. -/
inductive Discards (now : Tick) (sequencer : Sequencer) (source : σ) : σ → Prop
  | unasked
      (stage : sequencer.stage ≠ .data) :
      Discards now sequencer source source
  | asked {after : σ} {answer : Pull}
      (stage : sequencer.stage = .data)
      (pulled : ByteSource.pull source now = .ok (after, answer))
      (supplied : answer ≠ .starved) :
      Discards now sequencer source after

/-- What a boundary between two bytes can bring. -/
inductive Boundary (now : Tick) (sequencer : Sequencer) (source : σ) :
    Sequencer → σ → Option Ending → Prop
  | preamble
      (stage : sequencer.stage = .preamble)
      (missing : sequencer.position < sequencer.plan.preambleBytes)
      (calm : sequencer.aborting = false) :
      Boundary now sequencer source sequencer.loadPreamble source none
  | octet {after : σ} {octet : Octet}
      (pulling : sequencer.Pulling)
      (pulled : ByteSource.pull source now = .ok (after, .octet octet))
      (calm : sequencer.aborting = false) :
      Boundary now sequencer source (sequencer.taken .data octet) after none
  | starved {after : σ}
      (pulling : sequencer.Pulling)
      (pulled : ByteSource.pull source now = .ok (after, .starved))
      (calm : sequencer.aborting = false) :
      Boundary now sequencer source sequencer.takeUpMarker after none
  | pad {after : σ} {position : Nat}
      (exhausted : Exhausted now sequencer source position after)
      (short : sequencer.length < sequencer.plan.minFrame)
      (calm : sequencer.aborting = false) :
      Boundary now sequencer source (taken { sequencer with position } .pad (.byte 0)) after none
  | firstCheck {after : σ} {position : Nat} {byte : UInt8}
      (exhausted : Exhausted now sequencer source position after)
      (full : sequencer.plan.minFrame ≤ sequencer.length)
      (place : sequencer.checksum.trailer[0]? = some byte)
      (calm : sequencer.aborting = false) :
      Boundary now sequencer source (sequencer.beginTrailer.checking byte) after none
  | check {byte : UInt8}
      (stage : sequencer.stage = .trailer)
      (place : sequencer.dueTrailer[sequencer.position]? = some byte)
      (calm : sequencer.aborting = false) :
      Boundary now sequencer source (sequencer.checking byte) source none
  | sent
      (stage : sequencer.stage = .trailer)
      (complete : Checksum.trailerLength ≤ sequencer.position)
      (calm : sequencer.aborting = false) :
      Boundary now sequencer source sequencer source (some .sent)
  | marked
      (stage : sequencer.stage = .underflow) :
      Boundary now sequencer source sequencer source (some .underflow)
  | jamming {remaining : Nat}
      (stage : sequencer.stage = .jam (remaining + 1)) :
      Boundary now sequencer source sequencer source none
  | jamOver
      (stage : sequencer.stage = .jam 0) :
      Boundary now sequencer source sequencer source (some .jammed)
  | abandoned {after : σ} {owed nibbles : Nat} {ending : Option Ending}
      (aborting : sequencer.aborting = true)
      (abortable : sequencer.stage.abortable = true)
      (discards : Discards now sequencer source after)
      (owes : sequencer.preambleOwed = .ok owed)
      (total : sequencer.plan.jamNibbles + owed = nibbles)
      (ends : ending = if nibbles = 0 then some .jammed else none) :
      Boundary now sequencer source (sequencer.jammed nibbles) after ending
  | abandonedStarved {after : σ}
      (aborting : sequencer.aborting = true)
      (stage : sequencer.stage = .data)
      (pulled : ByteSource.pull source now = .ok (after, .starved)) :
      Boundary now sequencer source sequencer.relieved.takeUpMarker after none

/-- What a byte boundary leaves as it is. -/
theorem Boundary.counters {now : Tick} {sequencer loaded : Sequencer} {source after : σ}
    {ending : Option Ending}
    (boundary : Boundary now sequencer source loaded after ending) :
    loaded.plan = sequencer.plan ∧ loaded.highNext = sequencer.highNext ∧
      loaded.elapsed = sequencer.elapsed ∧ loaded.nibbles = sequencer.nibbles := by
  cases boundary <;> exact ⟨rfl, rfl, rfl, rfl⟩

theorem Exhausted.abortable {now : Tick} {sequencer : Sequencer} {source after : σ}
    {position : Nat}
    (exhausted : Exhausted now sequencer source position after) :
    sequencer.stage.abortable = true := by
  cases exhausted with
  | finished pulling pulled => exact pulling.abortable
  | padding stage => simp [stage, Stage.abortable]

theorem Exhausted.pulling {now : Tick} {sequencer : Sequencer} {source after : σ}
    {position : Nat}
    (exhausted : Exhausted now sequencer source position after)
    (unpadded : sequencer.stage ≠ .pad) :
    sequencer.Pulling := by
  cases exhausted with
  | finished pulling pulled => exact pulling
  | padding stage => exact absurd stage unpadded

theorem length_trailer (checksum : Checksum) :
    checksum.trailer.length = Checksum.trailerLength :=
  Checksum.length_encode _

theorem loadTrailer_cases (sequencer : Sequencer) :
    (∃ byte, sequencer.dueTrailer[sequencer.position]? = some byte ∧
      sequencer.loadTrailer = (sequencer.checking byte, none)) ∨
    (Checksum.trailerLength ≤ sequencer.position ∧
      sequencer.loadTrailer = (sequencer, some .sent)) := by
  unfold loadTrailer
  cases place : sequencer.dueTrailer[sequencer.position]? with
  | some byte => exact .inl ⟨byte, rfl, by simp only [place, checking]⟩
  | none => exact .inr ⟨Vector.getElem?_eq_none_iff.mp place, by simp only [place]⟩

theorem dueTrailer_beginTrailer (sequencer : Sequencer) :
    sequencer.beginTrailer.dueTrailer = sequencer.checksum.trailerBytes :=
  if_pos rfl

theorem loadPad_boundary {now : Tick} {sequencer next : Sequencer} {source after : σ}
    {position : Nat} {ending : Option Ending}
    (exhausted : Exhausted now sequencer source position after)
    (calm : sequencer.aborting = false)
    (loaded : { sequencer with position }.loadPad = .ok (next, ending)) :
    Boundary now sequencer source next after ending := by
  unfold loadPad at loaded
  split at loaded
  · rename_i short
    cases taken : { sequencer with position }.takeUp .pad (.byte 0) with
    | error fault =>
        rw [taken] at loaded
        cases loaded
    | ok padded =>
        rw [taken] at loaded
        cases loaded
        rw [takeUp_eq_ok_iff] at taken
        rw [← taken.2]
        exact .pad exhausted short calm
  · rename_i full
    replace loaded : sequencer.beginTrailer.loadTrailer = (next, ending) := Except.ok.inj loaded
    rcases sequencer.beginTrailer.loadTrailer_cases with ⟨byte, place, equal⟩ | ⟨complete, _⟩
    · rw [equal] at loaded
      cases loaded
      rw [dueTrailer_beginTrailer, Checksum.getElem?_trailerBytes] at place
      exact .firstCheck exhausted (Nat.le_of_not_lt full) place calm
    · exact absurd Checksum.trailerLength_pos (Nat.not_lt.mpr complete)

theorem loadTrailer_boundary {now : Tick} {sequencer next : Sequencer} {source : σ}
    {ending : Option Ending}
    (stage : sequencer.stage = .trailer)
    (calm : sequencer.aborting = false)
    (loaded : sequencer.loadTrailer = (next, ending)) :
    Boundary now sequencer source next source ending := by
  rcases sequencer.loadTrailer_cases with ⟨byte, place, equal⟩ | ⟨complete, equal⟩
  · rw [equal] at loaded
    cases loaded
    exact .check stage place calm
  · rw [equal] at loaded
    cases loaded
    exact .sent stage complete calm

theorem loadData_yields {now : Tick} {sequencer next : Sequencer} {source after : σ}
    {ending : Option Ending} {events : List Event}
    (pulling : sequencer.Pulling)
    (calm : sequencer.aborting = false)
    (yields : (sequencer.loadData now source).Yields events (next, after, ending)) :
    Boundary now sequencer source next after ending ∧ marksOf now events = [] := by
  simp only [loadData, Traced.yields_bind, Traced.yields_lift] at yields
  obtain ⟨⟨asked, answer⟩, _, continued, ⟨rfl, pulled⟩, yields, rfl⟩ := yields
  rcases answer with (octet | _ | _)
  · rcases octet with (value | _)
    · simp only [Traced.yields_bind, Traced.yields_lift, Traced.yields_pure,
        Prod.mk.injEq, takeUp_eq_ok_iff] at yields
      obtain ⟨_, _, _, ⟨rfl, _, rfl⟩, ⟨rfl, rfl, rfl, rfl⟩, rfl⟩ := yields
      exact ⟨.octet pulling pulled calm, rfl⟩
    · simp only [Traced.yields_bind, Traced.yields_record, Traced.yields_lift,
        Traced.yields_pure, Prod.mk.injEq, takeUp_eq_ok_iff] at yields
      obtain ⟨_, _, _, rfl, ⟨_, _, _, ⟨rfl, _, rfl⟩, ⟨rfl, rfl, rfl, rfl⟩, rfl⟩,
        rfl⟩ := yields
      exact ⟨.octet pulling pulled calm, rfl⟩
  · simp only [Traced.yields_bind, Traced.yields_lift, Traced.yields_pure,
      Prod.mk.injEq] at yields
    obtain ⟨⟨padded, ended⟩, _, _, ⟨rfl, loaded⟩, ⟨rfl, rfl, rfl, rfl⟩, rfl⟩ := yields
    exact ⟨loadPad_boundary (.finished pulling pulled) calm loaded, rfl⟩
  · simp only [Traced.yields_bind, Traced.yields_record, Traced.yields_pure,
      Prod.mk.injEq] at yields
    obtain ⟨_, _, _, rfl, ⟨rfl, rfl, rfl, rfl⟩, rfl⟩ := yields
    exact ⟨.starved pulling pulled calm, rfl⟩

theorem load_yields {now : Tick} {sequencer next : Sequencer} {source after : σ}
    {ending : Option Ending} {events : List Event}
    (active : sequencer.stage ≠ .idle)
    (free : (sequencer.aborting && sequencer.stage.abortable) = false)
    (yields : (sequencer.load now source).Yields events (next, after, ending)) :
    Boundary now sequencer source next after ending ∧ marksOf now events = [] := by
  unfold load at yields
  split at yields
  · rename_i stage
    exact absurd stage active
  · rename_i stage
    have calm : sequencer.aborting = false := by simpa [stage, Stage.abortable] using free
    split at yields
    · rename_i missing
      simp only [Traced.yields_pure, Prod.mk.injEq] at yields
      obtain ⟨rfl, rfl, rfl, rfl⟩ := yields
      exact ⟨.preamble stage missing calm, rfl⟩
    · rename_i complete
      exact loadData_yields (.inr ⟨stage, Nat.le_of_not_lt complete⟩) calm yields
  · rename_i stage
    have calm : sequencer.aborting = false := by simpa [stage, Stage.abortable] using free
    exact loadData_yields (.inl stage) calm yields
  · rename_i stage
    have calm : sequencer.aborting = false := by simpa [stage, Stage.abortable] using free
    simp only [Traced.yields_bind, Traced.yields_lift, Traced.yields_pure,
      Prod.mk.injEq] at yields
    obtain ⟨⟨padded, ended⟩, _, _, ⟨rfl, loaded⟩, ⟨rfl, rfl, rfl, rfl⟩, rfl⟩ := yields
    exact ⟨loadPad_boundary (.padding stage) calm loaded, rfl⟩
  · rename_i stage
    have calm : sequencer.aborting = false := by simpa [stage, Stage.abortable] using free
    simp only [Traced.yields_pure, Prod.mk.injEq] at yields
    obtain ⟨rfl, rfl, rfl, rfl⟩ := yields
    exact ⟨loadTrailer_boundary stage calm rfl, rfl⟩
  · rename_i stage
    simp only [Traced.yields_pure, Prod.mk.injEq] at yields
    obtain ⟨rfl, rfl, rfl, rfl⟩ := yields
    exact ⟨.marked stage, rfl⟩
  · rename_i remaining stage
    simp only [Traced.yields_pure, Prod.mk.injEq] at yields
    obtain ⟨rfl, rfl, rfl, rfl⟩ := yields
    cases remaining with
    | zero => exact ⟨.jamOver stage, rfl⟩
    | succ remaining => exact ⟨.jamming stage, rfl⟩

theorem beginJam_yields {now : Tick} {sequencer next : Sequencer}
    {ending : Option Ending} {events : List Event}
    (yields : sequencer.relieved.beginJam.Yields events (next, ending)) :
    ∃ owed nibbles, sequencer.preambleOwed = .ok owed ∧
      sequencer.plan.jamNibbles + owed = nibbles ∧ next = sequencer.jammed nibbles ∧
      ending = (if nibbles = 0 then some .jammed else none) ∧ marksOf now events = [] := by
  simp only [beginJam, Traced.yields_bind, Traced.yields_lift, Traced.yields_record,
    Traced.yields_pure, Prod.mk.injEq, checkedAdd_eq_ok_iff] at yields
  obtain ⟨owed, _, _, ⟨rfl, owes⟩, ⟨nibbles, _, _, ⟨rfl, _, total⟩,
    ⟨_, _, _, rfl, ⟨rfl, rfl, rfl⟩, rfl⟩, rfl⟩, rfl⟩ := yields
  exact ⟨owed, nibbles, owes, total, rfl, rfl, rfl⟩

theorem abandon_yields {now : Tick} {sequencer next : Sequencer} {source after : σ}
    {ending : Option Ending} {events : List Event}
    (aborting : sequencer.aborting = true)
    (abortable : sequencer.stage.abortable = true)
    (yields : (sequencer.abandon now source).Yields events (next, after, ending)) :
    Boundary now sequencer source next after ending ∧ marksOf now events = [] := by
  unfold abandon at yields
  simp only at yields
  split at yields
  · rename_i stage
    simp only [Traced.yields_bind, Traced.yields_lift] at yields
    obtain ⟨⟨asked, answer⟩, _, continued, ⟨rfl, pulled⟩, yields, rfl⟩ := yields
    simp only at yields
    split at yields
    · rename_i starved
      subst starved
      simp only [Traced.yields_bind, Traced.yields_record, Traced.yields_pure,
        Prod.mk.injEq] at yields
      obtain ⟨_, _, _, rfl, ⟨rfl, rfl, rfl, rfl⟩, rfl⟩ := yields
      exact ⟨.abandonedStarved aborting stage pulled, rfl⟩
    · rename_i supplied
      simp only [Traced.yields_bind, Traced.yields_pure, Prod.mk.injEq] at yields
      obtain ⟨⟨jam, ended⟩, _, _, jams, ⟨rfl, rfl, rfl, rfl⟩, rfl⟩ := yields
      obtain ⟨owed, nibbles, owes, total, rfl, ends, unmarked⟩ := beginJam_yields jams
      exact ⟨.abandoned aborting abortable (.asked stage pulled supplied) owes total ends,
        by simpa using unmarked⟩
  · rename_i notData
    simp only [Traced.yields_bind, Traced.yields_pure, Prod.mk.injEq] at yields
    obtain ⟨⟨jam, ended⟩, _, _, jams, ⟨rfl, rfl, rfl, rfl⟩, rfl⟩ := yields
    obtain ⟨owed, nibbles, owes, total, rfl, ends, unmarked⟩ := beginJam_yields jams
    exact ⟨.abandoned aborting abortable (.unasked notData) owes total ends,
      by simpa using unmarked⟩

/-- A boundary in an attempt brings one of the listed things, and leaves no mark. -/
theorem boundary_yields {now : Tick} {sequencer next : Sequencer} {source after : σ}
    {ending : Option Ending} {events : List Event}
    (active : sequencer.stage ≠ .idle)
    (yields : (sequencer.boundary now source).Yields events (next, after, ending)) :
    Boundary now sequencer source next after ending ∧ marksOf now events = [] := by
  unfold boundary at yields
  split at yields
  · rename_i pending
    rw [Bool.and_eq_true] at pending
    exact abandon_yields pending.1 pending.2 yields
  · rename_i free
    exact load_yields active (by simpa using free) yields

/-! ## Steps -/

theorem advance_eq_ok_iff {sequencer next : Sequencer} :
    sequencer.advance = .ok next ↔
      sequencer.stage ≠ .jam 0 ∧
        next = { sequencer with
          stage := sequencer.nextStage
          highNext := sequencer.nextHigh } := by
  unfold advance nextStage nextHigh
  split
  · rename_i remaining stage
    cases remaining with
    | zero => simp [stage, checkedSub, bind, Except.bind]
    | succ remaining =>
        simp [stage, checkedSub, bind, Except.bind, pure, Except.pure, eq_comm]
  · rename_i notJam
    have notOver : sequencer.stage ≠ .jam 0 := fun stage => notJam 0 stage
    simp [pure, Except.pure, eq_comm, notOver]

theorem hold_yields {sequencer next : Sequencer} {collision : Bool}
    {step : SequencerStep} {events : List Event} (now : Tick)
    (yields : (sequencer.hold collision).Yields events (next, step)) :
    next = sequencer.holding.sampled collision ∧
      step = sequencer.holding.shown collision false ∧
      marksOf now events = if step.collided then [.noticed now] else [] := by
  simp only [hold, Traced.yields_bind, Traced.yields_lift, checkedAdd_eq_ok_iff] at yields
  obtain ⟨_, _, _, ⟨rfl, _, rfl⟩, yields, rfl⟩ := yields
  exact sample_yields now yields

theorem present_yields {sequencer next : Sequencer} {collision : Bool}
    {step : SequencerStep} {events : List Event} (now : Tick)
    (yields : (sequencer.present collision).Yields events (next, step)) :
    sequencer.stage ≠ .jam 0 ∧
      next = sequencer.driving.sampled collision ∧
      step = sequencer.driving.shown collision true ∧
      marksOf now events = if step.collided then [.noticed now] else [] := by
  simp only [present, Traced.yields_bind, Traced.yields_lift, checkedAdd_eq_ok_iff,
    advance_eq_ok_iff] at yields
  obtain ⟨_, _, _, ⟨rfl, notOver, rfl⟩, ⟨_, _, _, ⟨rfl, _, rfl⟩,
    ⟨_, _, _, ⟨rfl, _, rfl⟩, yields, rfl⟩, rfl⟩, rfl⟩ := yields
  exact ⟨notOver, sample_yields now yields⟩

/-- The ways in which a tick of the sequencer goes on. -/
inductive Moves (now : Tick) (collision : Bool) (sequencer : Sequencer) (source : σ) :
    Sequencer → σ → SequencerStep → Prop
  | rests
      (idle : sequencer.stage = .idle) :
      Moves now collision sequencer source sequencer source {}
  | holds
      (active : sequencer.stage ≠ .idle)
      (between : sequencer.elapsed % sequencer.plan.nibbleTicks ≠ 0) :
      Moves now collision sequencer source
        (sequencer.holding.sampled collision) source
        (sequencer.holding.shown collision false)
  | continues
      (active : sequencer.stage ≠ .idle)
      (due : sequencer.elapsed % sequencer.plan.nibbleTicks = 0)
      (high : sequencer.highNext = true)
      (notOver : sequencer.stage ≠ .jam 0) :
      Moves now collision sequencer source
        (sequencer.driving.sampled collision) source
        (sequencer.driving.shown collision true)
  | begins {loaded : Sequencer} {after : σ}
      (active : sequencer.stage ≠ .idle)
      (due : sequencer.elapsed % sequencer.plan.nibbleTicks = 0)
      (low : sequencer.highNext = false)
      (boundary : Boundary now sequencer source loaded after none)
      (notOver : loaded.stage ≠ .jam 0) :
      Moves now collision sequencer source
        (loaded.driving.sampled collision) after
        (loaded.driving.shown collision true)
  | ends {loaded : Sequencer} {after : σ} {ending : Ending}
      (active : sequencer.stage ≠ .idle)
      (due : sequencer.elapsed % sequencer.plan.nibbleTicks = 0)
      (low : sequencer.highNext = false)
      (boundary : Boundary now sequencer source loaded after (some ending)) :
      Moves now collision sequencer source loaded.rest after { ending := some ending }

/-- The marks left by a tick of the sequencer. -/
def marksOfStep (now : Tick) (step : SequencerStep) : List Mark :=
  (if step.collided then [.noticed now] else []) ++ (step.ending.map .ended).toList

@[simp]
theorem outcomesOf_marksOfStep (now : Tick) (step : SequencerStep) :
    outcomesOf (marksOfStep now step) = [] := by
  unfold marksOfStep
  cases step.ending <;> split <;> rfl

@[simp]
theorem not_hasStart_marksOfStep (now : Tick) (step : SequencerStep) :
    ¬ HasStart (marksOfStep now step) := by
  unfold marksOfStep
  cases step.ending <;> split <;> simp [HasStart]

@[simp]
theorem hasNotice_marksOfStep (now : Tick) (step : SequencerStep) :
    HasNotice (marksOfStep now step) ↔ step.collided = true := by
  unfold marksOfStep
  cases step.ending <;> cases step.collided <;> simp [HasNotice]

theorem marksOfStep_shown {now : Tick} {sequencer : Sequencer}
    {collision clockEnable : Bool} :
    marksOfStep now (sequencer.shown collision clockEnable) =
      if (sequencer.shown collision clockEnable).collided then [.noticed now] else [] := by
  simp [marksOfStep, shown]

theorem stepBoundary_yields {now : Tick} {collision : Bool}
    {sequencer next : Sequencer} {source after : σ} {step : SequencerStep}
    {events : List Event}
    (active : sequencer.stage ≠ .idle)
    (due : sequencer.elapsed % sequencer.plan.nibbleTicks = 0)
    (low : sequencer.highNext = false)
    (yields :
      (sequencer.stepBoundary now collision source).Yields events (next, after, step)) :
    Moves now collision sequencer source next after step ∧
      marksOf now events = marksOfStep now step := by
  simp only [stepBoundary, Traced.yields_bind] at yields
  obtain ⟨⟨loaded, asked, ending⟩, before, continued, loads, yields, rfl⟩ := yields
  obtain ⟨boundary, unmarked⟩ := boundary_yields active loads
  cases ending with
  | some ending =>
      simp only [Traced.yields_bind, Traced.yields_record, Traced.yields_pure,
        Prod.mk.injEq] at yields
      obtain ⟨_, _, _, rfl, ⟨rfl, rfl, rfl, rfl⟩, rfl⟩ := yields
      refine ⟨.ends active due low boundary, ?_⟩
      simp [unmarked, marksOfStep, Event.mark?]
  | none =>
      simp only [Traced.yields_bind, Traced.yields_pure, Prod.mk.injEq] at yields
      obtain ⟨⟨driven, shown⟩, _, _, presents, ⟨rfl, rfl, rfl, rfl⟩, rfl⟩ := yields
      obtain ⟨notOver, rfl, rfl, marked⟩ := present_yields now presents
      refine ⟨.begins active due low boundary notOver, ?_⟩
      rw [marksOfStep_shown, ← marked]
      simp [unmarked]

/-- A tick of the sequencer goes on in one of the listed ways, and its marks can be
read off what it shows. -/
theorem step_yields {now : Tick} {collision : Bool} {sequencer next : Sequencer}
    {source after : σ} {step : SequencerStep} {events : List Event}
    (yields : (sequencer.step now collision source).Yields events (next, after, step)) :
    Moves now collision sequencer source next after step ∧
      marksOf now events = marksOfStep now step := by
  unfold Sequencer.step at yields
  split at yields
  · rename_i idle
    simp only [Traced.yields_pure, Prod.mk.injEq] at yields
    obtain ⟨rfl, rfl, rfl, rfl⟩ := yields
    exact ⟨.rests idle, rfl⟩
  · rename_i active
    simp only [Traced.yields_bind, Traced.yields_lift, checkedMod_eq_ok_iff] at yields
    obtain ⟨_, _, _, ⟨rfl, _, rfl⟩, yields, rfl⟩ := yields
    split at yields
    · rename_i between
      simp only [Traced.yields_bind, Traced.yields_pure, Prod.mk.injEq] at yields
      obtain ⟨⟨held, shown⟩, _, _, holds, ⟨rfl, rfl, rfl, rfl⟩, rfl⟩ := yields
      obtain ⟨rfl, rfl, marked⟩ := hold_yields now holds
      refine ⟨.holds active between, ?_⟩
      rw [marksOfStep_shown, ← marked]
      simp
    · rename_i due
      replace due := Decidable.not_not.mp due
      split at yields
      · rename_i high
        simp only [Traced.yields_bind, Traced.yields_pure, Prod.mk.injEq] at yields
        obtain ⟨⟨driven, shown⟩, _, _, presents, ⟨rfl, rfl, rfl, rfl⟩, rfl⟩ := yields
        obtain ⟨notOver, rfl, rfl, marked⟩ := present_yields now presents
        refine ⟨.continues active due high notOver, ?_⟩
        rw [marksOfStep_shown, ← marked]
        simp
      · rename_i low
        exact stepBoundary_yields active due (by simpa using low) yields

theorem Exhausted.pulls {now : Tick} {sequencer : Sequencer} {source after : σ}
    {position : Nat}
    (exhausted : Exhausted now sequencer source position after) :
    after = source ∨ ∃ answer, ByteSource.pull source now = .ok (after, answer) := by
  cases exhausted with
  | finished pulling pulled => exact .inr ⟨_, pulled⟩
  | padding stage => exact .inl rfl

theorem Boundary.pulls {now : Tick} {sequencer loaded : Sequencer} {source after : σ}
    {ending : Option Ending}
    (boundary : Boundary now sequencer source loaded after ending) :
    after = source ∨ ∃ answer, ByteSource.pull source now = .ok (after, answer) := by
  cases boundary with
  | preamble | check | sent | marked | jamming | jamOver => exact .inl rfl
  | octet _ pulled | starved _ pulled | abandonedStarved _ _ pulled => exact .inr ⟨_, pulled⟩
  | pad exhausted | firstCheck exhausted => exact exhausted.pulls
  | abandoned _ _ discards =>
      cases discards with
      | unasked => exact .inl rfl
      | asked stage pulled => exact .inr ⟨_, pulled⟩

/-- All that a tick of the sequencer does to the source is pulling from it. -/
theorem Moves.pulls {now : Tick} {collision : Bool} {sequencer next : Sequencer}
    {source after : σ} {step : SequencerStep}
    (moves : Moves now collision sequencer source next after step) :
    after = source ∨ ∃ answer, ByteSource.pull source now = .ok (after, answer) := by
  cases moves with
  | rests | holds | continues => exact .inl rfl
  | begins _ _ _ boundary | ends _ _ _ boundary => exact boundary.pulls

/-- Without an attempt in progress a tick does nothing. -/
theorem Moves.resting {now : Tick} {collision : Bool} {sequencer next : Sequencer}
    {source after : σ} {step : SequencerStep}
    (idle : sequencer.stage = .idle)
    (moves : Moves now collision sequencer source next after step) :
    next = sequencer ∧ after = source ∧ step = {} := by
  cases moves with
  | rests => exact ⟨rfl, rfl, rfl⟩
  | holds active between => exact absurd idle active
  | continues active due high notOver => exact absurd idle active
  | begins active due low boundary notOver => exact absurd idle active
  | ends active due low boundary => exact absurd idle active

end Source

end Sequencer

end HalfDuplex
