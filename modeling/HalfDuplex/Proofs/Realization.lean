import HalfDuplex.Proofs.Progress

/-!
# The listed transitions happen

A step of the sequencer that runs through does one of the things that `Boundary` and `Moves`
list.  Here is the converse: what the lists offer is what the step does, provided that the
counters have room for it.  An attempt can therefore be followed forwards, from what is known
of its source and of the collision input, and its steps need not be assumed to succeed.
-/

namespace HalfDuplex

open Traced

namespace Sequencer

variable {sequencer loaded : Sequencer} {collision : Bool} {now : Tick}

/-- The counters had room for what a byte boundary brought. -/
structure Room (loaded : Sequencer) : Prop where
  length : loaded.length < wideLimit
  jam : ∀ nibbles, loaded.stage = .jam nibbles → nibbles < countLimit

theorem loadPad_of_short
    (short : sequencer.length < sequencer.plan.minFrame)
    (room : sequencer.length + 1 < wideLimit) :
    sequencer.loadPad = .ok (sequencer.taken .pad (.byte 0), none) := by
  rw [loadPad, if_pos short, takeUp_of_lt room]
  rfl

theorem loadTrailer_of_place {byte : UInt8}
    (place : sequencer.dueTrailer[sequencer.position]? = some byte) :
    sequencer.loadTrailer = (sequencer.checking byte, none) := by
  simp only [loadTrailer, place, checking]

theorem loadTrailer_of_complete (complete : Checksum.trailerLength ≤ sequencer.position) :
    sequencer.loadTrailer = (sequencer, some .sent) := by
  simp only [loadTrailer, Vector.getElem?_eq_none complete]

theorem loadPad_of_full {byte : UInt8}
    (full : sequencer.plan.minFrame ≤ sequencer.length)
    (place : sequencer.checksum.trailer[0]? = some byte) :
    sequencer.loadPad = .ok (sequencer.beginTrailer.checking byte, none) := by
  have first : sequencer.beginTrailer.dueTrailer[sequencer.beginTrailer.position]? = some byte := by
    rw [dueTrailer_beginTrailer, Checksum.getElem?_trailerBytes]
    exact place
  rw [loadPad, if_neg (Nat.not_lt.mpr full), loadTrailer_of_place first]
  rfl

theorem beginJam_value {owed nibbles : Nat}
    (owes : sequencer.preambleOwed = .ok owed)
    (total : sequencer.plan.jamNibbles + owed = nibbles)
    (room : nibbles < countLimit) :
    sequencer.relieved.beginJam.value =
      .ok (sequencer.jammed nibbles, if nibbles = 0 then some .jammed else none) := by
  have owesThen : sequencer.relieved.preambleOwed = .ok owed := owes
  have adds : checkedAdd countLimit sequencer.relieved.plan.jamNibbles owed = .ok nibbles :=
    checkedAdd_eq_ok_iff.mpr ⟨by rw [← total] at room; exact room, total⟩
  rw [beginJam, owesThen]
  simp only [value_bind, value_lift, Except.bind, adds, value_record, value_pure]
  rfl

section Source

variable {σ : Type} [ByteSource σ] {source after : σ} {ending : Option Ending}

theorem load_of_pulling (pulling : sequencer.Pulling) :
    sequencer.load now source = sequencer.loadData now source := by
  rcases pulling with data | ⟨preamble, complete⟩
  · rw [load, data]
  · rw [load, preamble]
    exact if_neg (Nat.not_lt.mpr complete)

theorem boundary_of_calm (calm : sequencer.aborting = false) :
    sequencer.boundary now source = sequencer.load now source := by
  rw [boundary, calm]
  rfl

theorem boundary_of_unabortable (unabortable : sequencer.stage.abortable = false) :
    sequencer.boundary now source = sequencer.load now source := by
  rw [boundary, unabortable, Bool.and_false]
  rfl

theorem boundary_of_pending
    (aborting : sequencer.aborting = true)
    (abortable : sequencer.stage.abortable = true) :
    sequencer.boundary now source = sequencer.abandon now source := by
  rw [boundary, aborting, abortable]
  rfl

theorem loadData_octet {octet : Octet}
    (pulled : ByteSource.pull source now = .ok (after, .octet octet))
    (room : sequencer.length + 1 < wideLimit) :
    (sequencer.loadData now source).value =
      .ok (sequencer.taken .data octet, after, none) := by
  rw [loadData, pulled]
  cases octet with
  | byte value =>
      simp only [value_bind, value_lift, Except.bind, takeUp_of_lt room, value_pure]
  | poisoned =>
      simp only [value_bind, value_lift, Except.bind, takeUp_of_lt room, value_record,
        value_pure]

theorem loadData_starved
    (pulled : ByteSource.pull source now = .ok (after, .starved)) :
    (sequencer.loadData now source).value = .ok (sequencer.takeUpMarker, after, none) := by
  rw [loadData, pulled]
  rfl

theorem load_exhausted {position : Nat}
    (exhausted : Exhausted now sequencer source position after)
    (padded : { sequencer with position }.loadPad = .ok (loaded, ending)) :
    (sequencer.load now source).value = .ok (loaded, after, ending) := by
  cases exhausted with
  | finished pulling pulled =>
      rw [load_of_pulling pulling, loadData, pulled]
      simp only [value_bind, value_lift, Except.bind, padded, value_pure]
  | padding stage =>
      rw [load, stage]
      simp only [value_bind, value_lift, Except.bind, padded, value_pure]

theorem abandon_value {owed nibbles : Nat}
    (discards : Discards now sequencer source after)
    (owes : sequencer.preambleOwed = .ok owed)
    (total : sequencer.plan.jamNibbles + owed = nibbles)
    (room : nibbles < countLimit) :
    (sequencer.abandon now source).value =
      .ok (sequencer.jammed nibbles, after,
        if nibbles = 0 then some .jammed else none) := by
  have jams : ({ sequencer with aborting := false } : Sequencer).beginJam.value =
      .ok (sequencer.jammed nibbles, if nibbles = 0 then some .jammed else none) :=
    beginJam_value owes total room
  unfold abandon
  cases discards with
  | unasked notData =>
      dsimp only
      split
      · rename_i data
        exact absurd data notData
      · simp only [value_bind, value_pure, jams, Except.bind]
  | asked data pulled supplied =>
      dsimp only
      split
      · simp only [value_bind, value_lift, pulled, Except.bind, if_neg supplied, jams,
          value_pure]
      · rename_i notData
        exact absurd data notData

/-- A byte boundary brings what the list offers. -/
theorem Boundary.value
    (boundary : Boundary now sequencer source loaded after ending)
    (room : loaded.Room) :
    (sequencer.boundary now source).value = .ok (loaded, after, ending) := by
  cases boundary with
  | preamble stage missing calm =>
      rw [boundary_of_calm calm, load, stage]
      simp only [if_pos missing, value_pure]
  | octet pulling pulled calm =>
      rw [boundary_of_calm calm, load_of_pulling pulling]
      exact loadData_octet pulled room.length
  | starved pulling pulled calm =>
      rw [boundary_of_calm calm, load_of_pulling pulling]
      exact loadData_starved pulled
  | pad exhausted short calm =>
      rw [boundary_of_calm calm]
      exact load_exhausted exhausted (loadPad_of_short short room.length)
  | firstCheck exhausted full place calm =>
      rw [boundary_of_calm calm]
      exact load_exhausted exhausted (loadPad_of_full full place)
  | check stage place calm =>
      rw [boundary_of_calm calm, load, stage]
      simp only [loadTrailer_of_place place, value_pure]
  | sent stage complete calm =>
      rw [boundary_of_calm calm, load, stage]
      simp only [loadTrailer_of_complete complete, value_pure]
  | marked stage =>
      rw [boundary_of_unabortable (by rw [stage]; rfl), load, stage]
      rfl
  | jamming stage =>
      rw [boundary_of_unabortable (by rw [stage]; rfl), load, stage]
      rfl
  | jamOver stage =>
      rw [boundary_of_unabortable (by rw [stage]; rfl), load, stage]
      rfl
  | abandoned aborting abortable discards owes total ends =>
      rw [boundary_of_pending aborting abortable, ends]
      exact abandon_value discards owes total (room.jam _ rfl)
  | abandonedStarved aborting stage pulled =>
      rw [boundary_of_pending aborting (by rw [stage]; rfl), abandon]
      simp only [stage, value_bind, value_lift, pulled, Except.bind, if_pos, value_record,
        value_pure]
      rfl

/-! ## Steps -/

theorem sample_value (sequencer : Sequencer) (collision clockEnable : Bool) :
    (sequencer.sample collision clockEnable).value =
      .ok (sequencer.sampled collision, sequencer.shown collision clockEnable) := by
  obtain ⟨⟨next, step⟩, samples⟩ := sample_succeeds sequencer collision clockEnable
  obtain ⟨rfl, rfl, _⟩ := sample_yields 0 (yields_of_value samples)
  exact samples

theorem present_value
    (elapsed : loaded.elapsed + 1 < wideLimit)
    (nibbles : loaded.nibbles + 1 < countLimit)
    (unfinished : loaded.stage ≠ .jam 0) :
    (loaded.present collision).value =
      .ok (loaded.driving.sampled collision, loaded.driving.shown collision true) := by
  have succeeds : (loaded.present collision).Succeeds :=
    present_succeeds elapsed nibbles unfinished
  obtain ⟨⟨next, step⟩, presents⟩ := succeeds
  obtain ⟨_, rfl, rfl, _⟩ := present_yields 0 (yields_of_value presents)
  exact presents

theorem step_active
    (active : sequencer.stage ≠ .idle)
    (positive : 0 < sequencer.plan.nibbleTicks) :
    (sequencer.step now collision source).value =
      if sequencer.elapsed % sequencer.plan.nibbleTicks ≠ 0 then
        ((sequencer.hold collision).value.map fun (next, step) => (next, source, step))
      else if sequencer.highNext then
        ((sequencer.present collision).value.map fun (next, step) => (next, source, step))
      else
        (sequencer.stepBoundary now collision source).value := by
  have phase : checkedMod sequencer.elapsed sequencer.plan.nibbleTicks =
      .ok (sequencer.elapsed % sequencer.plan.nibbleTicks) :=
    checkedMod_eq_ok_iff.mpr ⟨Nat.ne_of_gt positive, rfl⟩
  rw [Sequencer.step, if_neg active, phase]
  simp only [value_bind, value_lift, Except.bind]
  split
  · rw [value_bind]
    cases (sequencer.hold collision).value <;> rfl
  · split
    · rw [value_bind]
      cases (sequencer.present collision).value <;> rfl
    · rfl

/-- A tick between two nibbles. -/
theorem step_holds
    (active : sequencer.stage ≠ .idle)
    (positive : 0 < sequencer.plan.nibbleTicks)
    (between : sequencer.elapsed % sequencer.plan.nibbleTicks ≠ 0)
    (elapsed : sequencer.elapsed + 1 < wideLimit) :
    (sequencer.step now collision source).value =
      .ok (sequencer.holding.sampled collision, source,
        sequencer.holding.shown collision false) := by
  rw [step_active active positive, if_pos between, hold, checkedAdd_of_lt elapsed]
  simp only [value_bind, value_lift, Except.bind]
  rw [show ({ sequencer with elapsed := sequencer.elapsed + 1 } : Sequencer) =
    sequencer.holding from rfl, sample_value]
  rfl

/-- A tick with the second nibble of a byte. -/
theorem step_continues
    (active : sequencer.stage ≠ .idle)
    (positive : 0 < sequencer.plan.nibbleTicks)
    (due : sequencer.elapsed % sequencer.plan.nibbleTicks = 0)
    (high : sequencer.highNext = true)
    (unfinished : sequencer.stage ≠ .jam 0)
    (elapsed : sequencer.elapsed + 1 < wideLimit)
    (nibbles : sequencer.nibbles + 1 < countLimit) :
    (sequencer.step now collision source).value =
      .ok (sequencer.driving.sampled collision, source,
        sequencer.driving.shown collision true) := by
  rw [step_active active positive, if_neg (Decidable.not_not.mpr due), if_pos high,
    present_value elapsed nibbles unfinished]
  rfl

/-- A tick with the first nibble after a byte boundary. -/
theorem step_begins
    (active : sequencer.stage ≠ .idle)
    (positive : 0 < sequencer.plan.nibbleTicks)
    (due : sequencer.elapsed % sequencer.plan.nibbleTicks = 0)
    (low : sequencer.highNext = false)
    (boundary : Boundary now sequencer source loaded after none)
    (room : loaded.Room)
    (elapsed : sequencer.elapsed + 1 < wideLimit)
    (nibbles : sequencer.nibbles + 1 < countLimit) :
    (sequencer.step now collision source).value =
      .ok (loaded.driving.sampled collision, after,
        loaded.driving.shown collision true) := by
  obtain ⟨_, _, sameElapsed, sameNibbles⟩ := boundary.counters
  have presents : (loaded.present collision).value =
      .ok (loaded.driving.sampled collision, loaded.driving.shown collision true) :=
    present_value (sameElapsed ▸ elapsed) (sameNibbles ▸ nibbles) boundary.unfinished
  rw [step_active active positive, if_neg (Decidable.not_not.mpr due),
    if_neg (by rw [low]; exact Bool.false_ne_true), stepBoundary]
  simp only [value_bind, boundary.value room, Except.bind, presents, value_pure]

/-- The first tick of an attempt presents the first nibble of the preamble. -/
theorem step_start
    (nibblePositive : 0 < sequencer.plan.nibbleTicks)
    (preamblePositive : 0 < sequencer.plan.preambleBytes)
    (now : Tick) (collision : Bool) (source : σ) :
    (sequencer.start.step now collision source).value =
      .ok (sequencer.start.loadPreamble.driving.sampled collision, source,
        sequencer.start.loadPreamble.driving.shown collision true) := by
  have boundary : Boundary now sequencer.start source sequencer.start.loadPreamble
      source none :=
    .preamble rfl preamblePositive rfl
  have first : 0 + 1 < wideLimit := by decide
  have firstNibble : 0 + 1 < countLimit := by decide
  have room : sequencer.start.loadPreamble.Room := ⟨Nat.lt_of_succ_lt first, nofun⟩
  exact step_begins nofun nibblePositive (Nat.zero_mod _) rfl boundary room first firstNibble

/-- The tick after the last nibble. -/
theorem step_ends {ending : Ending}
    (active : sequencer.stage ≠ .idle)
    (positive : 0 < sequencer.plan.nibbleTicks)
    (due : sequencer.elapsed % sequencer.plan.nibbleTicks = 0)
    (low : sequencer.highNext = false)
    (boundary : Boundary now sequencer source loaded after (some ending))
    (room : loaded.Room) :
    (sequencer.step now collision source).value =
      .ok (loaded.rest, after, { ending := some ending }) := by
  rw [step_active active positive, if_neg (Decidable.not_not.mpr due),
    if_neg (by rw [low]; exact Bool.false_ne_true), stepBoundary]
  simp only [value_bind, boundary.value room, Except.bind, value_record, value_pure]

end Source

end Sequencer

end HalfDuplex
