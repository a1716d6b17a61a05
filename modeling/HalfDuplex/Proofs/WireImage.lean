import HalfDuplex.Proofs.Course
import HalfDuplex.Proofs.Scenario

/-!
# The wire image of an attempt that is sent

An attempt without a collision, on a source that supplies its octets in time, shows the image
of its frame: preamble and delimiter, the octets, padding and checksum, each byte with its low
nibble first.  It ends on the tick after the last nibble, and on no tick before.

Main result: `Trial.shows_wire_image`.
-/

namespace HalfDuplex

namespace Trial

variable {σ : Type} [ByteSource σ]

/-- The attempt shows the image of some nibbles, reports the collision that was noticed and no
other one, and ends on the tick after its last nibble. -/
structure Runs (trial : Trial σ) (noticed : Option Nat) (nibbles : List Signals)
    (finish : Nat) (ending : Ending) : Prop where
  lasts : nibbles.length * trial.nibbleTicks = finish
  shown : ∀ tick < finish, trial.shows tick = .ok {
    signals := lineImage trial.nibbleTicks nibbles tick
    collided := decide (noticed = some tick) }
  ended : trial.shows finish = .ok { ending := some ending }

variable {trial : Trial σ} {sequencer loaded : Sequencer} {source after : σ}
  {noticed : Option Nat} {nibbles : List Signals} {octets bytes : List Octet} {cursor : Nat}

/-- An attempt runs to the byte boundary that ends it. -/
theorem HasDriven.runs {ending : Ending}
    (positive : 0 < trial.nibbleTicks)
    (active : sequencer.stage ≠ .idle)
    (low : sequencer.highNext = false)
    (boundary : Sequencer.Boundary (trial.reading (nibbles.length * trial.nibbleTicks))
      sequencer source loaded after (some ending))
    (room : loaded.Room)
    (driven : trial.HasDriven noticed nibbles sequencer source) :
    trial.Runs noticed nibbles (nibbles.length * trial.nibbleTicks) ending :=
  ⟨rfl, driven.shown, (driven.ends positive active low boundary room).1⟩

/-- An attempt that has begun all bytes of its frame is in the last of them. -/
theorem Writes.complete
    (regular : trial.sequencer.plan.Regular)
    (length : bytes.length = (trial.frame octets).length)
    (writes : trial.Writes noticed octets bytes sequencer source cursor) :
    sequencer.stage = .trailer ∧ sequencer.position = Checksum.trailerLength ∧
      sequencer.length = max octets.length trial.sequencer.plan.minFrame := by
  have plan := writes.driven.plan
  have abortable := writes.stands.abortable
  have trailer : 0 < Checksum.trailerLength := by decide
  rw [length_frameOctets regular.preamblePositive] at length
  cases stage : sequencer.stage with
  | idle | underflow | jam => simp [stage, Stage.abortable] at abortable
  | preamble =>
      obtain ⟨begun, within, _⟩ := writes.placed.of_preamble stage
      rw [plan] at within
      omega
  | data =>
      obtain ⟨begun, read, _, _, _, rfl⟩ := writes.stands.of_data stage
      have lengths := congrArg List.length read
      rw [List.length_take, List.length_map, List.length_map] at lengths
      rw [List.length_append, plan, length_preambleOctets regular.preamblePositive] at length
      omega
  | pad =>
      obtain ⟨begun, zeros, _, _, within, _, rfl⟩ := writes.stands.of_pad stage
      rw [plan] at within
      rw [List.length_append, List.length_append, List.length_replicate, plan,
        length_preambleOctets regular.preamblePositive] at length
      omega
  | trailer =>
      have begun := writes.length_of_trailer regular stage
      have placed := writes.placed.of_trailer stage
      have within := writes.placed.position_le stage
      rw [plan] at placed
      exact ⟨rfl, by omega, by omega⟩

/-- Without a collision an attempt on a source that supplies its octets is sent. -/
theorem Finishes.runs
    (regular : trial.sequencer.plan.Regular)
    (finishes : trial.Finishes octets)
    (calm : ∀ tick < (trial.frame octets).length * trial.byteTicks,
      trial.collision tick = false)
    (few : 2 * (trial.frame octets).length < countLimit) :
    trial.Runs none (drivenNibbles (trial.frame octets))
        ((trial.frame octets).length * trial.byteTicks) .sent ∧
      ∃ last source,
        trial.entering ((trial.frame octets).length * trial.byteTicks + 1) =
          .ok (last, source) ∧
        last.length = max octets.length trial.sequencer.plan.minFrame := by
  obtain ⟨sequencer, source, cursor, writes, quiet⟩ := writes_of_quiet regular
    finishes.supplies (.inr finishes.finished) (Nat.le_refl _) calm few
  rw [List.take_length] at writes
  obtain ⟨stage, complete, length⟩ := writes.complete regular rfl
  have room : sequencer.Room := by
    have short := writes.placed.length_le
    have wide : countLimit ≤ wideLimit := by decide
    exact ⟨by omega, fun nibbles jam => by cases stage.symm.trans jam⟩
  have boundary : Sequencer.Boundary
      (trial.reading ((drivenNibbles (trial.frame octets)).length * trial.nibbleTicks))
      sequencer source sequencer source (some .sent) := .sent stage (Nat.le_of_eq complete.symm) quiet
  have runs := writes.driven.runs regular.nibblePositive writes.active writes.low boundary room
  have ends := writes.driven.ends regular.nibblePositive writes.active writes.low boundary room
  rw [drivenTicks] at runs ends
  exact ⟨runs, _, _, ends.2, length⟩

/-- The bytes of a frame one by one: preamble, delimiter, octets, zeros, and the checksum of
octets and zeros, in which a corrupted octet counts as zero. -/
theorem frameOctets_eq (preambleBytes minFrame : Nat) (octets : List Octet) :
    frameOctets preambleBytes minFrame octets =
      List.replicate (preambleBytes - 1) (.byte 0x55) ++ [.byte 0xD5] ++
        (octets ++ List.replicate (minFrame - octets.length) (.byte 0)) ++
        (Checksum.encode (Checksum.ofBytes (octets.map Octet.value ++
          List.replicate (minFrame - octets.length) 0))).map .byte := by
  have values : (paddedOctets minFrame octets).map Octet.value =
      octets.map Octet.value ++ List.replicate (minFrame - octets.length) 0 := by
    rw [paddedOctets, List.map_append, List.map_replicate]
    rfl
  rw [← values]
  rfl

/-- An attempt without a collision, on a source that supplies some octets in time and is then
over, drives preamble and delimiter, the octets, zeros up to the least length and the checksum.
It is sent on the tick after its last nibble, and has then counted octets and zeros. -/
theorem shows_wire_image {config : Config}
    (trial : Trial σ)
    (octets : List Octet)
    (even : config.byteTime % 2 = 0)
    (long : 2 ≤ config.byteTime)
    (preamble : config.preambleBytes ≠ 0)
    (planned : LinePlan.ofConfig config = .ok trial.sequencer.plan)
    (finishes : trial.Finishes octets)
    (calm : ∀ tick < (config.preambleBytes.toNat +
      max octets.length config.minFrameBytes.toNat + 4) * config.byteTime,
        trial.collision tick = false)
    (few : 2 * (config.preambleBytes.toNat +
      max octets.length config.minFrameBytes.toNat + 4) < countLimit) :
    ∃ frame : List Octet,
      frame = List.replicate (config.preambleBytes.toNat - 1) (.byte 0x55) ++ [.byte 0xD5] ++
        (octets ++ List.replicate (config.minFrameBytes.toNat - octets.length) (.byte 0)) ++
        (Checksum.encode (Checksum.ofBytes (octets.map Octet.value ++
          List.replicate (config.minFrameBytes.toNat - octets.length) 0))).map .byte ∧
      (∀ tick < (config.preambleBytes.toNat +
          max octets.length config.minFrameBytes.toNat + 4) * config.byteTime,
        trial.shows tick = .ok {
          signals := lineImage config.nibbleTicks (drivenNibbles frame) tick }) ∧
      trial.shows ((config.preambleBytes.toNat +
          max octets.length config.minFrameBytes.toNat + 4) * config.byteTime) =
        .ok { signals := .quiet, ending := some .sent } ∧
      ∃ last source,
        trial.entering ((config.preambleBytes.toNat +
            max octets.length config.minFrameBytes.toNat + 4) * config.byteTime + 1) =
          .ok (last, source) ∧
        last.length = max octets.length config.minFrameBytes.toNat := by
  have plan := LinePlan.ofConfig_eq_ok planned
  have regular := LinePlan.regular_of_ofConfig long preamble planned
  have byteTime : trial.byteTicks = config.byteTime := by
    show 2 * trial.sequencer.plan.nibbleTicks = config.byteTime
    rw [plan]
    exact Nat.mul_div_cancel' (Nat.dvd_of_mod_eq_zero even)
  have nibbleTime : trial.nibbleTicks = config.nibbleTicks := by
    show trial.sequencer.plan.nibbleTicks = _
    rw [plan]
  have frame : trial.frame octets =
      frameOctets config.preambleBytes.toNat config.minFrameBytes.toNat octets := by
    rw [Trial.frame, plan]
  have length : (trial.frame octets).length =
      config.preambleBytes.toNat + max octets.length config.minFrameBytes.toNat + 4 := by
    rw [length_frameOctets regular.preamblePositive, plan]
    rfl
  rw [← length, ← byteTime] at calm
  rw [← length] at few
  obtain ⟨runs, last, source, entering, lengthLast⟩ := finishes.runs regular calm few
  rw [length, byteTime] at runs entering
  refine ⟨trial.frame octets, by rw [frame, frameOctets_eq], fun tick before => ?_, runs.ended,
    last, source, entering, ?_⟩
  · rw [runs.shown tick before, nibbleTime]
    rfl
  · rw [lengthLast, plan]

/-- Timing with two bytes of preamble and frames of at least three bytes. -/
def padding : Config :=
  { Config.brief with preambleBytes := 2, minFrameBytes := 3 }

/-- An attempt of a sequencer that was left in the middle of another one, on a frame of which
one octet was corrupted. -/
def padded : Trial ScriptedSource where
  sequencer := {
    plan := {
      nibbleTicks := 1
      preambleBytes := 2
      preambleNibbles := 4
      jamNibbles := 2
      minFrame := 3 }
    stage := .data
    elapsed := 7
    aborting := true
    highNext := true }
  source := { frames := [{ entries := [.octet (.byte 0x42), .octet .poisoned] }] }
  reading := fun tick => 100 + tick
  collision := fun _ => false

/-- Nine bytes in eighteen ticks, of which the fourth is driven with the error signal. -/
theorem sends_padded :
    padding.byteTime % 2 = 0 ∧ padded.Finishes [.byte 0x42, .poisoned] ∧
      padded.shows 18 = .ok { signals := .quiet, ending := some .sent } ∧
      padded.shows 7 =
        .ok { signals := { clockEnable := true, enable := true, error := true } } := by
  have finishes : padded.Finishes [.byte 0x42, .poisoned] := by
    refine ⟨fun place octet found => ?_, rfl⟩
    match place with
    | 0 =>
        cases found
        rfl
    | 1 =>
        cases found
        rfl
    | place + 2 => cases found
  have even : padding.byteTime % 2 = 0 := rfl
  obtain ⟨frame, rfl, shown, ended, _⟩ := shows_wire_image padded [.byte 0x42, .poisoned] even
    (by decide) (by decide) rfl finishes (fun _ _ => rfl) (by decide)
  exact ⟨even, finishes, ended, shown 7 (by decide)⟩

end Trial

end HalfDuplex
