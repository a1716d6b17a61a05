import HalfDuplex.Proofs.Burst
import HalfDuplex.Proofs.CutShort
import HalfDuplex.Proofs.Delivery

/-!
# Reception of attempts that are cut short

A receiver that samples an attempt from its first tick to the first one without transmit enable
takes each of its nibbles once, however long they are held, and ends with one burst.  `Verdict`
says what it makes of the burst of an attempt that was not sent.

A jam of four bytes of `0x55` reads as a checksum.  It makes what was driven of the frame pass
for a frame exactly if that happens to have this checksum, and never if the frame was driven in
full.  In front of the delimiter the jam looks like more preamble, so that nothing is received.

Main result: `Trial.receives_cut_short`.
-/

namespace HalfDuplex

/-! ## A burst on the line -/

namespace Receiver

/-- The receiver in a burst of which it has taken some nibbles. -/
def taking (receiver : Receiver) (start : Tick) (nibbles : List Signals) : Receiver :=
  { receiver with active := some start, nibbles := (nibbles.map nibble).toArray }

/-- The receiver after a burst of some nibbles. -/
def took (receiver : Receiver) (start finish : Tick) (nibbles : List Signals) : Receiver :=
  { receiver with
    active := none
    nibbles := (nibbles.map nibble).toArray
    bursts := receiver.bursts.push {
      start
      finish
      result := Reception.decode (nibbles.map nibble) receiver.minLength } }

variable {receiver : Receiver} {now start : Tick} {signals : Signals} {nibbles : List Signals}

/-- A receiver never faults. -/
theorem value_sample (receiver : Receiver) (now : Tick) (signals : Signals) :
    (receiver.sample now signals).value = .ok (receiver.sampled now signals) := by
  unfold sampled
  cases active : receiver.active <;> cases enabled : signals.enable <;>
    simp only [sample, active, enabled] <;> rfl

theorem sampled_first
    (silent : receiver.active = none)
    (enabled : signals.enable = true) :
    receiver.sampled now { signals with clockEnable := true } =
      receiver.taking now [signals] :=
  sampled_begin silent enabled

/-- A receiver in a burst takes a nibble when it begins, and not when it is held. -/
theorem sampled_taking (begins : Bool) (enabled : signals.enable = true) :
    (receiver.taking start nibbles).sampled now { signals with clockEnable := begins } =
      receiver.taking start (if begins then nibbles ++ [signals] else nibbles) := by
  have active : (receiver.taking start nibbles).active = some start := rfl
  have driven : ({ signals with clockEnable := begins } : Signals).enable = true := enabled
  rw [sampled_go_on active driven]
  cases begins with
  | true =>
      rw [if_pos rfl]
      unfold taking
      rw [List.map_append]
      rfl
  | false =>
      rw [Sequencer.newNibbles, if_neg Bool.false_ne_true, List.append_nil]
      rfl

theorem sampled_quiet :
    (receiver.taking start nibbles).sampled now .quiet = receiver.took start now nibbles :=
  sampled_finish rfl rfl

end Receiver

namespace Trial

variable {σ : Type} [ByteSource σ]

/-- A receiver after it sampled what the attempt shows on a number of ticks. -/
def received (trial : Trial σ) (receiver : Receiver) : (count : Nat) → Except Fault Receiver
  | 0 => .ok receiver
  | count + 1 => do
      let before ← trial.received receiver count
      let step ← trial.shows count
      (before.sample (trial.reading count) step.signals).value

variable {trial : Trial σ} {receiver before : Receiver} {step : SequencerStep}
  {noticed : Option Nat} {nibbles : List Signals} {finish : Nat} {ending : Ending}

theorem received_succ {count : Nat}
    (received : trial.received receiver count = .ok before)
    (shown : trial.shows count = .ok step) :
    trial.received receiver (count + 1) =
      .ok (before.sampled (trial.reading count) step.signals) := by
  rw [Trial.received, received, shown]
  exact Receiver.value_sample _ _ _

/-- Each tick before the last shows a nibble, and begins it or holds it. -/
theorem Runs.shows_nibble {tick : Nat}
    (positive : 0 < trial.nibbleTicks)
    (before : tick < finish)
    (runs : trial.Runs noticed nibbles finish ending) :
    ∃ place : tick / trial.nibbleTicks < nibbles.length, trial.shows tick = .ok {
      signals := { nibbles[tick / trial.nibbleTicks] with
        clockEnable := decide (tick % trial.nibbleTicks = 0) }
      collided := decide (noticed = some tick) } := by
  have place : tick / trial.nibbleTicks < nibbles.length :=
    (Nat.div_lt_iff_lt_mul positive).mpr (runs.lasts ▸ before)
  refine ⟨place, ?_⟩
  rw [runs.shown tick before, lineImage, List.getElem?_eq_getElem place]

/-- After a tick of the attempt the receiver has taken the nibbles that were begun. -/
theorem Runs.taking {tick : Nat}
    (positive : 0 < trial.nibbleTicks)
    (enabled : ∀ signals ∈ nibbles, signals.enable = true)
    (silent : receiver.active = none)
    (before : tick < finish)
    (runs : trial.Runs noticed nibbles finish ending) :
    trial.received receiver (tick + 1) =
      .ok (receiver.taking (trial.reading 0) (nibbles.take (tick / trial.nibbleTicks + 1))) := by
  obtain ⟨place, shown⟩ := runs.shows_nibble positive before
  have driven := enabled _ (List.getElem_mem place)
  -- The nibble on the line stands apart, because only its first tick adds it to what was taken.
  rw [List.take_succ_eq_append_getElem place]
  induction tick with
  | zero =>
      rw [Nat.zero_mod, decide_eq_true rfl] at shown
      have first : nibbles.take (0 / trial.nibbleTicks) = [] := by
        rw [Nat.zero_div, List.take_zero]
      rw [received_succ rfl shown, Receiver.sampled_first silent driven, first, List.nil_append]
  | succ tick inductionHypothesis =>
      have earlier : tick < finish := Nat.lt_of_succ_lt before
      obtain ⟨placeBefore, shownBefore⟩ := runs.shows_nibble positive earlier
      have taken := inductionHypothesis earlier placeBefore shownBefore
        (enabled _ (List.getElem_mem placeBefore))
      rw [← List.take_succ_eq_append_getElem placeBefore] at taken
      rw [received_succ taken shown]
      by_cases begins : (tick + 1) % trial.nibbleTicks = 0
      · have next : (tick + 1) / trial.nibbleTicks = tick / trial.nibbleTicks + 1 := by
          rw [Nat.succ_div, if_pos (Nat.dvd_of_mod_eq_zero begins)]
        rw [Receiver.sampled_taking _ driven, decide_eq_true begins, if_pos rfl, ← next]
      · have same : (tick + 1) / trial.nibbleTicks = tick / trial.nibbleTicks := by
          rw [Nat.succ_div, if_neg fun divides => begins (Nat.mod_eq_zero_of_dvd divides)]
          rfl
        rw [Receiver.sampled_taking _ driven, decide_eq_false begins, if_neg Bool.false_ne_true,
          ← List.take_succ_eq_append_getElem place, same]

/-- A receiver that samples an attempt with its first quiet tick takes the nibbles of the attempt
as one burst. -/
theorem Runs.took
    (positive : 0 < trial.nibbleTicks)
    (begun : 0 < finish)
    (enabled : ∀ signals ∈ nibbles, signals.enable = true)
    (silent : receiver.active = none)
    (runs : trial.Runs noticed nibbles finish ending) :
    trial.received receiver (finish + 1) =
      .ok (receiver.took (trial.reading 0) (trial.reading finish) nibbles) := by
  have lasts := runs.lasts
  obtain ⟨last, rfl⟩ : ∃ last, finish = last + 1 := Nat.exists_eq_add_one.mpr begun
  have all : nibbles.length ≤ last / trial.nibbleTicks + 1 := by
    have within : nibbles.length - 1 ≤ last / trial.nibbleTicks := by
      rw [Nat.le_div_iff_mul_le positive, Nat.sub_mul, Nat.one_mul, lasts]
      exact Nat.sub_le_of_le_add (Nat.add_le_add_left positive last)
    omega
  have taken := runs.taking positive enabled silent (Nat.lt_succ_self last)
  rw [List.take_of_length_le all] at taken
  rw [received_succ taken runs.ended]
  exact congrArg Except.ok Receiver.sampled_quiet

end Trial

/-! ## What is made of the burst -/

theorem nibble_drivenNibbles (octets : List Octet) :
    (drivenNibbles octets).map Receiver.nibble = wireNibbles octets := by
  induction octets with
  | nil => rfl
  | cons octet octets inductionHypothesis =>
      show Receiver.nibble (octet.drives false) :: Receiver.nibble (octet.drives true) ::
        (drivenNibbles octets).map Receiver.nibble = octet.halves ++ wireNibbles octets
      rw [inductionHypothesis, Sequencer.nibble_drives, Sequencer.nibble_drives]
      rfl

theorem Octet.clean?_injective : Function.Injective Octet.clean? := by
  intro octet other same
  cases octet <;> cases other <;> cases same <;> rfl

/-- What was driven tells the octets. -/
theorem drivenNibbles_injective : Function.Injective drivenNibbles := by
  intro octets others same
  have paired := congrArg (Reception.pairNibbles ∘ List.map Receiver.nibble) same
  simp only [Function.comp_apply, nibble_drivenNibbles, pairNibbles_wireNibbles] at paired
  exact List.map_injective_iff.mpr Octet.clean?_injective paired

theorem enable_of_mem_drivenNibbles {octets : List Octet} {signals : Signals}
    (member : signals ∈ drivenNibbles octets) :
    signals.enable = true := by
  obtain ⟨octet, _, half⟩ := List.mem_flatMap.mp member
  rcases List.mem_pair.mp half with rfl | rfl <;> rfl

/-- What a receiver makes of the part of a frame that was driven before a jam of four bytes. -/
def partVerdict (minFrame : Nat) (part : List Octet) : Except ReceiveError (List UInt8) :=
  if Octet.poisoned ∈ part ∨ Checksum.ofBytes (part.map Octet.value) ≠ 0x55555555 then
    .error .frameCheck
  else if part.length < minFrame then
    .error .padding
  else
    .ok (part.map Octet.value)

namespace Reception

/-- Four bytes of a jam are the trailer of one checksum. -/
theorem openFrame_jammed (data : List UInt8) (minFrame : Nat) :
    openFrame (data ++ List.replicate 4 jamByte) (minFrame + 4) =
      if Checksum.ofBytes data ≠ 0x55555555 then .error .frameCheck
      else if data.length < minFrame then .error .padding
      else .ok data := by
  have trailer : List.replicate 4 jamByte = Checksum.encode 0x55555555 := by decide
  simp only [trailer, openFrame_append_encode, Checksum.trailerLength,
    Nat.add_lt_add_iff_right, ne_comm]

/-- Corrupted octets are noticed, whatever follows them. -/
theorem decode_poisoned {preambleBytes minLength : Nat} {cut : List Octet} (jam : Nat)
    (poisoned : Octet.poisoned ∈ cut) :
    decode (wireNibbles (preambleOctets preambleBytes ++ cut) ++
        List.replicate (2 * jam) (some jamNibble)) minLength =
      .error .frameCheck := by
  have even := even_jammed (preambleOctets preambleBytes ++ cut) jam
  have jammed : cut.map Octet.clean? ++ List.replicate jam (some jamByte) =
      (cut ++ List.replicate jam (Octet.byte jamByte)).map Octet.clean? := by
    rw [List.map_append, List.map_replicate]
    rfl
  rw [decode, if_neg (Decidable.not_not.mpr even), pairNibbles_wireNibbles_append,
    pairNibbles_jam, List.map_append, List.append_assoc, afterDelimiter_preambleOctets, jammed]
  simp only [cleanBytes_of_poisoned (List.mem_append_left _ poisoned)]

/-- After a complete preamble a jam of four bytes is taken as the checksum of what precedes. -/
theorem decode_part {preambleBytes minFrame : Nat} (part : List Octet) :
    decode (wireNibbles (preambleOctets preambleBytes ++ part) ++
        List.replicate (2 * 4) (some jamNibble)) (minFrame + 4) =
      partVerdict minFrame part := by
  unfold partVerdict
  by_cases poisoned : Octet.poisoned ∈ part
  · rw [decode_poisoned 4 poisoned, if_pos (.inl poisoned)]
  · have clean : ∀ octet ∈ part, octet.isPoisoned = false := by
      intro octet member
      cases octet with
      | byte value => rfl
      | poisoned => exact absurd member poisoned
    rw [decode_preamble_jam 4 clean, openFrame_jammed, List.length_map]
    simp only [poisoned, false_or]

end Reception

/-- The checksum of a frame is not that of the frame with its checksum. -/
theorem partVerdict_sealed (minFrame : Nat) (octets : List Octet) :
    partVerdict minFrame (octets ++ (checksumOf octets).trailer.map .byte) =
      .error .frameCheck := by
  have other : Checksum.intactResidual ≠ 0x55555555 := by decide
  rw [partVerdict, if_pos]
  right
  rwa [map_value_sealed, Checksum.residual_sealed]

namespace Trial

/-- What a receiver makes of an attempt that was cut short.  After a collision in time it depends
on the part of the frame that was driven between the delimiter and the jam. -/
inductive Verdict (byteTicks preambleBytes minFrame : Nat) :
    Option Nat → List Signals → Ending → Except ReceiveError (List UInt8) → Prop
  | underflow {noticed : Option Nat} {nibbles : List Signals} :
      Verdict byteTicks preambleBytes minFrame noticed nibbles .underflow (.error .frameCheck)
  | preamble {struck : Nat} {nibbles : List Signals}
      (early : struck < (preambleBytes - 1) * byteTicks) :
      Verdict byteTicks preambleBytes minFrame (some struck) nibbles .jammed
        (.error .noDelimiter)
  | part {struck : Nat} {part : List Octet}
      (late : (preambleBytes - 1) * byteTicks ≤ struck) :
      Verdict byteTicks preambleBytes minFrame (some struck)
        (drivenNibbles (preambleOctets preambleBytes ++ part) ++
          List.replicate (2 * 4) jamSignals) .jammed
        (partVerdict minFrame part)

variable {σ : Type} [ByteSource σ] {trial : Trial σ} {receiver : Receiver}
  {noticed : Option Nat} {nibbles : List Signals} {finish : Nat} {ending : Ending}
  {byteTicks preambleBytes minFrame jamBytes : Nat}
  {result : Except ReceiveError (List UInt8)}

theorem Verdict.of_underflow
    (verdict : Verdict byteTicks preambleBytes minFrame noticed nibbles .underflow result) :
    result = .error .frameCheck := by
  cases verdict
  rfl

/-- After a collision that leaves the preamble complete, the part that was driven decides. -/
theorem Verdict.of_part {struck : Nat} {part : List Octet}
    (late : (preambleBytes - 1) * byteTicks ≤ struck)
    (driven : nibbles = drivenNibbles (preambleOctets preambleBytes ++ part) ++
      List.replicate (2 * 4) jamSignals)
    (verdict : Verdict byteTicks preambleBytes minFrame (some struck) nibbles .jammed result) :
    result = partVerdict minFrame part := by
  cases verdict with
  | preamble early => exact absurd early (Nat.not_lt.mpr late)
  | part =>
      have same := drivenNibbles_injective (List.append_cancel_right driven)
      rw [List.append_cancel_left same]

/-- The nibbles of an attempt always pair up. -/
theorem Verdict.ne_alignment
    (verdict : Verdict byteTicks preambleBytes minFrame noticed nibbles ending result) :
    result ≠ .error .alignment := by
  cases verdict with
  | underflow | preamble => nofun
  | part late =>
      unfold partVerdict
      split
      · nofun
      · split <;> nofun

/-- Everything that an attempt drives is driven with transmit enable. -/
theorem Fate.enabled
    (fate : trial.Fate byteTicks preambleBytes jamBytes noticed nibbles finish ending) :
    ∀ signals ∈ nibbles, signals.enable = true := by
  intro signals member
  cases fate with
  | sent | starved | starvedFirst => exact enable_of_mem_drivenNibbles member
  | jammed =>
      rcases List.mem_append.mp member with inFrame | inJam
      · exact enable_of_mem_drivenNibbles inFrame
      · rw [List.eq_of_mem_replicate inJam]
        rfl

theorem Fate.finish_pos
    (regular : trial.sequencer.plan.Regular)
    (fate : trial.Fate trial.byteTicks trial.sequencer.plan.preambleBytes jamBytes noticed nibbles
      finish ending) :
    0 < finish := by
  have positive : 0 < trial.byteTicks := Nat.mul_pos (by decide) regular.nibblePositive
  have preamble := regular.preamblePositive
  cases fate with
  | sent =>
      rw [length_frameOctets preamble]
      exact Nat.mul_pos (by omega) positive
  | starved | starvedFirst | jammed => exact Nat.mul_pos (by omega) positive

/-- A receiver makes of an attempt that was cut short what the verdict on it says. -/
theorem Fate.verdict
    (regular : trial.sequencer.plan.Regular)
    (cut : ending ≠ .sent)
    (fate : trial.Fate trial.byteTicks trial.sequencer.plan.preambleBytes 4 noticed nibbles
      finish ending) :
    Verdict trial.byteTicks trial.sequencer.plan.preambleBytes trial.sequencer.plan.minFrame
      noticed nibbles ending (Reception.decode (nibbles.map Receiver.nibble)
        (trial.sequencer.plan.minFrame + 4)) := by
  have positive : 0 < trial.byteTicks := Nat.mul_pos (by decide) regular.nibblePositive
  cases fate with
  | sent => exact absurd rfl cut
  | starved | starvedFirst =>
      rw [nibble_drivenNibbles, decode_marked]
      exact .underflow
  | @jammed octets struck supplies first inTime =>
      rcases Nat.lt_or_ge struck ((trial.sequencer.plan.preambleBytes - 1) * trial.byteTicks) with
        early | late
      · have begun : struck / trial.byteTicks + 1 < trial.sequencer.plan.preambleBytes :=
          Nat.lt_sub_iff_add_lt.mp ((Nat.div_lt_iff_lt_mul positive).mpr early)
        have length : ((preambleOctets trial.sequencer.plan.preambleBytes).take
            (struck / trial.byteTicks + 1)).length = struck / trial.byteTicks + 1 := by
          rw [List.length_take, length_preambleOctets regular.preamblePositive]
          omega
        rw [take_frame_early octets regular (Nat.le_of_lt begun), List.map_append,
          nibble_drivenNibbles, List.map_replicate]
        show Verdict _ _ _ _ _ _ (Reception.decode
          (_ ++ List.replicate _ (some jamNibble)) _)
        rw [decode_cut_preamble _ (List.take_prefix _ _) (by rwa [length])]
        exact .preamble early
      · have begun : trial.sequencer.plan.preambleBytes ≤ struck / trial.byteTicks + 1 :=
          Nat.sub_le_iff_le_add.mp ((Nat.le_div_iff_mul_le positive).mpr late)
        rw [take_frame_late octets regular begun, Nat.sub_eq_zero_of_le begun, List.map_append,
          nibble_drivenNibbles, List.map_replicate]
        show Verdict _ _ _ _ _ _ (Reception.decode
          (_ ++ List.replicate (2 * 4) (some jamNibble)) _)
        rw [Reception.decode_part]
        exact .part late

/-- A collision in the last byte of a frame leaves the frame complete, followed by the jam. -/
theorem Fate.part_complete {octets : List Octet} {struck : Nat}
    (regular : trial.sequencer.plan.Regular)
    (finishes : trial.Finishes octets)
    (last : ((trial.frame octets).length - 1) * trial.byteTicks ≤ struck)
    (fate : trial.Fate trial.byteTicks trial.sequencer.plan.preambleBytes 4 (some struck) nibbles
      finish ending) :
    ending = .underflow ∨ ending = .jammed ∧ nibbles = drivenNibbles (preambleOctets
      trial.sequencer.plan.preambleBytes ++ trial.sealedOctets octets) ++
        List.replicate (2 * 4) jamSignals := by
  have positive : 0 < trial.byteTicks := Nat.mul_pos (by decide) regular.nibblePositive
  have length : (trial.frame octets).length = trial.sequencer.plan.preambleBytes +
      max octets.length trial.sequencer.plan.minFrame + Checksum.trailerLength :=
    length_frameOctets regular.preamblePositive _ _
  have trailer : Checksum.trailerLength = 4 := rfl
  have place := (Nat.le_div_iff_mul_le positive).mpr last
  cases fate with
  | starvedFirst => exact .inl rfl
  | @jammed others _ supplies first inTime =>
      refine .inr ⟨rfl, ?_⟩
      -- A collision before the last octets that the source supplies is not in the last byte.
      rcases inTime with ⟨finished, before⟩ | early
      · obtain rfl := finishes.unique ⟨supplies, finished⟩
        have all : (trial.frame others).length ≤ struck / trial.byteTicks + 1 :=
          Nat.sub_le_iff_le_add.mp place
        rw [List.take_of_length_le all, Nat.sub_eq_zero_of_le (by omega), frame_eq]
      · have atMost := finishes.length_le supplies
        have bytes := (Nat.div_lt_iff_lt_mul positive).mpr early
        omega

/-- A receiver with the least length of a frame that samples an attempt from its first tick to
the first quiet one, the attempt being cut short and its jam having four bytes, ends with one
burst.  What it makes of it is the verdict on the attempt.  A collision in the last byte of the
frame leaves nothing but a wrong checksum, and the nibbles always pair up. -/
theorem receives_cut_short {config : Config}
    (accepted : config.Accepted)
    (four : config.jamBytes = 4)
    (trial : Trial σ)
    (planned : LinePlan.ofConfig config = .ok trial.sequencer.plan)
    (receiver : Receiver)
    (silent : receiver.active = none)
    (least : receiver.minLength = config.minFrameBytes.toNat + 4)
    (few : nibbles.length < countLimit)
    (cut : ending ≠ .sent)
    (fate : trial.Fate config.byteTime config.preambleBytes.toNat config.jamBytes.toNat noticed
      nibbles finish ending) :
    trial.Runs noticed nibbles finish ending ∧
      ∃ result,
        trial.received receiver (finish + 1) = .ok { receiver with
          active := none
          nibbles := (nibbles.map Receiver.nibble).toArray
          bursts := receiver.bursts.push {
            start := trial.reading 0
            finish := trial.reading finish
            result } } ∧
        Verdict config.byteTime config.preambleBytes.toNat config.minFrameBytes.toNat noticed
          nibbles ending result ∧
        (∀ octets struck, trial.Finishes octets → noticed = some struck →
          ((trial.frame octets).length - 1) * config.byteTime ≤ struck →
            result = .error .frameCheck) ∧
        result ≠ .error .alignment := by
  have follows := LinePlan.follows_of_accepted accepted planned
  have regular := follows.regular
  have jam : config.jamBytes.toNat = 4 := congrArg UInt32.toNat four
  rw [follows.byteTime, follows.preamble] at fate ⊢
  rw [follows.minFrame] at least ⊢
  have runs := fate.runs regular follows.jam few
  rw [jam] at fate
  have verdict := fate.verdict regular cut
  have begun : 0 < finish := fate.finish_pos regular
  have took := runs.took regular.nibblePositive begun fate.enabled silent
  refine ⟨runs, _, took, ?_⟩
  rw [least]
  refine ⟨verdict, ?_, verdict.ne_alignment⟩
  rintro octets struck finishes rfl last
  rcases fate.part_complete regular finishes last with rfl | ⟨rfl, driven⟩
  · exact verdict.of_underflow
  · have late : (trial.sequencer.plan.preambleBytes - 1) * trial.byteTicks ≤ struck := by
      refine (Nat.mul_le_mul_right _ ?_).trans last
      rw [length_frameOctets regular.preamblePositive]
      omega
    rw [verdict.of_part late driven]
    exact partVerdict_sealed _ _

/-- An attempt on a frame of five octets, of which the first four have the checksum that a jam of
four bytes is taken for. -/
def forging (struck : Nat) : Trial ScriptedSource where
  sequencer := {
    plan := {
      nibbleTicks := 1
      preambleBytes := 2
      preambleNibbles := 4
      jamNibbles := 8
      minFrame := 0 } }
  source := {
    frames := [{ entries := [0x7C, 0xA4, 0xEB, 0xAA, 0x42].map (.octet ∘ .byte) }] }
  reading := fun tick => tick
  collision := fun tick => decide (tick = struck)

/-- A collision in the fourth octet makes a receiver take these octets for a frame, and one in
the last byte of the checksum does not. -/
theorem forging_receives :
    (∃ after, (forging 10).received { minLength := 4 } 21 = .ok after ∧
      after.bursts.toList.map (·.result) = [.ok [0x7C, 0xA4, 0xEB, 0xAA]]) ∧
    ∃ after, (forging 21).received { minLength := 4 } 31 = .ok after ∧
      after.bursts.toList.map (·.result) = [.error .frameCheck] := by
  have accepted : ({ Config.brief with preambleBytes := 2, jamBytes := 4 } : Config).Accepted := by
    decide
  have first (struck : Nat) : (forging struck).FirstCollision struck :=
    ⟨decide_eq_true rfl, fun tick before => decide_eq_false (Nat.ne_of_lt before)⟩
  have finishes (struck : Nat) :
      (forging struck).Finishes ([0x7C, 0xA4, 0xEB, 0xAA, 0x42].map .byte) := by
    refine ⟨fun place octet found => ?_, rfl⟩
    match place with
    | 0 | 1 | 2 | 3 | 4 =>
        cases found
        rfl
    | place + 5 => cases found
  have inPart : (forging 10).Fate 2 2 4 (some 10) _ _ .jammed :=
    .jammed (finishes 10).supplies (first 10) (.inl ⟨(finishes 10).finished, by decide⟩)
  have inTrailer : (forging 21).Fate 2 2 4 (some 21) _ _ .jammed :=
    .jammed (finishes 21).supplies (first 21) (.inl ⟨(finishes 21).finished, by decide⟩)
  constructor
  · obtain ⟨_, result, received, verdict, _⟩ := receives_cut_short accepted rfl (forging 10) rfl
      { minLength := 4 } rfl rfl (by decide) (by decide) inPart
    have part : result = partVerdict 0 ([0x7C, 0xA4, 0xEB, 0xAA].map .byte) :=
      verdict.of_part (by decide) (congrArg (drivenNibbles · ++ _)
        (show _ = preambleOctets 2 ++ [0x7C, 0xA4, 0xEB, 0xAA].map .byte by decide))
    have passes : partVerdict 0 ([0x7C, 0xA4, 0xEB, 0xAA].map .byte) =
        .ok [0x7C, 0xA4, 0xEB, 0xAA] := by
      decide +kernel
    refine ⟨_, received, ?_⟩
    rw [part, passes]
    rfl
  · obtain ⟨_, result, received, _, refused, _⟩ := receives_cut_short accepted rfl (forging 21) rfl
      { minLength := 4 } rfl rfl (by decide) (by decide) inTrailer
    refine ⟨_, received, ?_⟩
    rw [refused _ 21 (finishes 21) rfl (by decide)]
    rfl

end Trial

end HalfDuplex
