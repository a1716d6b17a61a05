import HalfDuplex.Proofs.Burst
import HalfDuplex.Proofs.Pace

/-!
# The transcript of an attempt

`Sequencer.Transcript` says which nibbles an attempt has driven so far.  As long as nothing
stops it these are the nibbles of the bytes that it has begun.  After that they are
followed by the error marker, or by as much of the jam as was driven.

Each tick adds the nibble that is shown on it, and an attempt that ends has driven a
`Burst`.
-/

namespace HalfDuplex

namespace Sequencer

/-- The nibbles that an attempt has driven, by what it is doing. -/
inductive Transcript (sequencer : Sequencer) (front : List ScriptEntry) (cursor : Nat) :
    List (Option UInt8) → Prop
  | writes {bytes : List Octet}
      (writes : sequencer.Writes front cursor bytes) :
      Transcript sequencer front cursor (sequencer.sentNibbles bytes)
  | marks (octets : List Octet)
      (stage : sequencer.stage = .underflow)
      (last : sequencer.highNext = true → sequencer.current = .poisoned) :
      Transcript sequencer front cursor
        (sequencer.sentNibbles
          (preambleOctets sequencer.plan.preambleBytes ++ octets ++ [.poisoned]))
  | jams {bytes : List Octet} {driven remaining : Nat}
      (jams : sequencer.Jams remaining)
      (low : sequencer.highNext = false)
      (begun : bytes <+:
        frameOctets sequencer.plan.preambleBytes sequencer.plan.minFrame (octetsOf front))
      (total : driven + remaining = sequencer.jamLength bytes.length) :
      Transcript sequencer front cursor
        (wireNibbles bytes ++ List.replicate driven (some jamNibble))

/-- The nibbles of an attempt of this sequencer, from its first one to its last one. -/
abbrev Bursts (sequencer : Sequencer) (jamBytes : Nat) (front : List ScriptEntry) :
    Ending → List (Option UInt8) → Prop :=
  Burst sequencer.plan.preambleBytes sequencer.plan.minFrame jamBytes front

variable {σ : Type} [ByteSource σ] [FrameStore σ] {now : Tick} {collision : Bool}
  {sequencer next loaded : Sequencer} {source after : σ} {step : SequencerStep}
  {front : List ScriptEntry} {rest : List (List ScriptEntry)} {bytes : List Octet}
  {cursor : Nat} {nibbles : List (Option UInt8)}

/-- What an attempt has begun is the beginning of its frame. -/
theorem Stands.begins (stands : sequencer.Stands front cursor bytes) :
    bytes <+:
      frameOctets sequencer.plan.preambleBytes sequencer.plan.minFrame (octetsOf front) := by
  unfold frameOctets
  cases stands with
  | preamble stage within =>
      rw [List.append_assoc]
      exact (List.take_prefix _ _).trans (List.prefix_append _ _)
  | @data octets stage begun read =>
      have early : octets <+: octetsOf front := by
        have taken : octetsOf (front.take octets.length) = octets := by
          rw [read, octetsOf_map]
        rw [← taken]
        exact (List.take_prefix _ _).filterMap _
      rw [List.append_assoc, List.prefix_append_right_inj, paddedOctets, List.append_assoc]
      exact early.trans (List.prefix_append _ _)
  | @pad octets zeros stage whole length within =>
      have fewer : List.replicate zeros (Octet.byte 0) <+:
          List.replicate (sequencer.plan.minFrame - octets.length) (.byte 0) := by
        refine ⟨List.replicate (sequencer.plan.minFrame - octets.length - zeros) (.byte 0), ?_⟩
        rw [← List.replicate_add]
        congr 1
        omega
      rw [whole, octetsOf_map, List.append_assoc, List.prefix_append_right_inj, paddedOctets,
        List.append_assoc, List.prefix_append_right_inj]
      exact fewer.trans (List.prefix_append _ _)
  | trailer stage whole within checksum =>
      rw [whole, octetsOf_map, checksum, List.prefix_append_right_inj]
      exact (List.take_prefix _ _).map _

/-- At a byte boundary the preamble is owed as far as it was not begun. -/
theorem Stands.preambleOwed_eq
    (positive : 0 < sequencer.plan.preambleBytes)
    (whole : sequencer.plan.preambleNibbles = 2 * sequencer.plan.preambleBytes)
    (driven : sequencer.nibbles = 2 * bytes.length)
    (stands : sequencer.Stands front cursor bytes) :
    sequencer.preambleOwed = .ok (2 * (sequencer.plan.preambleBytes - bytes.length)) := by
  have length := length_preambleOctets positive
  have opened (more : List Octet) : sequencer.plan.preambleBytes ≤
      (preambleOctets sequencer.plan.preambleBytes ++ more).length := by
    rw [List.length_append, length]
    exact Nat.le_add_right _ _
  cases stands with
  | preamble stage within unread blank =>
      have begun : ((preambleOctets sequencer.plan.preambleBytes).take
          sequencer.position).length = sequencer.position := by
        rw [List.length_take, length]
        exact Nat.min_eq_left within
      rw [begun] at driven ⊢
      exact (Placed.preamble stage within blank).preambleOwed_eq whole driven
  | data stage => exact preambleOwed_of_opened (by simp [stage]) (opened _)
  | pad stage => exact preambleOwed_of_opened (by simp [stage]) (opened _)
  | trailer stage =>
      rw [List.append_assoc]
      exact preambleOwed_of_opened (by simp [stage]) (opened _)

/-! ## Ticks -/

theorem sentNibbles_of_low (low : sequencer.highNext = false) :
    sequencer.sentNibbles bytes = wireNibbles bytes := by
  rw [sentNibbles, low, if_neg Bool.false_ne_true]

theorem abortable_driving (abortable : sequencer.stage.abortable = true) :
    (sequencer.driving.sampled collision).stage.abortable = true := by
  show sequencer.driving.stage.abortable = true
  rw [driving_stage (abortable_unjammed abortable)]
  exact abortable

/-- A tick between two nibbles changes nothing. -/
theorem Transcript.holding
    (between : sequencer.elapsed % sequencer.plan.nibbleTicks ≠ 0)
    (transcript : sequencer.Transcript front cursor nibbles) :
    (sequencer.holding.sampled collision).Transcript front cursor nibbles := by
  cases transcript with
  | writes writes =>
      exact .writes ⟨writes.stands.keep (sequencer.level_holding collision),
        writes.paced.holding between, writes.last⟩
  | marks octets stage last => exact .marks octets stage last
  | jams jams low begun total => exact .jams ⟨jams.stage, jams.unmarked⟩ low begun total

/-- The first nibble of the error marker. -/
theorem Transcript.beginsMarker (octets : List Octet)
    (low : sequencer.highNext = false)
    (same : loaded.highNext = sequencer.highNext)
    (plan : loaded.plan = sequencer.plan)
    (stage : loaded.stage = .underflow)
    (marker : loaded.current = .poisoned) :
    (loaded.driving.sampled collision).Transcript front cursor
      (sequencer.sentNibbles (preambleOctets sequencer.plan.preambleBytes ++ octets) ++
        newNibbles (loaded.driving.shown collision true).signals) := by
  have unjammed : ∀ remaining, loaded.stage ≠ .jam remaining := by simp [stage]
  rw [← sentNibbles_begin low same unjammed, marker, ← plan]
  exact .marks octets ((driving_stage unjammed).trans stage) fun _ => marker

/-- A nibble of the jam. -/
theorem Transcript.drivesJam {driven remaining : Nat}
    (jams : loaded.Jams (remaining + 1))
    (low : loaded.highNext = false)
    (begun : bytes <+:
      frameOctets loaded.plan.preambleBytes loaded.plan.minFrame (octetsOf front))
    (total : driven + (remaining + 1) = loaded.jamLength bytes.length) :
    (loaded.driving.sampled collision).Transcript front cursor
      (wireNibbles bytes ++ List.replicate driven (some jamNibble) ++
        newNibbles (loaded.driving.shown collision true).signals) := by
  have jamsNext : (loaded.driving.sampled collision).Jams remaining :=
    ⟨jams.driving.stage, jams.driving.unmarked⟩
  have lowNext : (loaded.driving.sampled collision).highNext = false := by
    show loaded.nextHigh = false
    rw [nextHigh, jams.stage, low]
  have signals : (loaded.driving.shown collision true).signals =
      { clockEnable := true, enable := true, data := jamNibble } := by
    show { loaded.dueSignals with clockEnable := true } = _
    rw [jams.dueSignals]
  have totalNext : (driven + 1) + remaining = loaded.jamLength bytes.length := by
    rw [← total, Nat.add_assoc, Nat.add_comm 1]
  rw [signals, List.append_assoc]
  show (loaded.driving.sampled collision).Transcript front cursor
    (wireNibbles bytes ++ (List.replicate driven (some jamNibble) ++ [some jamNibble]))
  rw [← List.replicate_succ']
  exact .jams jamsNext lowNext begun totalNext

/-- An attempt that is about to be lost drives the first nibble of the marker or of the jam. -/
theorem Writes.loses
    (positive : 0 < sequencer.plan.preambleBytes)
    (whole : sequencer.plan.preambleNibbles = 2 * sequencer.plan.preambleBytes)
    (low : sequencer.highNext = false)
    (boundary : Boundary now sequencer source loaded after none)
    (notOver : loaded.stage ≠ .jam 0)
    (lost : (loaded.driving.sampled collision).Lost)
    (writes : sequencer.Writes front cursor bytes) :
    (loaded.driving.sampled collision).Transcript front (FrameStore.cursor after)
      (sequencer.sentNibbles bytes ++
        newNibbles (loaded.driving.shown collision true).signals) := by
  have abortable := writes.stands.abortable
  -- A lost attempt cannot be aborted any more, which leaves the marker and the jam.
  have unlost {goal : Prop} (abortable : loaded.stage.abortable = true) : goal := by
    cases lost.not_abortable.symm.trans (abortable_driving abortable)
  cases boundary with
  | octet | pad | firstCheck => exact unlost rfl
  | preamble | check => exact unlost abortable
  | starved pulling =>
      obtain ⟨octets, _, _, _, _, rfl⟩ := writes.stands.pulling positive pulling
      exact .beginsMarker octets low rfl rfl rfl rfl
  | abandonedStarved aborting stage =>
      obtain ⟨octets, _, _, _, _, rfl⟩ := writes.stands.of_data stage
      exact .beginsMarker octets low rfl rfl rfl rfl
  | jamming stage => simp [stage, Stage.abortable] at abortable
  | @abandoned _ owed nibbles _ aborting _ discards owes total ends =>
      obtain ⟨remaining, rfl⟩ : ∃ remaining, nibbles = remaining + 1 := by
        refine Nat.exists_eq_succ_of_ne_zero ?_
        rintro rfl
        exact notOver rfl
      have driven := writes.paced.nibbles_of_low low
      rw [writes.stands.preambleOwed_eq positive whole driven, Except.ok.injEq] at owes
      have jamTotal : 0 + (remaining + 1) = (sequencer.jammed (remaining + 1)).jamLength
          bytes.length := by
        rw [Nat.zero_add, ← total, ← owes]
        rfl
      have transcript : ((sequencer.jammed (remaining + 1)).driving.sampled collision).Transcript
          front (FrameStore.cursor after) _ :=
        .drivesJam ⟨rfl, rfl⟩ low writes.stands.begins jamTotal
      rw [sentNibbles_of_low low]
      rwa [List.replicate_zero, List.append_nil] at transcript

/-- How a tick extends the transcript of an attempt. -/
inductive Extends (sequencer next : Sequencer) (jamBytes : Nat) (front : List ScriptEntry)
    (cursor : Nat) (nibbles : List (Option UInt8)) (step : SequencerStep) : Prop
  | goesOn
      (unended : step.ending = none)
      (transcript : next.Transcript front cursor (nibbles ++ newNibbles step.signals))
  | ends {ending : Ending}
      (ended : step.ending = some ending)
      (burst : sequencer.Bursts jamBytes front ending nibbles)

omit [FrameStore σ] in
/-- An attempt that a collision ends without a jam has driven the beginning of its frame. -/
theorem Writes.endsJammed {jamBytes : Nat}
    (positive : 0 < sequencer.plan.preambleBytes)
    (whole : sequencer.plan.preambleNibbles = 2 * sequencer.plan.preambleBytes)
    (jam : sequencer.plan.jamNibbles = 2 * jamBytes)
    (low : sequencer.highNext = false)
    (boundary : Boundary now sequencer source loaded after (some .jammed))
    (writes : sequencer.Writes front cursor bytes) :
    sequencer.Bursts jamBytes front .jammed (sequencer.sentNibbles bytes) := by
  have abortable := writes.stands.abortable
  generalize found : some Ending.jammed = ending at boundary
  cases boundary with
  | preamble | octet | starved | pad | firstCheck | check | sent | marked | jamming
    | abandonedStarved => cases found
  | jamOver stage => simp [stage, Stage.abortable] at abortable
  | @abandoned _ owed nibbles _ aborting _ discards owes total ends =>
      have empty : nibbles = 0 := by
        refine Decidable.byContradiction fun nonempty => ?_
        rw [← found, if_neg nonempty] at ends
        cases ends
      have driven := writes.paced.nibbles_of_low low
      rw [writes.stands.preambleOwed_eq positive whole driven, Except.ok.injEq] at owes
      have unjammed :
          2 * (jamBytes + (sequencer.plan.preambleBytes - bytes.length)) = 0 := by
        omega
      have burst : sequencer.Bursts jamBytes front .jammed _ :=
        .jammed writes.stands.begins
      rw [unjammed, List.replicate_zero, List.append_nil] at burst
      rwa [sentNibbles_of_low low]

theorem Writes.extends {jamBytes : Nat}
    (preamblePositive : 0 < sequencer.plan.preambleBytes)
    (nibblePositive : 0 < sequencer.plan.nibbleTicks)
    (whole : sequencer.plan.preambleNibbles = 2 * sequencer.plan.preambleBytes)
    (jam : sequencer.plan.jamNibbles = 2 * jamBytes)
    (held : FrameStore.frames source = front :: rest)
    (moves : Moves now collision sequencer source next after step)
    (writes : sequencer.Writes front (FrameStore.cursor source) bytes) :
    sequencer.Extends next jamBytes front (FrameStore.cursor after)
      (sequencer.sentNibbles bytes) step := by
  have abortable := writes.stands.abortable
  cases writes.moves preamblePositive nibblePositive held moves with
  | writes more writesNext unended nibbles =>
      refine .goesOn unended ?_
      rw [← nibbles]
      exact .writes writesNext
  | lost lost unended =>
      have unabortable := lost.not_abortable
      cases moves with
      | rests idle => cases unabortable.symm.trans abortable
      | holds => cases unabortable.symm.trans abortable
      | continues => cases unabortable.symm.trans (abortable_driving abortable)
      | begins active due low boundary notOver =>
          exact .goesOn rfl
            (writes.loses preamblePositive whole low boundary notOver lost)
      | ends => cases unended
  | sent ended wholeFrame complete completes taken =>
      refine .ends ended ?_
      rw [taken, complete]
      exact .sent wholeFrame
  | jammed ended =>
      cases moves with
      | rests | holds | continues | begins => cases ended
      | ends active due low boundary =>
          cases ended
          exact .ends rfl (writes.endsJammed preamblePositive whole jam low boundary)

omit [FrameStore σ] in
/-- The error marker goes on, or the attempt ends after it. -/
theorem marks_extends {jamBytes : Nat} (octets : List Octet)
    (stage : sequencer.stage = .underflow)
    (last : sequencer.highNext = true → sequencer.current = .poisoned)
    (moves : Moves now collision sequencer source next after step) :
    sequencer.Extends next jamBytes front cursor
      (sequencer.sentNibbles
        (preambleOctets sequencer.plan.preambleBytes ++ octets ++ [.poisoned])) step := by
  cases moves with
  | rests idle => cases idle.symm.trans stage
  | holds active between =>
      refine .goesOn rfl ?_
      rw [show newNibbles _ = [] from rfl, List.append_nil]
      exact (Transcript.marks octets stage last).holding between
  | continues active due high notOver =>
      have unjammed : ∀ remaining, sequencer.stage ≠ .jam remaining := by simp [stage]
      refine .goesOn rfl ?_
      rw [← sentNibbles_continue high unjammed
        (by rw [last high]; exact List.getLast?_concat)]
      have lowNext : (sequencer.driving.sampled collision).highNext = false := by
        show sequencer.nextHigh = false
        rw [nextHigh_of_unjammed unjammed, high, Bool.not_true]
      refine .marks octets ((driving_stage unjammed).trans stage) fun highNext => ?_
      cases lowNext.symm.trans highNext
  | begins active due low boundary notOver =>
      obtain ⟨_, ended⟩ := marked_boundary stage boundary
      cases ended
  | ends active due low boundary =>
      obtain ⟨_, ended⟩ := marked_boundary stage boundary
      cases ended
      refine .ends rfl ?_
      rw [sentNibbles_of_low low]
      exact .underflow octets

omit [FrameStore σ] in
/-- The jam goes on, or the attempt ends when it was driven in full. -/
theorem jams_extends {jamBytes driven remaining : Nat}
    (jam : sequencer.plan.jamNibbles = 2 * jamBytes)
    (jams : sequencer.Jams remaining)
    (low : sequencer.highNext = false)
    (begun : bytes <+:
      frameOctets sequencer.plan.preambleBytes sequencer.plan.minFrame (octetsOf front))
    (total : driven + remaining = sequencer.jamLength bytes.length)
    (moves : Moves now collision sequencer source next after step) :
    sequencer.Extends next jamBytes front cursor
      (wireNibbles bytes ++ List.replicate driven (some jamNibble)) step := by
  cases moves with
  | rests idle => cases idle.symm.trans jams.stage
  | holds active between =>
      refine .goesOn rfl ?_
      rw [show newNibbles _ = [] from rfl, List.append_nil]
      exact (Transcript.jams jams low begun total).holding between
  | continues active due high => cases high.symm.trans low
  | begins active due _ boundary notOver =>
      obtain ⟨rfl, ⟨_, ended⟩ | ⟨nonempty, _⟩⟩ := jam_boundary jams.stage boundary
      · cases ended
      · obtain ⟨less, rfl⟩ := Nat.exists_eq_succ_of_ne_zero nonempty
        exact .goesOn rfl (.drivesJam jams low begun total)
  | ends active due _ boundary =>
      obtain ⟨_, ⟨rfl, ended⟩ | ⟨_, unended⟩⟩ := jam_boundary jams.stage boundary
      · cases ended
        have all : driven = 2 * (jamBytes + (sequencer.plan.preambleBytes - bytes.length)) := by
          rw [jamLength] at total
          omega
        refine .ends rfl ?_
        rw [all]
        exact .jammed begun
      · cases unended

/-- A tick adds the nibble that is shown on it to the transcript, and an attempt that ends has
driven a burst. -/
theorem Transcript.moves {jamBytes : Nat}
    (preamblePositive : 0 < sequencer.plan.preambleBytes)
    (nibblePositive : 0 < sequencer.plan.nibbleTicks)
    (whole : sequencer.plan.preambleNibbles = 2 * sequencer.plan.preambleBytes)
    (jam : sequencer.plan.jamNibbles = 2 * jamBytes)
    (held : FrameStore.frames source = front :: rest)
    (moves : Moves now collision sequencer source next after step)
    (transcript : sequencer.Transcript front (FrameStore.cursor source) nibbles) :
    sequencer.Extends next jamBytes front (FrameStore.cursor after) nibbles step := by
  cases transcript with
  | writes writes => exact writes.extends preamblePositive nibblePositive whole jam held moves
  | marks octets stage last => exact marks_extends octets stage last moves
  | jams jams low begun total => exact jams_extends jam jams low begun total moves

end Sequencer

end HalfDuplex
