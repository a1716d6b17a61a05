import HalfDuplex.Proofs.Cadence
import HalfDuplex.Proofs.FrameStore
import HalfDuplex.Proofs.Wire
import HalfDuplex.Receiver

/-!
# The bytes of an attempt

`Sequencer.Stands` relates the stage of an attempt to the bytes that it has begun, as
long as nothing stops it, and `Sequencer.Writes` adds its pace: how far it is into the
last of these bytes.  Jam and error marker are outside of it; an attempt that gets there
is `Lost`, and it is never sent.

The place in the frame is the cursor of the source.  Pending collisions are no part of
the relation, because a collision changes nothing before the next byte boundary.
-/

namespace HalfDuplex

/-- The signals with which one half of an octet begins. -/
def Octet.drives (octet : Octet) (high : Bool) : Signals where
  clockEnable := true
  enable := true
  error := octet.isPoisoned
  data := if high then octet.highNibble else octet.lowNibble

namespace Sequencer

/-- The bytes that an attempt has begun, among which those of the frame in front. -/
inductive Stands (sequencer : Sequencer) (front : List ScriptEntry) (cursor : Nat) :
    List Octet → Prop
  | preamble
      (stage : sequencer.stage = .preamble)
      (within : sequencer.position ≤ sequencer.plan.preambleBytes)
      (unread : cursor = 0)
      (blank : sequencer.length = 0)
      (checksum : sequencer.checksum = checksumOf []) :
      Stands sequencer front cursor
        ((preambleOctets sequencer.plan.preambleBytes).take sequencer.position)
  | data {octets : List Octet}
      (stage : sequencer.stage = .data)
      (begun : octets ≠ [])
      (read : front.take octets.length = octets.map .octet)
      (place : cursor = octets.length)
      (length : sequencer.length = octets.length)
      (checksum : sequencer.checksum = checksumOf octets) :
      Stands sequencer front cursor (preambleOctets sequencer.plan.preambleBytes ++ octets)
  | pad {octets : List Octet} {zeros : Nat}
      (stage : sequencer.stage = .pad)
      (whole : front = octets.map .octet)
      (length : sequencer.length = octets.length + zeros)
      (within : octets.length + zeros ≤ sequencer.plan.minFrame)
      (checksum :
        sequencer.checksum = checksumOf (octets ++ List.replicate zeros (.byte 0))) :
      Stands sequencer front cursor
        (preambleOctets sequencer.plan.preambleBytes ++
          (octets ++ List.replicate zeros (.byte 0)))
  | trailer {octets : List Octet}
      (stage : sequencer.stage = .trailer)
      (whole : front = octets.map .octet)
      (within : sequencer.position ≤ Checksum.trailerLength)
      (checksum :
        sequencer.checksum = checksumOf (paddedOctets sequencer.plan.minFrame octets))
      (stored : sequencer.dueTrailer = sequencer.checksum.trailerBytes) :
      Stands sequencer front cursor
        (preambleOctets sequencer.plan.preambleBytes ++
            paddedOctets sequencer.plan.minFrame octets ++
          (sequencer.checksum.trailer.take sequencer.position).map .byte)

/-- The octets of the frame in front are over, of which `cursor` were pulled. -/
def Drained (sequencer : Sequencer) (front : List ScriptEntry) (cursor : Nat) : Prop :=
  sequencer.stage = .pad ∨ sequencer.Pulling ∧ front.length ≤ cursor

/-- The attempt can no longer be sent. -/
def Lost (sequencer : Sequencer) : Prop :=
  sequencer.stage = .underflow ∨ ∃ remaining, sequencer.stage = .jam remaining

/-- There is a reason not to begin another byte: a collision is pending, or the source
starves. -/
def Stopped {σ : Type} [ByteSource σ] (now : Tick) (sequencer : Sequencer) (source : σ) :
    Prop :=
  sequencer.aborting = true ∨ ∃ after, ByteSource.pull source now = .ok (after, .starved)

/-- What a byte boundary adds to the bytes of an attempt. -/
inductive Loads {σ : Type} [ByteSource σ] (now : Tick) (sequencer : Sequencer) (source : σ)
    (front : List ScriptEntry) (bytes : List Octet) (loaded : Sequencer) (cursor : Nat) :
    Option Ending → Prop
  | byte
      (stands : loaded.Stands front cursor (bytes ++ [loaded.current]))
      (calm : sequencer.aborting = false)
      (calmThen : loaded.aborting = false) :
      Loads now sequencer source front bytes loaded cursor none
  | lost
      (lost : loaded.Lost)
      (stopped : sequencer.Stopped now source) :
      Loads now sequencer source front bytes loaded cursor none
  | sent {octets : List Octet}
      (whole : front = octets.map .octet)
      (complete :
        bytes = frameOctets sequencer.plan.preambleBytes sequencer.plan.minFrame octets) :
      Loads now sequencer source front bytes loaded cursor (some .sent)
  | jammed
      (aborting : sequencer.aborting = true) :
      Loads now sequencer source front bytes loaded cursor (some .jammed)

theorem getElem?_preambleOctets {count sent : Nat} (within : sent < count) :
    (preambleOctets count)[sent]? =
      some (.byte (if sent + 1 = count then frameDelimiter else preambleByte)) := by
  unfold preambleOctets
  split
  · rename_i closing
    have last : sent = (List.replicate (count - 1) (Octet.byte preambleByte)).length := by
      rw [List.length_replicate]
      omega
    rw [last, List.getElem?_concat_length]
  · rename_i inside
    have early : sent < (List.replicate (count - 1) (Octet.byte preambleByte)).length := by
      rw [List.length_replicate]
      omega
    rw [List.getElem?_append_left early, List.getElem?_replicate, if_pos (by omega)]

theorem checksumOf_append (octets : List Octet) (octet : Octet) :
    checksumOf (octets ++ [octet]) = (checksumOf octets).update octet.value := by
  simp [checksumOf]

variable {σ : Type} [ByteSource σ] {now : Tick} {collision : Bool}
  {sequencer next loaded : Sequencer} {source after : σ} {step : SequencerStep}
  {front : List ScriptEntry} {rest : List (List ScriptEntry)} {bytes : List Octet}

theorem Lost.driving (lost : sequencer.Lost) : (sequencer.driving.sampled collision).Lost := by
  rcases lost with marker | ⟨remaining, jam⟩
  · left
    show sequencer.nextStage = .underflow
    rw [nextStage, marker]
  · right
    refine ⟨remaining - 1, ?_⟩
    show sequencer.nextStage = .jam (remaining - 1)
    rw [nextStage, jam]

theorem Lost.not_abortable (lost : sequencer.Lost) : sequencer.stage.abortable = false := by
  rcases lost with marker | ⟨remaining, jam⟩
  · rw [marker]
    rfl
  · rw [jam]
    rfl

theorem Lost.active (lost : sequencer.Lost) : sequencer.stage ≠ .idle := by
  intro idle
  rcases lost with marker | ⟨remaining, jam⟩
  · cases idle.symm.trans marker
  · cases idle.symm.trans jam

theorem Lost.boundary {ending : Option Ending}
    (boundary : Boundary now sequencer source loaded after ending)
    (lost : sequencer.Lost) :
    ending = none ∧ loaded.Lost ∨ ending = some .underflow ∨ ending = some .jammed := by
  have absurdly {goal : Prop} (abortable : sequencer.stage.abortable = true) : goal := by
    rw [lost.not_abortable] at abortable
    cases abortable
  cases boundary with
  | preamble stage => exact absurdly (by rw [stage]; rfl)
  | octet pulling => exact absurdly pulling.abortable
  | starved pulling => exact absurdly pulling.abortable
  | pad exhausted => exact absurdly exhausted.abortable
  | firstCheck exhausted => exact absurdly exhausted.abortable
  | check stage => exact absurdly (by rw [stage]; rfl)
  | sent stage => exact absurdly (by rw [stage]; rfl)
  | marked => exact .inr (.inl rfl)
  | jamming stage => exact .inl ⟨rfl, .inr ⟨_, stage⟩⟩
  | jamOver => exact .inr (.inr rfl)
  | abandoned aborting abortable => exact absurdly abortable
  | abandonedStarved aborting stage => exact absurdly (by rw [stage]; rfl)

/-- An attempt that is lost stays lost, and is not sent. -/
theorem Lost.moves
    (moves : Moves now collision sequencer source next after step)
    (lost : sequencer.Lost) :
    step.ending = none ∧ next.Lost ∨
      step.ending = some .underflow ∨ step.ending = some .jammed := by
  cases moves with
  | rests idle => exact absurd idle lost.active
  | holds active between => exact .inl ⟨rfl, lost⟩
  | continues active due high notOver => exact .inl ⟨rfl, lost.driving⟩
  | begins active due low boundary notOver =>
      rcases lost.boundary boundary with ⟨_, lostThen⟩ | underflow | jammed
      · exact .inl ⟨rfl, lostThen.driving⟩
      · cases underflow
      · cases jammed
  | ends active due low boundary =>
      rcases lost.boundary boundary with ⟨unended, _⟩ | underflow | jammed
      · cases unended
      · exact .inr (.inl underflow)
      · exact .inr (.inr jammed)

theorem Stands.abortable {cursor : Nat}
    (stands : sequencer.Stands front cursor bytes) :
    sequencer.stage.abortable = true := by
  cases stands with
  | preamble stage => simp [stage, Stage.abortable]
  | data stage => simp [stage, Stage.abortable]
  | pad stage => simp [stage, Stage.abortable]
  | trailer stage => simp [stage, Stage.abortable]

theorem Stands.of_preamble {cursor : Nat}
    (stage : sequencer.stage = .preamble)
    (stands : sequencer.Stands front cursor bytes) :
    cursor = 0 ∧ sequencer.length = 0 ∧ sequencer.checksum = checksumOf [] ∧
      bytes = (preambleOctets sequencer.plan.preambleBytes).take sequencer.position := by
  cases stands with
  | preamble begun within unread blank checksum => exact ⟨unread, blank, checksum, rfl⟩
  | data begun => cases stage.symm.trans begun
  | pad begun => cases stage.symm.trans begun
  | trailer begun => cases stage.symm.trans begun

theorem Stands.of_data {cursor : Nat}
    (stage : sequencer.stage = .data)
    (stands : sequencer.Stands front cursor bytes) :
    ∃ octets : List Octet, front.take octets.length = octets.map .octet ∧
      cursor = octets.length ∧ sequencer.length = octets.length ∧
      sequencer.checksum = checksumOf octets ∧
      bytes = preambleOctets sequencer.plan.preambleBytes ++ octets := by
  cases stands with
  | preamble begun => cases stage.symm.trans begun
  | data other begun read place length checksum =>
      exact ⟨_, read, place, length, checksum, rfl⟩
  | pad begun => cases stage.symm.trans begun
  | trailer begun => cases stage.symm.trans begun

theorem Stands.of_pad {cursor : Nat}
    (stage : sequencer.stage = .pad)
    (stands : sequencer.Stands front cursor bytes) :
    ∃ (octets : List Octet) (zeros : Nat), front = octets.map .octet ∧
      sequencer.length = octets.length + zeros ∧
      octets.length + zeros ≤ sequencer.plan.minFrame ∧
      sequencer.checksum = checksumOf (octets ++ List.replicate zeros (.byte 0)) ∧
      bytes = preambleOctets sequencer.plan.preambleBytes ++
        (octets ++ List.replicate zeros (.byte 0)) := by
  cases stands with
  | preamble begun => cases stage.symm.trans begun
  | data begun => cases stage.symm.trans begun
  | pad begun whole length within checksum =>
      exact ⟨_, _, whole, length, within, checksum, rfl⟩
  | trailer begun => cases stage.symm.trans begun

theorem Stands.of_trailer {cursor : Nat}
    (stage : sequencer.stage = .trailer)
    (stands : sequencer.Stands front cursor bytes) :
    ∃ octets : List Octet, front = octets.map .octet ∧
      sequencer.checksum = checksumOf (paddedOctets sequencer.plan.minFrame octets) ∧
      sequencer.dueTrailer = sequencer.checksum.trailerBytes ∧
      bytes = preambleOctets sequencer.plan.preambleBytes ++
          paddedOctets sequencer.plan.minFrame octets ++
        (sequencer.checksum.trailer.take sequencer.position).map .byte := by
  cases stands with
  | preamble begun => cases stage.symm.trans begun
  | data begun => cases stage.symm.trans begun
  | pad begun => cases stage.symm.trans begun
  | trailer begun whole within checksum stored => exact ⟨_, whole, checksum, stored, rfl⟩

/-- Among the octets of a frame at least one of them was begun. -/
theorem Stands.begun_of_data {cursor : Nat}
    (stage : sequencer.stage = .data)
    (stands : sequencer.Stands front cursor bytes) :
    0 < cursor := by
  cases stands with
  | preamble other => cases stage.symm.trans other
  | data other begun read place => exact place ▸ List.length_pos_iff.mpr begun
  | pad other => cases stage.symm.trans other
  | trailer other => cases stage.symm.trans other

/-- A sequencer that is about to pull has begun the preamble and the octets pulled so
far. -/
theorem Stands.pulling {cursor : Nat}
    (positive : 0 < sequencer.plan.preambleBytes)
    (pulling : sequencer.Pulling)
    (stands : sequencer.Stands front cursor bytes) :
    ∃ octets : List Octet, front.take octets.length = octets.map .octet ∧
      cursor = octets.length ∧ sequencer.length = octets.length ∧
      sequencer.checksum = checksumOf octets ∧
      bytes = preambleOctets sequencer.plan.preambleBytes ++ octets := by
  rcases pulling with data | ⟨preamble, complete⟩
  · exact stands.of_data data
  · obtain ⟨unread, blank, checksum, rfl⟩ := stands.of_preamble preamble
    refine ⟨[], rfl, unread, blank, checksum, ?_⟩
    rw [List.append_nil, List.take_of_length_le]
    rw [length_preambleOctets positive]
    exact complete

/-- When the octets of the frame are over, the frame and perhaps some padding was
begun. -/
theorem Stands.drained {cursor : Nat}
    (positive : 0 < sequencer.plan.preambleBytes)
    (drained : sequencer.Drained front cursor)
    (stands : sequencer.Stands front cursor bytes) :
    ∃ (octets : List Octet) (zeros : Nat), front = octets.map .octet ∧
      sequencer.length = octets.length + zeros ∧
      (zeros = 0 ∨ octets.length + zeros ≤ sequencer.plan.minFrame) ∧
      sequencer.checksum = checksumOf (octets ++ List.replicate zeros (.byte 0)) ∧
      bytes = preambleOctets sequencer.plan.preambleBytes ++
        (octets ++ List.replicate zeros (.byte 0)) := by
  rcases drained with padding | ⟨pulling, spent⟩
  · obtain ⟨octets, zeros, whole, length, within, checksum, begun⟩ := stands.of_pad padding
    exact ⟨octets, zeros, whole, length, .inr within, checksum, begun⟩
  · obtain ⟨octets, read, place, length, checksum, begun⟩ :=
      stands.pulling positive pulling
    have whole : front = octets.map .octet := by
      rw [← read, List.take_of_length_le (place ▸ spent)]
    exact ⟨octets, 0, whole, length, .inl rfl, by simpa using checksum, by simpa using begun⟩

theorem Stands.loadPreamble {cursor : Nat}
    (stage : sequencer.stage = .preamble)
    (missing : sequencer.position < sequencer.plan.preambleBytes)
    (stands : sequencer.Stands front cursor bytes) :
    sequencer.loadPreamble.Stands front cursor
      (bytes ++ [sequencer.loadPreamble.current]) := by
  obtain ⟨unread, blank, checksum, rfl⟩ := stands.of_preamble stage
  have longer : (preambleOctets sequencer.plan.preambleBytes).take sequencer.position ++
      [sequencer.loadPreamble.current] =
        (preambleOctets sequencer.plan.preambleBytes).take (sequencer.position + 1) := by
    rw [List.take_add_one, getElem?_preambleOctets missing]
    rfl
  rw [longer]
  exact .preamble stage missing unread blank checksum

theorem Stands.takesOctet {cursor : Nat} {octet : Octet}
    (positive : 0 < sequencer.plan.preambleBytes)
    (pulling : sequencer.Pulling)
    (found : front[cursor]? = some (.octet octet))
    (stands : sequencer.Stands front cursor bytes) :
    (sequencer.taken .data octet).Stands front (cursor + 1)
      (bytes ++ [(sequencer.taken .data octet).current]) := by
  rw [current_taken]
  obtain ⟨octets, read, place, length, checksum, rfl⟩ := stands.pulling positive pulling
  have longer : (octets ++ [octet]).length = octets.length + 1 := by
    rw [List.length_append, List.length_singleton]
  rw [List.append_assoc]
  refine .data rfl (List.concat_ne_nil _ _) ?_ ?_ ?_ ?_
  · rw [longer, List.take_add_one, read, ← place, found, List.map_append]
    rfl
  · rw [place, longer]
  · rw [longer, ← length]
    rfl
  · rw [checksumOf_append, ← checksum]
    rfl

theorem Stands.takesPadding {cursor : Nat} (position place : Nat)
    (positive : 0 < sequencer.plan.preambleBytes)
    (drained : sequencer.Drained front cursor)
    (short : sequencer.length < sequencer.plan.minFrame)
    (stands : sequencer.Stands front cursor bytes) :
    (taken { sequencer with position } .pad (.byte 0)).Stands front place
      (bytes ++ [.byte 0]) := by
  obtain ⟨octets, zeros, whole, length, within, checksum, rfl⟩ :=
    stands.drained positive drained
  have more : octets ++ List.replicate zeros (.byte 0) ++ [Octet.byte 0] =
      octets ++ List.replicate (zeros + 1) (.byte 0) := by
    rw [List.append_assoc, ← List.replicate_succ']
  rw [List.append_assoc, more]
  refine .pad rfl whole ?_ ?_ ?_
  · show sequencer.length + 1 = _
    omega
  · show _ ≤ sequencer.plan.minFrame
    omega
  · rw [← more, checksumOf_append, ← checksum]
    rfl

theorem Stands.checksFirst {cursor : Nat} {byte : UInt8} (place : Nat)
    (positive : 0 < sequencer.plan.preambleBytes)
    (drained : sequencer.Drained front cursor)
    (full : sequencer.plan.minFrame ≤ sequencer.length)
    (first : sequencer.checksum.trailer[0]? = some byte)
    (stands : sequencer.Stands front cursor bytes) :
    (sequencer.beginTrailer.checking byte).Stands front place (bytes ++ [.byte byte]) := by
  obtain ⟨octets, zeros, whole, length, within, checksum, rfl⟩ :=
    stands.drained positive drained
  have padding : zeros = sequencer.plan.minFrame - octets.length := by omega
  have padded : octets ++ List.replicate zeros (.byte 0) =
      paddedOctets sequencer.plan.minFrame octets := by
    rw [padding, paddedOctets]
  have trailer : (sequencer.checksum.trailer.take (0 + 1)).map Octet.byte = [.byte byte] := by
    rw [List.take_add_one, first]
    rfl
  rw [padded] at checksum ⊢
  rw [← trailer]
  exact .trailer rfl whole Checksum.trailerLength_pos checksum
    sequencer.dueTrailer_beginTrailer

theorem Stands.checks {cursor : Nat} {byte : UInt8}
    (stage : sequencer.stage = .trailer)
    (place : sequencer.dueTrailer[sequencer.position]? = some byte)
    (stands : sequencer.Stands front cursor bytes) :
    (sequencer.checking byte).Stands front cursor (bytes ++ [.byte byte]) := by
  obtain ⟨octets, whole, checksum, stored, rfl⟩ := stands.of_trailer stage
  obtain ⟨inside, _⟩ := Vector.getElem?_eq_some_iff.mp place
  rw [stored, Checksum.getElem?_trailerBytes] at place
  have more : (sequencer.checksum.trailer.take (sequencer.position + 1)).map Octet.byte =
      (sequencer.checksum.trailer.take sequencer.position).map Octet.byte ++ [.byte byte] := by
    rw [List.take_add_one, place, List.map_append]
    rfl
  rw [List.append_assoc, ← more]
  exact .trailer stage whole inside checksum stored

variable [FrameStore σ]

theorem Exhausted.drained {position : Nat}
    (held : FrameStore.frames source = front :: rest)
    (exhausted : Exhausted now sequencer source position after) :
    sequencer.Drained front (FrameStore.cursor source) := by
  cases exhausted with
  | finished pulling pulled =>
      obtain ⟨front', rest', held', spent⟩ := FrameStore.pull_finished _ _ _ pulled
      obtain ⟨rfl, rfl⟩ := List.cons.inj (held.symm.trans held')
      exact .inr ⟨pulling, spent⟩
  | padding padding => exact .inl padding

/-- A byte boundary adds a byte, loses the attempt, or ends it. -/
theorem Stands.boundary {ending : Option Ending}
    (positive : 0 < sequencer.plan.preambleBytes)
    (held : FrameStore.frames source = front :: rest)
    (boundary : Boundary now sequencer source loaded after ending)
    (stands : sequencer.Stands front (FrameStore.cursor source) bytes) :
    Loads now sequencer source front bytes loaded (FrameStore.cursor after) ending := by
  have abortable := stands.abortable
  cases boundary with
  | preamble stage missing calm => exact .byte (stands.loadPreamble stage missing) calm calm
  | octet pulling pulled calm =>
      obtain ⟨⟨front', rest', held', found⟩, advanced⟩ := FrameStore.pull_octet _ _ _ _ pulled
      obtain ⟨rfl, rfl⟩ := List.cons.inj (held.symm.trans held')
      rw [advanced]
      exact .byte (stands.takesOctet positive pulling found) calm calm
  | starved pulling pulled calm => exact .lost (.inl rfl) (.inr ⟨_, pulled⟩)
  | pad exhausted short calm =>
      exact .byte (stands.takesPadding _ _ positive (exhausted.drained held) short) calm calm
  | firstCheck exhausted full place calm =>
      exact .byte (stands.checksFirst _ positive (exhausted.drained held) full place) calm calm
  | check stage place calm => exact .byte (stands.checks stage place) calm calm
  | sent stage complete calm =>
      obtain ⟨octets, whole, checksum, _, rfl⟩ := stands.of_trailer stage
      refine .sent whole ?_
      rw [List.take_of_length_le (by rw [length_trailer]; exact complete), checksum,
        frameOctets]
  | marked stage => simp [stage, Stage.abortable] at abortable
  | jamming stage => simp [stage, Stage.abortable] at abortable
  | jamOver stage => simp [stage, Stage.abortable] at abortable
  | abandoned aborting abortable discards owes total ends =>
      subst ends
      split
      · exact .jammed aborting
      · exact .lost (.inr ⟨_, rfl⟩) (.inl aborting)
  | abandonedStarved aborting stage pulled => exact .lost (.inl rfl) (.inl aborting)

theorem Stands.keep {cursor : Nat}
    (stands : sequencer.Stands front cursor bytes)
    (level : sequencer.Level next) :
    next.Stands front cursor bytes := by
  obtain ⟨stage, plan, position, length, checksum, trailer⟩ := level
  cases stands with
  | preamble begun within unread blank unchecked =>
      rw [← plan, ← position] at within ⊢
      exact .preamble (stage.trans begun) within unread (length.trans blank)
        (checksum.trans unchecked)
  | data current begun read place lengthEqual checked =>
      rw [← plan]
      exact .data (stage.trans current) begun read place (length.trans lengthEqual)
        (checksum.trans checked)
  | pad begun whole lengthEqual within checked =>
      rw [← plan]
      exact .pad (stage.trans begun) whole (length.trans lengthEqual) (plan ▸ within)
        (checksum.trans checked)
  | trailer begun whole within checked stored =>
      have due : next.dueTrailer = sequencer.dueTrailer := by
        rw [dueTrailer, dueTrailer, position, checksum, trailer]
      rw [← plan, ← checksum, ← position]
      exact .trailer (stage.trans begun) whole (position ▸ within)
        (plan ▸ checksum.trans checked) (due.trans (checksum ▸ stored))

/-! ## The pace of an attempt -/

/-- An attempt that nothing stopped, with its bytes and its pace. -/
structure Writes (sequencer : Sequencer) (front : List ScriptEntry) (cursor : Nat)
    (bytes : List Octet) : Prop where
  stands : sequencer.Stands front cursor bytes
  paced : sequencer.Paced bytes.length
  last : sequencer.highNext = true → bytes.getLast? = some sequencer.current

/-- The nibbles that an attempt has driven of its bytes. -/
def sentNibbles (sequencer : Sequencer) (bytes : List Octet) : List (Option UInt8) :=
  if sequencer.highNext then (wireNibbles bytes).dropLast else wireNibbles bytes

/-- The nibble that a receiver takes on a tick, if there is a new one. -/
def newNibbles (signals : Signals) : List (Option UInt8) :=
  if signals.clockEnable then [Receiver.nibble signals] else []

/-! ## Ticks of an attempt -/

/-- A receiver takes a nibble as it is. -/
theorem nibble_of_lt {data : UInt8} (narrow : data < 16) : data &&& 0x0F = data := by
  apply UInt8.toNat_inj.mp
  rw [UInt8.toNat_and]
  show _ &&& (2 ^ 4 - 1) = _
  rw [Nat.and_two_pow_sub_one_eq_mod]
  exact Nat.mod_eq_of_lt (UInt8.lt_iff_toNat_lt.mp narrow)

/-- A receiver takes the halves of an octet as they are driven. -/
theorem nibble_drives (octet : Octet) (high : Bool) :
    Receiver.nibble (octet.drives high) = octet.half high := by
  unfold Receiver.nibble Octet.half Octet.drives
  dsimp only
  split
  · rfl
  · cases high with
    | false => exact congrArg some (nibble_of_lt octet.lowNibble_lt)
    | true => exact congrArg some (nibble_of_lt octet.highNibble_lt)

theorem dueNibble_of_unjammed (unjammed : ∀ remaining, sequencer.stage ≠ .jam remaining) :
    sequencer.dueNibble =
      if sequencer.highNext then sequencer.byte >>> 4 else sequencer.byte &&& 0x0F := by
  unfold dueNibble
  split
  · rename_i remaining stage
    exact absurd stage (unjammed remaining)
  · rfl

/-- A byte boundary marks no byte as an error but a zero. -/
theorem Boundary.zero_of_error {σ : Type} [ByteSource σ] {now : Tick} {source after : σ}
    {loaded : Sequencer}
    (boundary : Boundary now sequencer source loaded after none)
    (unjammed : ∀ remaining, loaded.stage ≠ .jam remaining)
    (error : loaded.error = true) :
    loaded.byte = 0 := by
  cases boundary with
  | preamble | pad | firstCheck | check => cases error
  | @octet _ octet =>
      cases octet with
      | byte value => cases error
      | poisoned => rfl
  | starved | abandonedStarved => rfl
  | jamming stage => exact absurd stage (unjammed _)
  | abandoned => exact absurd rfl (unjammed _)

/-- A byte is driven as the octet that it stands for, if its mark does not belie it. -/
theorem dueSignals_of_unjammed
    (unjammed : ∀ remaining, sequencer.stage ≠ .jam remaining)
    (zero : sequencer.error = true → sequencer.byte = 0) :
    sequencer.dueSignals = sequencer.current.drives sequencer.highNext := by
  rw [dueSignals, dueNibble_of_unjammed unjammed, current]
  cases marked : sequencer.error with
  | false => rfl
  | true =>
      rw [zero marked]
      rfl

/-- The nibble that is due is a half of the octet in flight, as a receiver takes it. -/
theorem nibble_dueSignals (unjammed : ∀ remaining, sequencer.stage ≠ .jam remaining) :
    Receiver.nibble sequencer.dueSignals = sequencer.current.half sequencer.highNext := by
  cases marked : sequencer.error with
  | false =>
      have zero : sequencer.error = true → sequencer.byte = 0 := by simp [marked]
      rw [dueSignals_of_unjammed unjammed zero, nibble_drives]
  | true =>
      rw [current, marked]
      exact if_pos marked

theorem sentNibbles_append_half
    (high : sequencer.highNext = true)
    (last : bytes.getLast? = some sequencer.current) :
    sequencer.sentNibbles bytes ++ [sequencer.current.half true] = wireNibbles bytes := by
  obtain ⟨earlier, rfl⟩ := List.getLast?_eq_some_iff.mp last
  rw [sentNibbles, if_pos high, wireNibbles_append, wireNibbles_singleton]
  simp

theorem dropLast_wireNibbles (bytes : List Octet) (octet : Octet) :
    (wireNibbles (bytes ++ [octet])).dropLast = wireNibbles bytes ++ [octet.half false] := by
  rw [wireNibbles_append, wireNibbles_singleton]
  simp

/-- The tick is the one on which the last of the bytes begun is over. -/
def Completes (sequencer : Sequencer) (bytes : List Octet) : Prop :=
  sequencer.elapsed = bytes.length * (2 * sequencer.plan.nibbleTicks)

/-- How a tick goes on with an attempt that nothing stopped so far. -/
inductive Goes {σ : Type} [ByteSource σ] (now : Tick) (sequencer : Sequencer) (source : σ)
    (front : List ScriptEntry) (bytes : List Octet) (next : Sequencer) (cursor : Nat)
    (step : SequencerStep) : Prop
  | writes (more : List Octet)
      (writes : next.Writes front cursor more)
      (unended : step.ending = none)
      (nibbles :
        next.sentNibbles more = sequencer.sentNibbles bytes ++ newNibbles step.signals)
      (pending : next.aborting = (sequencer.aborting || step.collided))
      (longer :
        more.length = bytes.length ∨
          more.length = bytes.length + 1 ∧ sequencer.aborting = false ∧
            sequencer.Completes bytes)
  | lost
      (lost : next.Lost)
      (unended : step.ending = none)
      (stopped : sequencer.Stopped now source)
      (completes : sequencer.Completes bytes)
  | sent {octets : List Octet}
      (ended : step.ending = some .sent)
      (whole : front = octets.map .octet)
      (complete :
        bytes = frameOctets sequencer.plan.preambleBytes sequencer.plan.minFrame octets)
      (completes : sequencer.Completes bytes)
      (nibbles : sequencer.sentNibbles bytes = wireNibbles bytes)
  | jammed
      (ended : step.ending = some .jammed)
      (aborting : sequencer.aborting = true)
      (completes : sequencer.Completes bytes)

theorem newNibbles_driving (unjammed : ∀ remaining, sequencer.stage ≠ .jam remaining) :
    newNibbles (sequencer.driving.shown collision true).signals =
      [sequencer.current.half sequencer.highNext] := by
  rw [← nibble_dueSignals unjammed]
  rfl

/-- The first nibble of the byte that a boundary took up. -/
theorem sentNibbles_begin
    (low : sequencer.highNext = false)
    (same : loaded.highNext = sequencer.highNext)
    (unjammed : ∀ remaining, loaded.stage ≠ .jam remaining) :
    (loaded.driving.sampled collision).sentNibbles (bytes ++ [loaded.current]) =
      sequencer.sentNibbles bytes ++
        newNibbles (loaded.driving.shown collision true).signals := by
  have highNext : loaded.nextHigh = true := by
    rw [nextHigh_of_unjammed unjammed, same, low, Bool.not_false]
  have before : sequencer.sentNibbles bytes = wireNibbles bytes :=
    if_neg (by rw [low]; exact Bool.false_ne_true)
  rw [newNibbles_driving unjammed, same, low, before, ← dropLast_wireNibbles]
  exact if_pos highNext

/-- The second nibble of the byte in flight. -/
theorem sentNibbles_continue
    (high : sequencer.highNext = true)
    (unjammed : ∀ remaining, sequencer.stage ≠ .jam remaining)
    (last : bytes.getLast? = some sequencer.current) :
    (sequencer.driving.sampled collision).sentNibbles bytes =
      sequencer.sentNibbles bytes ++
        newNibbles (sequencer.driving.shown collision true).signals := by
  have lowNext : sequencer.nextHigh = false := by
    rw [nextHigh_of_unjammed unjammed, high, Bool.not_true]
  rw [newNibbles_driving unjammed, high, sentNibbles_append_half high last]
  exact if_neg (by rw [Bool.not_eq_true]; exact lowNext)

theorem Writes.driving {cursor : Nat}
    (stands : sequencer.Stands front cursor bytes)
    (paced : (sequencer.driving.sampled collision).Paced bytes.length)
    (last : bytes.getLast? = some sequencer.current) :
    (sequencer.driving.sampled collision).Writes front cursor bytes where
  stands := stands.keep (level_driving _ (abortable_unjammed stands.abortable))
  paced := paced
  last := fun _ => last

/-- An attempt that nothing stopped drives its next nibble, is lost, or ends. -/
theorem Writes.moves
    (preamblePositive : 0 < sequencer.plan.preambleBytes)
    (nibblePositive : 0 < sequencer.plan.nibbleTicks)
    (held : FrameStore.frames source = front :: rest)
    (moves : Moves now collision sequencer source next after step)
    (writes : sequencer.Writes front (FrameStore.cursor source) bytes) :
    sequencer.Goes now source front bytes next (FrameStore.cursor after) step := by
  have unjammed := abortable_unjammed writes.stands.abortable
  have completes
      (due : sequencer.elapsed % sequencer.plan.nibbleTicks = 0)
      (low : sequencer.highNext = false) :
      sequencer.Completes bytes :=
    (writes.paced.boundary_iff nibblePositive).mpr ⟨due, low, rfl⟩
  cases moves with
  | rests idle =>
      have abortable := writes.stands.abortable
      simp [idle, Stage.abortable] at abortable
  | holds active between =>
      have stands : (sequencer.holding.sampled collision).Stands front _ bytes :=
        writes.stands.keep (sequencer.level_holding collision)
      exact .writes bytes ⟨stands, writes.paced.holding between, writes.last⟩
        rfl (List.append_nil _).symm rfl (.inl rfl)
  | continues active due high notOver =>
      have paced : (sequencer.driving.sampled collision).Paced bytes.length :=
        writes.paced.continues nibblePositive due high unjammed
      exact .writes bytes (Writes.driving writes.stands paced (writes.last high)) rfl
        (sentNibbles_continue high unjammed (writes.last high)) rfl (.inl rfl)
  | @begins loaded after active due low boundary notOver =>
      cases writes.stands.boundary preamblePositive held boundary with
      | byte stands calm calmThen =>
          obtain ⟨plan, highEqual, elapsedEqual, _⟩ := boundary.counters
          have unjammedThen := abortable_unjammed stands.abortable
          have dueThen : loaded.elapsed % loaded.plan.nibbleTicks = 0 := by
            rw [elapsedEqual, plan]
            exact due
          have more : (bytes ++ [loaded.current]).length = bytes.length + 1 := by
            rw [List.length_append, List.length_singleton]
          have paced : (loaded.driving.sampled collision).Paced
              (bytes ++ [loaded.current]).length := by
            rw [more]
            exact (boundary.paced writes.paced).begins (plan ▸ nibblePositive) dueThen
              (highEqual.trans low) unjammedThen
          have last : (bytes ++ [loaded.current]).getLast? = some loaded.current :=
            List.getLast?_concat
          have pending : (loaded.driving.sampled collision).aborting =
              (sequencer.aborting || (loaded.driving.shown collision true).collided) :=
            congrArg (· || loaded.driving.notices collision) (calmThen.trans calm.symm)
          exact .writes (bytes ++ [loaded.current]) (Writes.driving stands paced last) rfl
            (sentNibbles_begin low highEqual unjammedThen) pending
            (.inr ⟨more, calm, completes due low⟩)
      | lost lost stopped => exact .lost lost.driving rfl stopped (completes due low)
  | ends active due low boundary =>
      cases writes.stands.boundary preamblePositive held boundary with
      | sent whole complete =>
          exact .sent rfl whole complete (completes due low)
            (if_neg (by rw [low]; exact Bool.false_ne_true))
      | jammed aborting => exact .jammed rfl aborting (completes due low)

/-- The first tick of an attempt drives the first nibble of its preamble. -/
theorem start_writes
    (preamblePositive : 0 < sequencer.plan.preambleBytes)
    (nibblePositive : 0 < sequencer.plan.nibbleTicks)
    (held : FrameStore.frames source = front :: rest)
    (unread : FrameStore.cursor source = 0)
    (moves : Moves now collision sequencer.start source next after step) :
    ∃ bytes, next.Writes front (FrameStore.cursor after) bytes ∧
      next.sentNibbles bytes = newNibbles step.signals ∧ bytes.length = 1 := by
  have stands : sequencer.start.Stands front (FrameStore.cursor source) [] :=
    .preamble rfl (Nat.zero_le _) unread rfl rfl
  have paced : sequencer.start.Paced 0 := .of_timed (start_timed nibblePositive) rfl
  have writes : sequencer.start.Writes front (FrameStore.cursor source) [] :=
    ⟨stands, paced, nofun⟩
  have goes : sequencer.start.Goes now source front [] next (FrameStore.cursor after) step :=
    writes.moves preamblePositive nibblePositive held moves
  obtain ⟨rfl, rfl, rfl⟩ := start_moves preamblePositive moves
  cases goes with
  | writes more writesNext unended nibbles =>
      have begun : 1 + 1 = 2 * more.length := writesNext.paced.nibbles
      exact ⟨more, writesNext, nibbles, by omega⟩
  | lost lost =>
      rcases lost with marker | ⟨remaining, jam⟩
      · cases marker
      · cases jam
  | sent ended => cases ended
  | jammed ended => cases ended

end Sequencer

end HalfDuplex
