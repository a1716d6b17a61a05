import HalfDuplex.Proofs.Transcript
import HalfDuplex.Proofs.Trial

/-!
# The course of an attempt

Up to the first byte boundary with a collision pending, or on which the source starves, an
attempt drives the bytes of its frame.  What these are depends on the source alone:
`Trial.answer` is what it answers when it is asked for the octet of a place, and an attempt
that goes on asks on the first tick after the bytes before that place.

`Trial.Writes` says how an attempt stands at such a boundary.  `Writes.next` takes it to the
following one, and `writes_of_calm` to any boundary that it reaches.
-/

namespace HalfDuplex

/-- The spans of a plan that a configuration without odd or empty byte times gives. -/
structure LinePlan.Regular (plan : LinePlan) : Prop where
  nibblePositive : 0 < plan.nibbleTicks
  nibbleNarrow : plan.nibbleTicks < countLimit
  preamblePositive : 0 < plan.preambleBytes
  whole : plan.preambleNibbles = 2 * plan.preambleBytes

theorem LinePlan.regular_of_ofConfig {config : Config} {plan : LinePlan}
    (long : 2 ≤ config.byteTime)
    (preamble : config.preambleBytes ≠ 0)
    (planned : LinePlan.ofConfig config = .ok plan) :
    plan.Regular := by
  obtain rfl := LinePlan.ofConfig_eq_ok planned
  have bound : config.byteTime < 2 ^ 32 := config.byteTicks.toNat_lt
  have width : countLimit = 2 ^ 32 := rfl
  have positive : config.preambleBytes.toNat ≠ 0 := fun zero =>
    preamble (UInt32.toNat_inj.mp zero)
  refine ⟨?_, ?_, Nat.pos_of_ne_zero positive, Nat.mul_comm _ _⟩ <;>
  · show _ < _
    unfold Config.nibbleTicks
    lia

/-- The spans of the plan of an accepted configuration. -/
structure LinePlan.Follows (plan : LinePlan) (config : Config) : Prop where
  regular : plan.Regular
  byteTime : config.byteTime = 2 * plan.nibbleTicks
  preamble : config.preambleBytes.toNat = plan.preambleBytes
  jam : plan.jamNibbles = 2 * config.jamBytes.toNat
  minFrame : config.minFrameBytes.toNat = plan.minFrame

theorem LinePlan.follows_of_accepted {config : Config} {plan : LinePlan}
    (accepted : config.Accepted)
    (planned : LinePlan.ofConfig config = .ok plan) :
    plan.Follows config := by
  obtain ⟨early, gap, timing⟩ := accepted.timing
  have long : 2 ≤ config.byteTime := by
    have positive := timing.byteTime_pos
    have even := timing.byteTime_even
    lia
  have regular := regular_of_ofConfig long timing.preambleBytes_ne_zero planned
  obtain rfl := LinePlan.ofConfig_eq_ok planned
  exact ⟨regular, timing.byteTime_eq, rfl, Nat.mul_comm _ _, rfl⟩

namespace Sequencer

variable {σ : Type} [ByteSource σ] {now : Tick} {sequencer : Sequencer} {source after : σ}
  {front : List ScriptEntry} {cursor : Nat} {bytes : List Octet}

theorem active_of_abortable (abortable : sequencer.stage.abortable = true) :
    sequencer.stage ≠ .idle := by
  intro idle
  rw [idle] at abortable
  cases abortable

theorem Placed.length_le {begun : Nat} (placed : sequencer.Placed begun) :
    sequencer.length ≤ begun := by
  cases placed with
  | preamble stage within blank => omega
  | data | pad | trailer => omega

theorem Placed.position_le {begun : Nat}
    (stage : sequencer.stage = .trailer)
    (placed : sequencer.Placed begun) :
    sequencer.position ≤ Checksum.trailerLength := by
  cases placed with
  | preamble other | data other | pad other => cases stage.symm.trans other
  | trailer other within => exact within

/-- Padding or checksum follow when the octets of the frame are over. -/
theorem Stands.loadsDrained {position : Nat} (place : Nat)
    (positive : 0 < sequencer.plan.preambleBytes)
    (calm : sequencer.aborting = false)
    (exhausted : Exhausted now sequencer source position after)
    (drained : sequencer.Drained front cursor)
    (stands : sequencer.Stands front cursor bytes) :
    ∃ loaded, Boundary now sequencer source loaded after none ∧
      loaded.Stands front place (bytes ++ [loaded.current]) ∧
      ¬ loaded.Asking := by
  rcases Nat.lt_or_ge sequencer.length sequencer.plan.minFrame with short | full
  · exact ⟨_, .pad exhausted short calm, stands.takesPadding position place positive drained short,
      by simp [Asking, taken]⟩
  · have inside : 0 < sequencer.checksum.trailer.length := by
      rw [length_trailer]
      decide
    have first := List.getElem?_eq_getElem inside
    exact ⟨_, .firstCheck exhausted full first calm,
      stands.checksFirst place positive drained full first,
      by simp [Asking, checking, beginTrailer]⟩

/-- The checksum goes on as long as it is not complete. -/
theorem Stands.loadsCheck (now : Tick) (source : σ)
    (calm : sequencer.aborting = false)
    (stage : sequencer.stage = .trailer)
    (missing : sequencer.position < Checksum.trailerLength)
    (stands : sequencer.Stands front cursor bytes) :
    ∃ loaded, Boundary now sequencer source loaded source none ∧
      loaded.Stands front cursor (bytes ++ [loaded.current]) ∧ ¬ loaded.Asking := by
  have place : sequencer.dueTrailer[sequencer.position]? = some _ :=
    Vector.getElem?_eq_getElem missing
  exact ⟨_, .check stage place calm, stands.checks stage place, by simp [Asking, checking, stage]⟩

end Sequencer

namespace Trial

variable {σ : Type} [ByteSource σ]

/-- The time of a byte. -/
abbrev byteTicks (trial : Trial σ) : Tick :=
  2 * trial.nibbleTicks

/-- The reading with which the source is asked for the octet of a place. -/
def askedOn (trial : Trial σ) (place : Nat) : Tick :=
  trial.reading ((trial.sequencer.plan.preambleBytes + place) * trial.byteTicks)

/-- The source after it was asked for a number of octets. -/
def asked (trial : Trial σ) : (count : Nat) → Except Fault σ
  | 0 => .ok trial.source
  | count + 1 => do
      let source ← trial.asked count
      (ByteSource.pull source (trial.askedOn count)).map Prod.fst

/-- What the source answers when it is asked for the octet of a place. -/
def answer (trial : Trial σ) (place : Nat) : Except Fault Pull := do
  let source ← trial.asked place
  (ByteSource.pull source (trial.askedOn place)).map Prod.snd

/-- The first octets that the source supplies. -/
def Supplies (trial : Trial σ) (octets : List Octet) : Prop :=
  ∀ place octet, octets[place]? = some octet → trial.answer place = .ok (.octet octet)

/-- The source is over after these octets. -/
structure Finishes (trial : Trial σ) (octets : List Octet) : Prop where
  supplies : trial.Supplies octets
  finished : trial.answer octets.length = .ok .finished

/-- The source starves after these octets. -/
structure Starves (trial : Trial σ) (octets : List Octet) : Prop where
  supplies : trial.Supplies octets
  starved : trial.answer octets.length = .ok .starved

/-- The collision input of a span of ticks is first high on the tick that is noticed, if it is
high at all. -/
def Strikes (trial : Trial σ) (noticed : Option Nat) (first finish : Nat) : Prop :=
  ∀ tick, first ≤ tick → tick < finish →
    (trial.collision tick && !noticed.any (· < tick)) = decide (noticed = some tick)

variable {trial : Trial σ} {sequencer loaded : Sequencer} {source after : σ}
  {noticed : Option Nat} {octets bytes : List Octet} {place : Nat}

omit [ByteSource σ] in
/-- A stage in which collisions are noticed heeds the collision input. -/
theorem heeds_of_strikes {first finish : Nat}
    (abortable : loaded.stage.abortable = true)
    (strikes : trial.Strikes noticed first finish) :
    trial.HeedsOver loaded noticed first finish := by
  intro tick atLeast before
  rw [Sequencer.Heeds, Sequencer.pendingAt, abortable, Bool.true_and, Bool.and_true]
  exact strikes tick atLeast before

omit [ByteSource σ] in
theorem strikes_of_calm {finish : Nat} (calm : ∀ tick < finish, trial.collision tick = false) :
    trial.Strikes none 0 finish := by
  intro tick _ before
  rw [calm tick before]
  rfl

theorem pull_of_answer {answer : Pull}
    (asked : trial.asked place = .ok source)
    (answers : trial.answer place = .ok answer) :
    ∃ after, ByteSource.pull source (trial.askedOn place) = .ok (after, answer) ∧
      trial.asked (place + 1) = .ok after := by
  rw [Trial.answer, asked] at answers
  rw [Trial.asked, asked]
  replace answers : (ByteSource.pull source (trial.askedOn place)).map Prod.snd = .ok answer :=
    answers
  show ∃ after, _ ∧ (ByteSource.pull source (trial.askedOn place)).map Prod.fst = .ok after
  cases pulled : ByteSource.pull source (trial.askedOn place) with
  | error fault =>
      rw [pulled] at answers
      cases answers
  | ok result =>
      rw [pulled] at answers
      cases answers
      exact ⟨result.1, rfl, rfl⟩

/-- A source does not supply more octets than it has. -/
theorem Finishes.length_le {octets others : List Octet}
    (finishes : trial.Finishes octets)
    (supplies : trial.Supplies others) :
    others.length ≤ octets.length := by
  rw [← Nat.not_lt]
  intro more
  have answer := supplies _ _ (List.getElem?_eq_getElem more)
  rw [finishes.finished] at answer
  cases answer

theorem Finishes.unique {octets others : List Octet}
    (finishes : trial.Finishes octets)
    (alike : trial.Finishes others) :
    others = octets := by
  have length : others.length = octets.length :=
    Nat.le_antisymm (finishes.length_le alike.supplies) (alike.length_le finishes.supplies)
  apply List.ext_getElem length
  intro place inOthers inOctets
  have answer := alike.supplies _ _ (List.getElem?_eq_getElem inOthers)
  rw [finishes.supplies _ _ (List.getElem?_eq_getElem inOctets)] at answer
  exact (Pull.octet.inj (Except.ok.inj answer)).symm

/-- At the byte boundary `bytes.length` the attempt is about to go on with its frame, which
begins with these bytes. -/
structure Writes (trial : Trial σ) (noticed : Option Nat) (octets bytes : List Octet)
    (sequencer : Sequencer) (source : σ) (cursor : Nat) : Prop where
  driven : trial.HasDriven noticed (drivenNibbles bytes) sequencer source
  low : sequencer.highNext = false
  stands : sequencer.Stands (octets.map .octet) cursor bytes
  placed : sequencer.Placed bytes.length
  asked : sequencer.Asking → trial.asked cursor = .ok source
  /-- Padding and checksum begin after all octets. -/
  early : bytes.length ≤ trial.sequencer.plan.preambleBytes + octets.length → sequencer.Asking

/-- A byte boundary takes up the next byte of the frame. -/
structure TakesUp (trial : Trial σ) (octets bytes : List Octet) (sequencer : Sequencer)
    (source : σ) (loaded : Sequencer) (after : σ) (place : Nat) : Prop where
  boundary : Sequencer.Boundary
    (trial.reading ((drivenNibbles bytes).length * trial.nibbleTicks))
    sequencer source loaded after none
  stands : loaded.Stands (octets.map .octet) place (bytes ++ [loaded.current])
  asked : loaded.Asking → trial.asked place = .ok after
  early : bytes.length < trial.sequencer.plan.preambleBytes + octets.length → loaded.Asking

/-- The bytes of the attempt if it is sent. -/
abbrev frame (trial : Trial σ) (octets : List Octet) : List Octet :=
  frameOctets trial.sequencer.plan.preambleBytes trial.sequencer.plan.minFrame octets

/-- The octets of the frame with their checksum. -/
def sealedOctets (trial : Trial σ) (octets : List Octet) : List Octet :=
  paddedOctets trial.sequencer.plan.minFrame octets ++
    (checksumOf (paddedOctets trial.sequencer.plan.minFrame octets)).trailer.map .byte

omit [ByteSource σ] in
theorem frame_eq (trial : Trial σ) (octets : List Octet) :
    trial.frame octets =
      preambleOctets trial.sequencer.plan.preambleBytes ++ trial.sealedOctets octets :=
  List.append_assoc _ _ _

omit [ByteSource σ] in
theorem take_frame_early {count : Nat} (octets : List Octet)
    (regular : trial.sequencer.plan.Regular)
    (early : count ≤ trial.sequencer.plan.preambleBytes) :
    (trial.frame octets).take count =
      (preambleOctets trial.sequencer.plan.preambleBytes).take count := by
  rw [frame_eq, List.take_append_of_le_length]
  rwa [length_preambleOctets regular.preamblePositive]

omit [ByteSource σ] in
theorem take_frame_late {count : Nat} (octets : List Octet)
    (regular : trial.sequencer.plan.Regular)
    (late : trial.sequencer.plan.preambleBytes ≤ count) :
    (trial.frame octets).take count =
      preambleOctets trial.sequencer.plan.preambleBytes ++
        (trial.sealedOctets octets).take (count - trial.sequencer.plan.preambleBytes) := by
  have length := length_preambleOctets regular.preamblePositive
  rw [frame_eq, List.take_append, length, List.take_of_length_le (by rwa [length])]

omit [ByteSource σ] in
theorem drivenTicks (trial : Trial σ) (bytes : List Octet) :
    (drivenNibbles bytes).length * trial.nibbleTicks = bytes.length * trial.byteTicks := by
  rw [length_drivenNibbles, Nat.mul_comm 2, Nat.mul_assoc]

namespace Writes

variable {cursor : Nat}

theorem begins (writes : trial.Writes noticed octets bytes sequencer source cursor) :
    bytes <+: trial.frame octets := by
  have begun := writes.stands.begins
  rwa [octetsOf_map, writes.driven.plan] at begun

theorem active (writes : trial.Writes noticed octets bytes sequencer source cursor) :
    sequencer.stage ≠ .idle :=
  Sequencer.active_of_abortable writes.stands.abortable

theorem start (trial : Trial σ) (noticed : Option Nat) (octets : List Octet) :
    trial.Writes noticed octets [] trial.sequencer.start trial.source 0 where
  driven := trial.hasDriven_start noticed
  low := rfl
  stands := .preamble rfl (Nat.zero_le _) rfl rfl rfl
  placed := .preamble rfl (Nat.zero_le _) rfl
  asked := fun _ => rfl
  early := fun _ => .inr rfl

/-- A sequencer that is about to pull has asked for the octets that it has begun. -/
theorem cursor_eq
    (regular : trial.sequencer.plan.Regular)
    (pulling : sequencer.Pulling)
    (writes : trial.Writes noticed octets bytes sequencer source cursor) :
    bytes.length = trial.sequencer.plan.preambleBytes + cursor := by
  have plan := writes.driven.plan
  obtain ⟨begun, _, place, _, _, rfl⟩ :=
    writes.stands.pulling (plan ▸ regular.preamblePositive) pulling
  rw [List.length_append, plan, length_preambleOctets regular.preamblePositive, place]

theorem cursor_le
    (regular : trial.sequencer.plan.Regular)
    (pulling : sequencer.Pulling)
    (writes : trial.Writes noticed octets bytes sequencer source cursor) :
    cursor ≤ octets.length := by
  obtain ⟨begun, read, place, _⟩ :=
    writes.stands.pulling (writes.driven.plan ▸ regular.preamblePositive) pulling
  have lengths := congrArg List.length read
  rw [List.length_take, List.length_map, List.length_map, ← place] at lengths
  omega

/-- A sequencer that is about to pull asks for the octet of the next place. -/
theorem pulls {answer : Pull}
    (regular : trial.sequencer.plan.Regular)
    (pulling : sequencer.Pulling)
    (answers : trial.answer cursor = .ok answer)
    (writes : trial.Writes noticed octets bytes sequencer source cursor) :
    ∃ after, ByteSource.pull source
        (trial.reading ((drivenNibbles bytes).length * trial.nibbleTicks)) =
          .ok (after, answer) ∧
      trial.asked (cursor + 1) = .ok after := by
  have now : trial.reading ((drivenNibbles bytes).length * trial.nibbleTicks) =
      trial.askedOn cursor := by
    rw [drivenTicks, writes.cursor_eq regular pulling, askedOn]
  rw [now]
  exact pull_of_answer (writes.asked pulling.asking) answers

theorem length_of_trailer
    (regular : trial.sequencer.plan.Regular)
    (stage : sequencer.stage = .trailer)
    (writes : trial.Writes noticed octets bytes sequencer source cursor) :
    bytes.length = trial.sequencer.plan.preambleBytes +
      max octets.length trial.sequencer.plan.minFrame +
        min sequencer.position Checksum.trailerLength := by
  obtain ⟨others, whole, _, _, bytesEqual⟩ := writes.stands.of_trailer stage
  have same : octets = others := by
    rw [← octetsOf_map octets, whole, octetsOf_map]
  rw [bytesEqual, ← same, writes.driven.plan, List.length_append, List.length_append,
    length_preambleOctets regular.preamblePositive, length_paddedOctets, List.length_map,
    List.length_take, Sequencer.length_trailer]

/-- A byte boundary on which the attempt asks for an octet. -/
theorem loadsPulling
    (regular : trial.sequencer.plan.Regular)
    (supplies : trial.Supplies octets)
    (more : bytes.length < trial.sequencer.plan.preambleBytes + octets.length ∨
      trial.answer octets.length = .ok .finished)
    (calm : sequencer.aborting = false)
    (pulling : sequencer.Pulling)
    (writes : trial.Writes noticed octets bytes sequencer source cursor) :
    ∃ loaded after place,
      trial.TakesUp octets bytes sequencer source loaded after place := by
  have plan := writes.driven.plan
  have positive : 0 < sequencer.plan.preambleBytes := plan ▸ regular.preamblePositive
  have within := writes.cursor_le regular pulling
  have length := writes.cursor_eq regular pulling
  rcases Nat.lt_or_eq_of_le within with inside | atEnd
  · have found := List.getElem?_eq_getElem inside
    obtain ⟨after, pulled, askedThen⟩ := writes.pulls regular pulling (supplies _ _ found)
    have front : (octets.map ScriptEntry.octet)[cursor]? = some (.octet octets[cursor]) := by
      rw [List.getElem?_map, found]
      rfl
    exact ⟨_, after, cursor + 1, .octet pulling pulled calm,
      writes.stands.takesOctet positive pulling front, fun _ => askedThen, fun _ => .inl rfl⟩
  · have finished : trial.answer cursor = .ok .finished := by
      rcases more with shorter | finished
      · omega
      · rwa [atEnd]
    obtain ⟨after, pulled, _⟩ := writes.pulls regular pulling finished
    have drained : sequencer.Drained (octets.map .octet) cursor :=
      .inr ⟨pulling, by rw [List.length_map, atEnd]⟩
    obtain ⟨loaded, boundary, stands, silent⟩ :=
      writes.stands.loadsDrained cursor positive calm (.finished pulling pulled) drained
    exact ⟨loaded, after, cursor, boundary, stands, fun asks => absurd asks silent,
      fun before => by omega⟩

/-- A byte boundary on which the frame goes on. -/
theorem loads
    (regular : trial.sequencer.plan.Regular)
    (supplies : trial.Supplies octets)
    (more : bytes.length < trial.sequencer.plan.preambleBytes + octets.length ∨
      trial.answer octets.length = .ok .finished)
    (shorter : bytes.length < (trial.frame octets).length)
    (calm : sequencer.aborting = false)
    (writes : trial.Writes noticed octets bytes sequencer source cursor) :
    ∃ loaded after place,
      trial.TakesUp octets bytes sequencer source loaded after place := by
  have plan := writes.driven.plan
  have positive : 0 < sequencer.plan.preambleBytes := plan ▸ regular.preamblePositive
  have abortable := writes.stands.abortable
  have late (silent : ¬ sequencer.Asking)
      (before : bytes.length < trial.sequencer.plan.preambleBytes + octets.length) : False :=
    silent (writes.early (Nat.le_of_lt before))
  cases stage : sequencer.stage with
  | idle | underflow | jam => simp [stage, Stage.abortable] at abortable
  | preamble =>
      rcases Nat.lt_or_ge sequencer.position sequencer.plan.preambleBytes with missing | complete
      · exact ⟨_, source, cursor, .preamble stage missing calm,
          writes.stands.loadPreamble stage missing,
          fun _ => writes.asked (.inr stage), fun _ => .inr stage⟩
      · exact writes.loadsPulling regular supplies more calm (.inr ⟨stage, complete⟩)
  | data => exact writes.loadsPulling regular supplies more calm (.inl stage)
  | pad =>
      have exhausted : Sequencer.Exhausted
          (trial.reading ((drivenNibbles bytes).length * trial.nibbleTicks))
          sequencer source sequencer.position source := .padding stage
      obtain ⟨loaded, boundary, stands, silent⟩ :=
        writes.stands.loadsDrained cursor positive calm exhausted (.inl stage)
      exact ⟨loaded, source, cursor, boundary, stands, fun asks => absurd asks silent,
        fun before => (late (by simp [Sequencer.Asking, stage]) before).elim⟩
  | trailer =>
      have missing : sequencer.position < Checksum.trailerLength := by
        have length := writes.length_of_trailer regular stage
        rw [length_frameOctets regular.preamblePositive] at shorter
        omega
      obtain ⟨loaded, boundary, stands, silent⟩ :=
        writes.stands.loadsCheck
          (trial.reading ((drivenNibbles bytes).length * trial.nibbleTicks)) source
          calm stage missing
      exact ⟨loaded, source, cursor, boundary, stands, fun asks => absurd asks silent,
        fun before => (late (by simp [Sequencer.Asking, stage]) before).elim⟩

/-- What has been taken up can be driven for the time of a byte. -/
theorem ready {place : Nat}
    (calm : sequencer.aborting = false)
    (strikes : trial.Strikes noticed (bytes.length * trial.byteTicks)
      ((bytes.length + 1) * trial.byteTicks))
    (short : bytes.length + 1 < wideLimit)
    (takesUp : trial.TakesUp octets bytes sequencer source loaded after place)
    (writes : trial.Writes noticed octets bytes sequencer source cursor) :
    loaded.Placed (bytes.length + 1) ∧ loaded.Room ∧
      loaded.aborting =
        loaded.pendingAt noticed ((drivenNibbles bytes).length * trial.nibbleTicks) ∧
      trial.HeedsOver loaded noticed ((drivenNibbles bytes).length * trial.nibbleTicks)
        (((drivenNibbles bytes).length + 2) * trial.nibbleTicks) := by
  have abortable := takesUp.stands.abortable
  have unjammed := Sequencer.abortable_unjammed abortable
  obtain ⟨placed, calmThen⟩ : loaded.Placed (bytes.length + 1) ∧ loaded.aborting = false := by
    cases writes.placed.boundary takesUp.boundary with
    | byte placed calm calmThen => exact ⟨placed, calmThen⟩
    | marker stage | jam stage => simp [stage, Stage.abortable] at abortable
  have ticks := trial.drivenTicks bytes
  refine ⟨placed, ⟨Nat.lt_of_le_of_lt placed.length_le short,
    fun nibbles stage => absurd stage (unjammed nibbles)⟩, ?_, heeds_of_strikes abortable ?_⟩
  · have unnoticed := writes.driven.pending
    rw [calm, Sequencer.pendingAt, writes.stands.abortable, Bool.true_and] at unnoticed
    rw [calmThen, Sequencer.pendingAt, ← unnoticed, Bool.and_false]
  · rw [Nat.add_mul, ticks, ← Nat.succ_mul]
    exact strikes

/-- An attempt that goes on with its frame stands at the next byte boundary with one byte
more. -/
theorem next
    (regular : trial.sequencer.plan.Regular)
    (supplies : trial.Supplies octets)
    (more : bytes.length < trial.sequencer.plan.preambleBytes + octets.length ∨
      trial.answer octets.length = .ok .finished)
    (shorter : bytes.length < (trial.frame octets).length)
    (calm : sequencer.aborting = false)
    (strikes : trial.Strikes noticed (bytes.length * trial.byteTicks)
      ((bytes.length + 1) * trial.byteTicks))
    (few : 2 * (bytes.length + 1) < countLimit)
    (writes : trial.Writes noticed octets bytes sequencer source cursor) :
    ∃ octet next after place,
      trial.Writes noticed octets (bytes ++ [octet]) next after place := by
  obtain ⟨loaded, after, place, takesUp⟩ :=
    writes.loads regular supplies more shorter calm
  have wide : countLimit ≤ wideLimit := by decide
  obtain ⟨placed, room, pending, heeds⟩ := writes.ready calm strikes (by omega) takesUp
  obtain ⟨boundary, stands, asked, early⟩ := takesUp
  have abortable := stands.abortable
  obtain ⟨next, driven, low, level⟩ :=
    writes.driven.byte regular.nibblePositive regular.nibbleNarrow writes.active
      (Sequencer.active_of_abortable abortable) writes.low boundary room
      (Sequencer.abortable_unjammed abortable) pending heeds
      (by rw [length_drivenNibbles]; omega)
  rw [← drivenNibbles_append] at driven
  refine ⟨loaded.current, next, after, place, driven, low, stands.keep level, ?_, ?_, ?_⟩
  · rw [List.length_append, List.length_singleton]
    exact placed.keep level
  · rw [Sequencer.Asking, level.stage]
    exact asked
  · rw [List.length_append, List.length_singleton, Sequencer.Asking, level.stage]
    exact early

end Writes

/-- An attempt in which no collision is noticed before the last of the first bytes of its
frame drives these bytes. -/
theorem writes_of_calm {count : Nat}
    (regular : trial.sequencer.plan.Regular)
    (supplies : trial.Supplies octets)
    (more : count ≤ trial.sequencer.plan.preambleBytes + octets.length ∨
      trial.answer octets.length = .ok .finished)
    (within : count ≤ (trial.frame octets).length)
    (calm : ∀ struck, noticed = some struck → (count - 1) * trial.byteTicks ≤ struck)
    (strikes : trial.Strikes noticed 0 (count * trial.byteTicks))
    (few : 2 * count < countLimit) :
    ∃ sequencer source cursor,
      trial.Writes noticed octets ((trial.frame octets).take count) sequencer source cursor := by
  induction count with
  | zero => exact ⟨_, _, _, .start trial noticed octets⟩
  | succ count inductionHypothesis =>
      have sooner : count * trial.byteTicks ≤ (count + 1) * trial.byteTicks :=
        Nat.mul_le_mul_right _ (Nat.le_succ count)
      obtain ⟨sequencer, source, cursor, writes⟩ := inductionHypothesis
        (more.imp_left Nat.le_of_succ_le) (by omega)
        (fun struck equality => (Nat.mul_le_mul_right _ (by omega)).trans (calm struck equality))
        (fun tick atLeast before => strikes tick atLeast (by lia)) (by omega)
      have length : ((trial.frame octets).take count).length = count := by
        rw [List.length_take]
        omega
      -- A collision in the byte before this boundary is not pending until the next one.
      have quiet : sequencer.aborting = false := by
        rw [writes.driven.pending, trial.drivenTicks, length, Sequencer.pendingAt]
        cases noticed with
        | none => exact Bool.and_false _
        | some struck =>
            have late := calm struck rfl
            have unnoticed : (some struck).any (· < count * trial.byteTicks) = false :=
              decide_eq_false (Nat.not_lt.mpr late)
            rw [unnoticed, Bool.and_false]
      obtain ⟨octet, next, after, place, goesOn⟩ := writes.next regular supplies
        (by rw [length]; exact more) (by omega) quiet
        (by rw [length]; exact fun tick _ before => strikes tick (Nat.zero_le _) before)
        (by rw [length]; omega)
      have longer : (trial.frame octets).take count ++ [octet] =
          (trial.frame octets).take (count + 1) := by
        have begun := List.prefix_iff_eq_take.mp goesOn.begins
        rwa [List.length_append, length, List.length_singleton] at begun
      rw [longer] at goesOn
      exact ⟨next, after, place, goesOn⟩

/-- Without a collision an attempt drives the first bytes of its frame, and goes on. -/
theorem writes_of_quiet {count : Nat}
    (regular : trial.sequencer.plan.Regular)
    (supplies : trial.Supplies octets)
    (more : count ≤ trial.sequencer.plan.preambleBytes + octets.length ∨
      trial.answer octets.length = .ok .finished)
    (within : count ≤ (trial.frame octets).length)
    (quiet : ∀ tick < count * trial.byteTicks, trial.collision tick = false)
    (few : 2 * count < countLimit) :
    ∃ sequencer source cursor,
      trial.Writes none octets ((trial.frame octets).take count) sequencer source cursor ∧
        sequencer.aborting = false := by
  have unstruck : ∀ struck, none = some struck → (count - 1) * trial.byteTicks ≤ struck := nofun
  obtain ⟨sequencer, source, cursor, writes⟩ :=
    writes_of_calm regular supplies more within unstruck (strikes_of_calm quiet) few
  exact ⟨sequencer, source, cursor, writes, writes.driven.pending.trans (Bool.and_false _)⟩

end Trial

end HalfDuplex
