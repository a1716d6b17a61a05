import HalfDuplex.Proofs.CarrierSense
import HalfDuplex.Proofs.Encoding

/-!
# Delivery

A receiver that samples the line on every tick gets each frame that is reported as sent,
with its padding, in a burst that ends on the tick of the report.

`Run.Delivers` relates engine and receiver: between attempts the receiver has no burst in
progress and the source stands at the beginning of a frame; in an attempt that nothing
stopped the receiver holds exactly the nibbles that were driven.
-/

namespace HalfDuplex

namespace Receiver

/-- The receiver after the signals of one tick, without what it records. -/
def sampled (receiver : Receiver) (now : Tick) (signals : Signals) : Receiver :=
  match (receiver.sample now signals).value with
  | .ok next => next
  | .error _ => receiver

variable {receiver : Receiver} {now start : Tick} {signals : Signals}

theorem collect_eq (receiver : Receiver) (signals : Signals) :
    receiver.collect signals =
      { receiver with
        nibbles := (receiver.nibbles.toList ++ Sequencer.newNibbles signals).toArray } := by
  unfold collect Sequencer.newNibbles
  split
  · simp [← Array.toList_inj]
  · simp

theorem sampled_begin
    (silent : receiver.active = none)
    (enabled : signals.enable = true) :
    receiver.sampled now signals =
      { receiver with
        active := some now
        nibbles := (Sequencer.newNibbles signals).toArray } := by
  cases receiver
  cases silent
  unfold sampled sample
  rw [enabled]
  exact collect_eq _ signals

theorem sampled_go_on
    (active : receiver.active = some start)
    (enabled : signals.enable = true) :
    receiver.sampled now signals =
      { receiver with
        nibbles := (receiver.nibbles.toList ++ Sequencer.newNibbles signals).toArray } := by
  cases receiver
  cases active
  unfold sampled sample
  rw [enabled]
  exact collect_eq _ signals

theorem sampled_finish
    (active : receiver.active = some start)
    (disabled : signals.enable = false) :
    receiver.sampled now signals =
      { receiver with
        active := none
        bursts := receiver.bursts.push {
          start
          finish := now
          result := Reception.decode receiver.nibbles.toList receiver.minLength } } := by
  unfold sampled sample
  rw [active, disabled]
  rfl

theorem sampled_silent
    (silent : receiver.active = none)
    (disabled : signals.enable = false) :
    receiver.sampled now signals = receiver := by
  unfold sampled sample
  rw [silent, disabled]
  rfl

theorem minLength_sampled (receiver : Receiver) (now : Tick) (signals : Signals) :
    (receiver.sampled now signals).minLength = receiver.minLength := by
  cases enabled : signals.enable with
  | true =>
      cases active : receiver.active with
      | none => rw [sampled_begin active enabled]
      | some start => rw [sampled_go_on active enabled]
  | false =>
      cases active : receiver.active with
      | none => rw [sampled_silent active enabled]
      | some start => rw [sampled_finish active enabled]

end Receiver

/-- Settling an attempt leaves the source at the beginning of a frame. -/
theorem Engine.Settles.cursor {σ γ : Type} [ByteSource σ] [FrameStore σ] {now : Tick}
    {engine next : Engine σ γ} {ending : Ending} {outcome : Option Outcome}
    (settles : Engine.Settles now engine ending next outcome) :
    FrameStore.cursor next.source = 0 := by
  cases settles with
  | sent | underflow | giveUp | late => exact FrameStore.cursor_release _
  | retry | unjudged => exact FrameStore.cursor_rewind _

/-- Only an attempt that was sent in full is reported as such. -/
theorem Engine.Settles.sent_of_ok {σ γ : Type} [ByteSource σ] {now : Tick}
    {engine next : Engine σ γ} {ending : Ending} {outcome : Option Outcome}
    (settles : Engine.Settles now engine ending next outcome)
    (ok : (Engine.raised outcome).ok = true) :
    ending = .sent := by
  cases settles with
  | sent => rfl
  | underflow | retry | giveUp | late | unjudged => cases ok

namespace Run

variable {config : Config} {σ γ : Type} [ByteSource σ] [WordSource γ]
  (run : Run config σ γ)

/-- The receiver after it sampled the line on a number of ticks. -/
def receiver (minLength : Nat) : Nat → Receiver
  | 0 => { minLength }
  | count + 1 =>
      (receiver minLength count).sampled (run.reading count) (run.outputs count).signals

/-- How engine and receiver hang together. -/
inductive Delivers [FrameStore σ] (minLength count : Nat) : Prop
  | idle
      (idle : (run.engine count).sequencer.stage = .idle)
      (unread : FrameStore.cursor (run.engine count).source = 0)
      (silent : (run.receiver minLength count).active = none)
  | writing {start : Nat} {front : List ScriptEntry} {rest : List (List ScriptEntry)}
      {bytes : List Octet}
      (driven : (run.engine count).sequencer.Driven)
      (lastStart : run.LastStart start count)
      (elapsed : count = start + (run.engine count).sequencer.elapsed)
      (held : FrameStore.frames (run.engine count).source = front :: rest)
      (writes :
        (run.engine count).sequencer.Writes front
          (FrameStore.cursor (run.engine count).source) bytes)
      (active : (run.receiver minLength count).active = some (run.reading start))
      (nibbles :
        (run.receiver minLength count).nibbles.toList =
          (run.engine count).sequencer.sentNibbles bytes)
  | lost (begun : Tick)
      (driven : (run.engine count).sequencer.Driven)
      (lost : (run.engine count).sequencer.Lost)
      (active : (run.receiver minLength count).active = some begun)

variable {run} {early gap minLength count start : Nat} {front : List ScriptEntry}
  {rest : List (List ScriptEntry)} {bytes : List Octet}

theorem minLength_receiver (minLength count : Nat) :
    (run.receiver minLength count).minLength = minLength := by
  induction count with
  | zero => rfl
  | succ count inductionHypothesis =>
      rw [receiver, Receiver.minLength_sampled, inductionHypothesis]

theorem plan_positive
    (timing : config.Timing early gap)
    (within : count ≤ run.length) :
    0 < (run.engine count).sequencer.plan.preambleBytes ∧
      0 < (run.engine count).sequencer.plan.nibbleTicks := by
  rw [LinePlan.ofConfig_eq_ok (run.conforms within).plan]
  exact ⟨timing.preambleBytes_pos, timing.nibbleTicks_pos⟩

theorem plan_nibbleTicks (within : count ≤ run.length) :
    (run.engine count).sequencer.plan.nibbleTicks = config.nibbleTicks := by
  rw [LinePlan.ofConfig_eq_ok (run.conforms within).plan]

theorem plan_byteTime
    (timing : config.Timing early gap)
    (within : count ≤ run.length) :
    2 * (run.engine count).sequencer.plan.nibbleTicks = config.byteTime := by
  rw [plan_nibbleTicks within]
  exact timing.byteTime_eq.symm

/-- The last of the bytes begun is over after as many byte times. -/
theorem completes_iff {bytes : List Octet}
    (timing : config.Timing early gap)
    (within : count ≤ run.length) :
    (run.engine count).sequencer.Completes bytes ↔
      (run.engine count).sequencer.elapsed = bytes.length * config.byteTime := by
  unfold Sequencer.Completes
  rw [plan_byteTime timing within]

/-- An attempt that is reported as sent stops on the tick of the report. -/
theorem ends_of_ok
    (timing : config.Timing early gap)
    (consecutive : run.Consecutive)
    (within : count < run.length)
    (ok : (run.outputs count).status.ok = true) :
    (run.entering count).sequencer.Driven ∧ run.enable count = false ∧ ¬ run.Starts count ∧
      ∃ (stopped : Engine σ γ) (step : SequencerStep), step.ending = some .sent ∧
        Sequencer.Moves (run.reading count) (run.inputs count).collision
          (run.entering count).sequencer (run.entering count).source stopped.sequencer
          stopped.source step := by
  have conforms := (run.conforms (Nat.le_of_lt within)).supplied (run.supply count)
  have holds := defers timing consecutive (Nat.le_of_lt within)
  rcases holds.settled with idle | driven
  · have idleThen : (run.entering count).sequencer.stage = .idle := idle
    rw [(run.ticks within).status_of_idle idleThen] at ok
    cases ok
  · have drivenThen : (run.entering count).sequencer.Driven := driven
    rcases holds.stops timing consecutive within driven with
      ⟨enabled, _, unstarted, _⟩ | ⟨disabled, _, unstarted, _⟩
    · rw [((run.ticks within).goes_on drivenThen enabled unstarted).1] at ok
      cases ok
    · obtain ⟨stopped, _, step, ending, outcome, moves, ended, settles, _, status⟩ :=
        (run.ticks within).stops conforms timing drivenThen disabled
      rw [status] at ok
      rw [settles.sent_of_ok ok] at ended
      exact ⟨drivenThen, disabled, unstarted, stopped, step, ended, moves⟩

variable [FrameStore σ]

theorem entering_held
    (appends : FrameStore.Appends (run.supply count))
    (held : FrameStore.frames (run.engine count).source = front :: rest) :
    ∃ more, FrameStore.frames (run.entering count).source = front :: more := by
  obtain ⟨added, grown⟩ := appends.frames (run.engine count).source
  refine ⟨rest ++ added, ?_⟩
  show FrameStore.frames (run.supply count (run.engine count).source) = _
  rw [grown, held, List.cons_append]

theorem idle_delivers
    (timing : config.Timing early gap)
    (within : count < run.length)
    (appends : FrameStore.Appends (run.supply count))
    (idle : (run.entering count).sequencer.stage = .idle)
    (unread : FrameStore.cursor (run.engine count).source = 0)
    (silent : (run.receiver minLength count).active = none) :
    run.Delivers minLength (count + 1) := by
  have conforms := (run.conforms (Nat.le_of_lt within)).supplied (run.supply count)
  have unreadThen : FrameStore.cursor (run.entering count).source = 0 :=
    (appends.cursor _).trans unread
  obtain ⟨ready, pauses, _⟩ := pauses timing within idle
  cases pauses with
  | rests idleNext unpoised disabled unstarted =>
      have kept := (run.ticks within).rests conforms timing idle disabled
      refine .idle idleNext (kept ▸ unreadThen) ?_
      rw [receiver, Receiver.sampled_silent silent disabled]
      exact silent
  | starts driven high free enabled started =>
      obtain ⟨waiting, step, signals, moves⟩ := (run.ticks within).launches idle enabled
      obtain ⟨front, rest, held⟩ :=
        List.exists_cons_of_ne_nil ((FrameStore.ready_iff _).mp waiting)
      obtain ⟨preamblePositive, nibblePositive⟩ := plan_positive timing (Nat.le_of_lt within)
      obtain ⟨bytes, writes, nibbles, _⟩ :=
        Sequencer.start_writes preamblePositive nibblePositive held unreadThen moves
      have unended : step.ending = none :=
        congrArg SequencerStep.ending (Sequencer.start_moves preamblePositive moves).1
      have active : (run.entering count).sequencer.start.stage ≠ .idle := nofun
      have elapsed := moves.elapsed active unended
      have lastStart : run.LastStart count (count + 1) :=
        ⟨started, Nat.lt_succ_self count, fun tick after before => by omega⟩
      refine .writing driven lastStart ?_ (moves.frames.trans held) writes ?_ ?_
      · rw [elapsed]
        rfl
      · rw [receiver, Receiver.sampled_begin silent enabled]
      · rw [receiver, Receiver.sampled_begin silent enabled, nibbles, signals]

/-- An attempt that stops leaves the receiver without a burst in progress. -/
theorem stop_delivers {begun : Tick}
    (timing : config.Timing early gap)
    (within : count < run.length)
    (driven : (run.entering count).sequencer.Driven)
    (active : (run.receiver minLength count).active = some begun)
    (disabled : run.enable count = false)
    (idleNext : (run.engine (count + 1)).sequencer.stage = .idle) :
    run.Delivers minLength (count + 1) := by
  have conforms := (run.conforms (Nat.le_of_lt within)).supplied (run.supply count)
  obtain ⟨_, _, _, _, _, _, _, settles, source, _⟩ :=
    (run.ticks within).stops conforms timing driven disabled
  refine .idle idleNext ?_ ?_
  · rw [source]
    exact settles.cursor
  · rw [receiver, Receiver.sampled_finish active disabled]

theorem writing_delivers
    (timing : config.Timing early gap)
    (within : count < run.length)
    (appends : FrameStore.Appends (run.supply count))
    (driven : (run.entering count).sequencer.Driven)
    (lastStart : run.LastStart start count)
    (elapsed : count = start + (run.engine count).sequencer.elapsed)
    (held : FrameStore.frames (run.engine count).source = front :: rest)
    (writes :
      (run.entering count).sequencer.Writes front
        (FrameStore.cursor (run.engine count).source) bytes)
    (active : (run.receiver minLength count).active = some (run.reading start))
    (nibbles :
      (run.receiver minLength count).nibbles.toList =
        (run.entering count).sequencer.sentNibbles bytes)
    (enabled : run.enable count = true)
    (drivenNext : (run.engine (count + 1)).sequencer.Driven)
    (unstarted : ¬ run.Starts count) :
    run.Delivers minLength (count + 1) := by
  obtain ⟨_, step, unended, signals, moves⟩ :=
    (run.ticks within).goes_on driven enabled unstarted
  obtain ⟨more, heldThen⟩ := entering_held appends held
  obtain ⟨preamblePositive, nibblePositive⟩ := plan_positive timing (Nat.le_of_lt within)
  rw [← appends.cursor] at writes
  cases writes.moves preamblePositive nibblePositive heldThen moves with
  | writes longer writesNext _ nibblesNext =>
      have elapsedNext := moves.elapsed driven.active unended
      refine .writing drivenNext (lastStart.next unstarted) ?_
        (moves.frames.trans heldThen) writesNext ?_ ?_
      · rw [elapsedNext, ← Nat.add_assoc]
        exact congrArg (· + 1) elapsed
      · rw [receiver, Receiver.sampled_go_on active enabled]
        exact active
      · rw [receiver, Receiver.sampled_go_on active enabled, nibblesNext, ← signals, nibbles]
        rfl
  | lost lost =>
      refine .lost (run.reading start) drivenNext lost ?_
      rw [receiver, Receiver.sampled_go_on active enabled]
      exact active
  | sent ended => cases unended.symm.trans ended
  | jammed ended => cases unended.symm.trans ended

theorem lost_delivers {begun : Tick}
    (within : count < run.length)
    (driven : (run.entering count).sequencer.Driven)
    (lost : (run.entering count).sequencer.Lost)
    (active : (run.receiver minLength count).active = some begun)
    (enabled : run.enable count = true)
    (drivenNext : (run.engine (count + 1)).sequencer.Driven)
    (unstarted : ¬ run.Starts count) :
    run.Delivers minLength (count + 1) := by
  obtain ⟨_, step, unended, signals, moves⟩ :=
    (run.ticks within).goes_on driven enabled unstarted
  rcases lost.moves moves with ⟨_, lostNext⟩ | underflow | jammed
  · refine .lost begun drivenNext lostNext ?_
    rw [receiver, Receiver.sampled_go_on active enabled]
    exact active
  · cases unended.symm.trans underflow
  · cases unended.symm.trans jammed

/-- A tick keeps engine and receiver together. -/
theorem Delivers.ticks
    (timing : config.Timing early gap)
    (consecutive : run.Consecutive)
    (within : count < run.length)
    (appends : FrameStore.Appends (run.supply count))
    (delivers : run.Delivers minLength count) :
    run.Delivers minLength (count + 1) := by
  have holds := defers timing consecutive (Nat.le_of_lt within)
  cases delivers with
  | idle idle unread silent =>
      exact idle_delivers timing within appends idle unread silent
  | writing driven lastStart elapsed held writes active nibbles =>
      rcases holds.stops timing consecutive within driven with
        ⟨enabled, drivenNext, unstarted, _⟩ | ⟨disabled, idleNext, _⟩
      · exact writing_delivers timing within appends driven lastStart elapsed held writes
          active nibbles enabled drivenNext unstarted
      · exact stop_delivers timing within driven active disabled idleNext
  | lost begun driven lost active =>
      rcases holds.stops timing consecutive within driven with
        ⟨enabled, drivenNext, unstarted, _⟩ | ⟨disabled, idleNext, _⟩
      · exact lost_delivers within driven lost active enabled drivenNext unstarted
      · exact stop_delivers timing within driven active disabled idleNext

theorem delivers
    (timing : config.Timing early gap)
    (consecutive : run.Consecutive)
    (unread : FrameStore.cursor run.source = 0)
    (appends : ∀ tick, tick < run.length → FrameStore.Appends (run.supply tick))
    (within : count ≤ run.length) :
    run.Delivers minLength count := by
  induction count with
  | zero =>
      rw [← run.source_at_setUp] at unread
      exact .idle run.idle_at_setUp unread rfl
  | succ count inductionHypothesis =>
      have before := inductionHypothesis (Nat.le_of_succ_le within)
      exact before.ticks timing consecutive within (appends count within)

/-- What is known when a frame is reported as sent: its last attempt, how long that took,
and what the receiver has of it. -/
theorem sends_frame
    (timing : config.Timing early gap)
    (consecutive : run.Consecutive)
    (within : count < run.length)
    (appends : FrameStore.Appends (run.supply count))
    (delivers : run.Delivers minLength count)
    (ok : (run.outputs count).status.ok = true) :
    ∃ (start : Nat) (octets : List Octet) (rest : List (List ScriptEntry)),
      run.LastStart start (count + 1) ∧ run.enable count = false ∧
      FrameStore.frames (run.entering count).source = octets.map .octet :: rest ∧
      count = start +
        (config.preambleBytes.toNat + max octets.length config.minFrameBytes.toNat +
          Checksum.trailerLength) * config.byteTime ∧
      (run.receiver minLength count).active = some (run.reading start) ∧
      (run.receiver minLength count).nibbles.toList =
        wireNibbles (frameOctets config.preambleBytes.toNat config.minFrameBytes.toNat
          octets) := by
  obtain ⟨driven, disabled, unstarted, stopped, step, ended, moves⟩ :=
    ends_of_ok timing consecutive within ok
  cases delivers with
  | idle idle => exact absurd idle driven.active
  | lost begun _ lost =>
      have lostThen : (run.entering count).sequencer.Lost := lost
      rcases lostThen.moves moves with ⟨unended, _⟩ | underflow | jammed
      · cases unended.symm.trans ended
      · cases underflow.symm.trans ended
      · cases jammed.symm.trans ended
  | @writing start front rest bytes _ lastStart elapsed held writes active nibbles =>
      obtain ⟨more, heldThen⟩ := entering_held appends held
      obtain ⟨preamblePositive, nibblePositive⟩ := plan_positive timing (Nat.le_of_lt within)
      have writesThen : (run.entering count).sequencer.Writes front
          (FrameStore.cursor (run.entering count).source) bytes := by
        rw [show FrameStore.cursor (run.entering count).source = _ from appends.cursor _]
        exact writes
      cases writesThen.moves preamblePositive nibblePositive heldThen moves with
      | writes longer _ unended => cases unended.symm.trans ended
      | lost _ unended => cases unended.symm.trans ended
      | jammed jammed => cases jammed.symm.trans ended
      | @sent octets _ whole complete completes taken =>
          subst whole
          have duration : (run.engine count).sequencer.elapsed =
              bytes.length * config.byteTime :=
            (completes_iff timing (Nat.le_of_lt within)).mp completes
          have plan : (run.engine count).sequencer.plan = _ :=
            LinePlan.ofConfig_eq_ok (run.conforms (Nat.le_of_lt within)).plan
          rw [plan] at complete
          have length : bytes.length = config.preambleBytes.toNat +
              max octets.length config.minFrameBytes.toNat + Checksum.trailerLength := by
            rw [complete, length_frameOctets timing.preambleBytes_pos]
          refine ⟨start, octets, more, lastStart.next unstarted, disabled, heldThen, ?_, active,
            ?_⟩
          · rw [← length, ← duration]
            exact elapsed
          · rw [nibbles, ← complete]
            exact taken

/-- A frame that is reported as sent is delivered: the receiver ends a burst on the tick
of the report.  The burst begins with the last attempt, lasts as long as preamble, padded
frame and checksum take, and has the padded contents of the frame in front, unless an
octet was corrupted, which the receiver notices. -/
theorem delivers_sent_frame
    (consecutive : run.Consecutive)
    (unread : FrameStore.cursor run.source = 0)
    (appends : ∀ tick, tick < run.length → FrameStore.Appends (run.supply tick)) :
    let minLength := config.minFrameBytes.toNat + Checksum.trailerLength
    ∀ tick, tick < run.length → (run.outputs tick).status.ok = true →
      ∃ (start : Nat) (octets : List Octet) (rest : List (List ScriptEntry)),
        run.LastStart start (tick + 1) ∧
        FrameStore.frames (run.entering tick).source = octets.map .octet :: rest ∧
        run.reading tick = run.reading start +
          (config.preambleBytes.toNat + max octets.length config.minFrameBytes.toNat +
            Checksum.trailerLength) * config.byteTime ∧
        (run.receiver minLength (tick + 1)).bursts =
          (run.receiver minLength tick).bursts.push {
            start := run.reading start
            finish := run.reading tick
            result :=
              if ∀ octet ∈ octets, octet.isPoisoned = false then
                .ok (octets.map Octet.value ++
                  List.replicate (config.minFrameBytes.toNat - octets.length) 0)
              else .error .frameCheck } := by
  intro minLength tick within ok
  obtain ⟨early, gap, timing⟩ := run.accepted.timing
  have together : run.Delivers minLength tick :=
    delivers timing consecutive unread appends (Nat.le_of_lt within)
  obtain ⟨start, octets, rest, lastStart, disabled, held, lasted, active, nibbles⟩ :=
    sends_frame timing consecutive within (appends tick within) together ok
  refine ⟨start, octets, rest, lastStart, held, ?_, ?_⟩
  · rw [lasted, consecutive.reading _ (lasted ▸ within)]
  · rw [receiver, Receiver.sampled_finish active disabled, minLength_receiver, nibbles,
      decode_frameOctets, paddedOctets, List.map_append, List.map_replicate]
    rfl

/-- A frame of one octet waits, which is padded to two. -/
def paddedScenario : Scenario (FrameQueue 2) ZeroWords where
  source := (FrameQueue.empty 2).offer { octets := [.byte 0xA5] }
  words := {}

def paddedRun : Run { Config.brief with minFrameBytes := 2 } (FrameQueue 2) ZeroWords :=
  (paddedScenario.run? { Config.brief with minFrameBytes := 2 } 17).get (by decide +kernel)

theorem delivers_sent_frame_paddedRun :
    paddedRun.Steady ∧ FrameStore.cursor paddedRun.source = 0 ∧
      (∀ tick, tick < paddedRun.length → FrameStore.Appends (paddedRun.supply tick)) ∧
        (paddedRun.outputs 16).status.ok = true ∧
          (paddedRun.receiver 6 17).bursts =
            (paddedRun.receiver 6 16).bursts.push
              { start := 2, finish := 16, result := .ok [0xA5, 0] } := by
  have steady : paddedRun.Steady := fun count _ => (Nat.zero_add count).symm
  have unread : FrameStore.cursor paddedRun.source = 0 := by decide +kernel
  have appends :
      ∀ tick, tick < paddedRun.length → FrameStore.Appends (paddedRun.supply tick) :=
    fun _ _ => ⟨[], fun _ => rfl⟩
  have ok : (paddedRun.outputs 16).status.ok = true := by decide +kernel
  obtain ⟨start, octets, rest, _, held, lasted, bursts⟩ :=
    delivers_sent_frame steady.consecutive unread appends 16 (by decide +kernel) ok
  have waiting : FrameStore.frames (paddedRun.entering 16).source =
      [[.octet (.byte 0xA5)]] := by
    decide +kernel
  rw [waiting] at held
  obtain ⟨front, _⟩ := List.cons.inj held
  obtain rfl : octets = [.byte 0xA5] := by
    cases octets with
    | nil => cases front
    | cons octet octets =>
        cases octets with
        | nil =>
            cases front
            rfl
        | cons second octets => cases front
  have duration : 16 = start + (1 + max 1 2 + 4) * 2 := lasted
  obtain rfl : start = 2 := by omega
  exact ⟨steady, unread, appends, ok, bursts⟩

end Run

end HalfDuplex
