import HalfDuplex.Proofs.Transcript
import HalfDuplex.Proofs.Validation

/-!
# What a receiver accepts

A receiver that samples the line on every tick hears every attempt as one burst, from its
first nibble to its last one.  It takes in the bursts of the frames that are reported as
sent, on the ticks of these reports, and none besides.

`Run.Hears` relates engine and receiver, attempts that were cut short included.  What a
tick adds to the bursts is `Run.Receives`.
-/

namespace HalfDuplex

/-- The contents that the receiver took in from a burst, with the tick on which it ended. -/
def Received.accepted? (burst : Received) : Option (Tick × List UInt8) :=
  burst.result.toOption.map (burst.finish, ·)

namespace Receiver

/-- The contents that the receiver took in, each with the tick on which its burst ended. -/
def accepted (receiver : Receiver) : List (Tick × List UInt8) :=
  receiver.bursts.toList.filterMap Received.accepted?

variable {receiver : Receiver} {now : Tick} {signals : Signals}

theorem bursts_sampled_of_silent (silent : receiver.active = none) :
    (receiver.sampled now signals).bursts = receiver.bursts := by
  cases enabled : signals.enable with
  | true => rw [sampled_begin silent enabled]
  | false => rw [sampled_silent silent enabled]

end Receiver

/-- An attempt that was sent in full is reported as such. -/
theorem Engine.Settles.ok_iff {σ γ : Type} [ByteSource σ] {now : Tick}
    {engine next : Engine σ γ} {ending : Ending} {outcome : Option Outcome}
    (settles : Engine.Settles now engine ending next outcome) :
    (Engine.raised outcome).ok = true ↔ ending = .sent := by
  cases settles with
  | sent => exact iff_of_true rfl rfl
  | underflow | retry | giveUp | late | unjudged => exact iff_of_false nofun nofun

namespace Run

variable {config : Config} {σ γ : Type} [ByteSource σ] [WordSource γ] [FrameStore σ]
  (run : Run config σ γ)

/-- The receiver has heard what the attempt in progress has driven. -/
inductive Hears (minLength count : Nat) : Prop
  | idle
      (idle : (run.engine count).sequencer.stage = .idle)
      (unread : FrameStore.cursor (run.engine count).source = 0)
      (silent : (run.receiver minLength count).active = none)
  | tries {begun : Tick} {front : List ScriptEntry} {rest : List (List ScriptEntry)}
      (driven : (run.engine count).sequencer.Driven)
      (held : FrameStore.frames (run.engine count).source = front :: rest)
      (transcript :
        (run.engine count).sequencer.Transcript front
          (FrameStore.cursor (run.engine count).source)
          (run.receiver minLength count).nibbles.toList)
      (active : (run.receiver minLength count).active = some begun)

/-- What a tick adds to the bursts of the receiver: nothing, or the burst of an attempt on the
frame in front. -/
inductive Receives (minLength count : Nat) : Prop
  | nothing
      (same : (run.receiver minLength (count + 1)).bursts =
        (run.receiver minLength count).bursts)
      (unsent : (run.outputs count).status.ok = false)
  | burst {begun : Tick} {ending : Ending} {front : List ScriptEntry}
      {rest : List (List ScriptEntry)} {nibbles : List (Option UInt8)}
      (held : FrameStore.frames (run.entering count).source = front :: rest)
      (driven :
        Burst config.preambleBytes.toNat config.minFrameBytes.toNat config.jamBytes.toNat
          front ending nibbles)
      (sent : (run.outputs count).status.ok = true ↔ ending = .sent)
      (pushed : (run.receiver minLength (count + 1)).bursts =
        (run.receiver minLength count).bursts.push {
          start := begun
          finish := run.reading count
          result := Reception.decode nibbles minLength })

variable {run} {early gap minLength count : Nat} {front : List ScriptEntry}
  {rest : List (List ScriptEntry)}

theorem Hears.of_idle
    (timing : config.Timing early gap)
    (within : count < run.length)
    (appends : FrameStore.Appends (run.supply count))
    (idle : (run.entering count).sequencer.stage = .idle)
    (unread : FrameStore.cursor (run.engine count).source = 0)
    (silent : (run.receiver minLength count).active = none) :
    run.Hears minLength (count + 1) ∧ run.Receives minLength count := by
  have conforms := (run.conforms (Nat.le_of_lt within)).supplied (run.supply count)
  have unreadThen : FrameStore.cursor (run.entering count).source = 0 :=
    (appends.cursor _).trans unread
  have nothing : run.Receives minLength count := by
    refine .nothing (Receiver.bursts_sampled_of_silent silent) ?_
    rw [(run.ticks within).status_of_idle idle]
  obtain ⟨ready, pauses, _⟩ := pauses timing within idle
  cases pauses with
  | rests idleNext unpoised disabled unstarted =>
      have kept := (run.ticks within).rests conforms timing idle disabled
      refine ⟨.idle idleNext (kept ▸ unreadThen) ?_, nothing⟩
      rw [receiver, Receiver.sampled_silent silent disabled]
      exact silent
  | starts driven high free enabled started =>
      obtain ⟨waiting, step, signals, moves⟩ := (run.ticks within).launches idle enabled
      obtain ⟨front, rest, held⟩ :=
        List.exists_cons_of_ne_nil ((FrameStore.ready_iff _).mp waiting)
      obtain ⟨preamblePositive, nibblePositive⟩ := plan_positive timing (Nat.le_of_lt within)
      obtain ⟨bytes, writes, nibbles, _⟩ :=
        Sequencer.start_writes preamblePositive nibblePositive held unreadThen moves
      have heard : (run.receiver minLength (count + 1)).nibbles.toList =
          (run.engine (count + 1)).sequencer.sentNibbles bytes := by
        rw [receiver, Receiver.sampled_begin silent enabled, nibbles, signals]
      have active : (run.receiver minLength (count + 1)).active = some (run.reading count) := by
        rw [receiver, Receiver.sampled_begin silent enabled]
      refine ⟨.tries driven (moves.frames.trans held) ?_ active, nothing⟩
      rw [heard]
      exact .writes writes

/-- How a tick extends what an attempt in progress has driven. -/
theorem extends_transcript {next : Sequencer} {after : σ} {step : SequencerStep}
    {nibbles : List (Option UInt8)}
    (timing : config.Timing early gap)
    (within : count < run.length)
    (appends : FrameStore.Appends (run.supply count))
    (held : FrameStore.frames (run.engine count).source = front :: rest)
    (transcript :
      (run.engine count).sequencer.Transcript front
        (FrameStore.cursor (run.engine count).source) nibbles)
    (moves :
      Sequencer.Moves (run.reading count) (run.inputs count).collision
        (run.entering count).sequencer (run.entering count).source next after step) :
    (∃ more, FrameStore.frames (run.entering count).source = front :: more) ∧
      (run.engine count).sequencer.Extends next config.jamBytes.toNat front
        (FrameStore.cursor after) nibbles step := by
  obtain ⟨preamblePositive, nibblePositive⟩ := plan_positive timing (Nat.le_of_lt within)
  obtain ⟨more, heldThen⟩ := entering_held appends held
  rw [← appends.cursor] at transcript
  exact ⟨⟨more, heldThen⟩, transcript.moves preamblePositive nibblePositive
    (plan_whole (Nat.le_of_lt within)) (plan_jam (Nat.le_of_lt within)) heldThen moves⟩

/-- An attempt that goes on lengthens the burst that the receiver is in. -/
theorem Hears.of_goes_on {begun : Tick}
    (timing : config.Timing early gap)
    (within : count < run.length)
    (appends : FrameStore.Appends (run.supply count))
    (driven : (run.entering count).sequencer.Driven)
    (held : FrameStore.frames (run.engine count).source = front :: rest)
    (transcript :
      (run.engine count).sequencer.Transcript front
        (FrameStore.cursor (run.engine count).source)
        (run.receiver minLength count).nibbles.toList)
    (active : (run.receiver minLength count).active = some begun)
    (enabled : run.enable count = true)
    (drivenNext : (run.engine (count + 1)).sequencer.Driven)
    (unstarted : ¬ run.Starts count) :
    run.Hears minLength (count + 1) ∧ run.Receives minLength count := by
  obtain ⟨unraised, step, unended, signals, moves⟩ :=
    (run.ticks within).goes_on driven enabled unstarted
  obtain ⟨⟨more, heldThen⟩, extended⟩ :=
    extends_transcript timing within appends held transcript moves
  have sampled : run.receiver minLength (count + 1) = _ :=
    Receiver.sampled_go_on active enabled
  cases extended with
  | ends ended => cases unended.symm.trans ended
  | goesOn _ transcriptNext =>
      have activeNext : (run.receiver minLength (count + 1)).active = some begun := by
        rw [sampled]
        exact active
      constructor
      · refine .tries drivenNext (moves.frames.trans heldThen) ?_ activeNext
        rw [sampled, signals]
        exact transcriptNext
      · refine .nothing ?_ ?_
        · rw [sampled]
        · rw [unraised]

/-- An attempt that stops completes the burst that the receiver was in. -/
theorem Hears.of_stops {begun : Tick}
    (timing : config.Timing early gap)
    (within : count < run.length)
    (appends : FrameStore.Appends (run.supply count))
    (driven : (run.entering count).sequencer.Driven)
    (held : FrameStore.frames (run.engine count).source = front :: rest)
    (transcript :
      (run.engine count).sequencer.Transcript front
        (FrameStore.cursor (run.engine count).source)
        (run.receiver minLength count).nibbles.toList)
    (active : (run.receiver minLength count).active = some begun)
    (disabled : run.enable count = false)
    (idleNext : (run.engine (count + 1)).sequencer.stage = .idle) :
    run.Hears minLength (count + 1) ∧ run.Receives minLength count := by
  have conforms := run.conforms (Nat.le_of_lt within)
  obtain ⟨stopped, settled, step, ending, outcome, moves, ended, settles, source, status⟩ :=
    (run.ticks within).stops (conforms.supplied (run.supply count)) timing driven disabled
  obtain ⟨⟨more, heldThen⟩, extended⟩ :=
    extends_transcript timing within appends held transcript moves
  have sampled : run.receiver minLength (count + 1) = _ :=
    Receiver.sampled_finish active disabled
  cases extended with
  | goesOn unended => cases unended.symm.trans ended
  | ends found burst =>
      cases found.symm.trans ended
      rw [Sequencer.Bursts, LinePlan.ofConfig_eq_ok conforms.plan] at burst
      constructor
      · refine .idle idleNext ?_ ?_
        · rw [source]
          exact settles.cursor
        · rw [sampled]
      · have pushed : (run.receiver minLength (count + 1)).bursts =
            (run.receiver minLength count).bursts.push {
              start := begun
              finish := run.reading count
              result :=
                Reception.decode (run.receiver minLength count).nibbles.toList minLength } := by
          rw [sampled, minLength_receiver]
        refine .burst heldThen burst ?_ pushed
        rw [status]
        exact settles.ok_iff

theorem Hears.ticks
    (timing : config.Timing early gap)
    (consecutive : run.Consecutive)
    (within : count < run.length)
    (appends : FrameStore.Appends (run.supply count))
    (hears : run.Hears minLength count) :
    run.Hears minLength (count + 1) ∧ run.Receives minLength count := by
  cases hears with
  | idle idle unread silent =>
      exact Hears.of_idle timing within appends idle unread silent
  | tries driven held transcript active =>
      have holds := defers timing consecutive (Nat.le_of_lt within)
      rcases holds.stops timing consecutive within driven with
        ⟨enabled, drivenNext, unstarted, _⟩ | ⟨disabled, idleNext, _⟩
      · exact Hears.of_goes_on timing within appends driven held transcript active enabled
          drivenNext unstarted
      · exact Hears.of_stops timing within appends driven held transcript active disabled idleNext

theorem hears
    (timing : config.Timing early gap)
    (consecutive : run.Consecutive)
    (unread : FrameStore.cursor run.source = 0)
    (appends : ∀ tick, tick < run.length → FrameStore.Appends (run.supply tick))
    (within : count ≤ run.length) :
    run.Hears minLength count := by
  induction count with
  | zero =>
      rw [← run.source_at_setUp] at unread
      exact .idle run.idle_at_setUp unread rfl
  | succ count inductionHypothesis =>
      have before := inductionHypothesis (Nat.le_of_succ_le within)
      exact (before.ticks timing consecutive within (appends count within)).1

omit [FrameStore σ] in
variable (run) in
include run in
theorem jamBytes_lt : config.jamBytes.toNat < GaloisRegister.fullPeriod := by
  have planned := (run.conforms (Nat.zero_le _)).plan
  by_cases fit : config.LengthsFit
  · have doubled : config.jamBytes.toNat * 2 < countLimit := fit.2
    have width : countLimit = 2 ^ 32 := rfl
    have period : GaloisRegister.fullPeriod = 2 ^ 32 - 1 := rfl
    omega
  · rw [Config.plan_of_not_fit fit] at planned
    cases planned

/-- A tick on which a frame is reported as sent adds its contents to what the receiver took in,
and no other tick adds anything. -/
theorem accepted_succ
    (consecutive : run.Consecutive)
    (unread : FrameStore.cursor run.source = 0)
    (appends : ∀ tick, tick < run.length → FrameStore.Appends (run.supply tick))
    (jams : 0 < config.jamBytes.toNat)
    (within : count < run.length)
    (clean : ∀ front ∈ FrameStore.frames (run.entering count).source, Clean front)
    (proof : ∀ front ∈ FrameStore.frames (run.entering count).source,
      JamProof config.jamBytes.toNat (config.minFrameBytes.toNat + Checksum.trailerLength)
        (contentsOf config.minFrameBytes.toNat front)) :
    let minLength := config.minFrameBytes.toNat + Checksum.trailerLength
    (run.receiver minLength (count + 1)).accepted =
      (run.receiver minLength count).accepted ++
        if (run.outputs count).status.ok then
          (FrameStore.frames (run.entering count).source).head?.toList.map fun front =>
            (run.reading count, contentsOf config.minFrameBytes.toNat front)
        else [] := by
  intro minLength
  obtain ⟨early, gap, timing⟩ := run.accepted.timing
  have heard : run.Hears minLength count :=
    hears timing consecutive unread appends (Nat.le_of_lt within)
  cases (heard.ticks timing consecutive within (appends count within)).2 with
  | nothing same unsent =>
      rw [unsent, if_neg Bool.false_ne_true, List.append_nil, Receiver.accepted, same]
      rfl
  | @burst begun ending front rest nibbles held driven sent pushed =>
      have member : front ∈ FrameStore.frames (run.entering count).source :=
        held ▸ List.mem_cons_self
      have decoded := driven.decode timing.preambleBytes_pos (clean front member) jams
        run.jamBytes_lt (proof front member)
      have pushedAccepted : (run.receiver minLength (count + 1)).accepted =
          (run.receiver minLength count).accepted ++
            ((Reception.decode nibbles minLength).toOption.map (run.reading count, ·)).toList := by
        rw [Receiver.accepted, pushed, Array.toList_push, List.filterMap_append]
        unfold Receiver.accepted
        cases found : (Reception.decode nibbles minLength).toOption with
        | none => simp [Received.accepted?, found]
        | some contents => simp [Received.accepted?, found]
      rw [pushedAccepted, decoded, held]
      by_cases ok : (run.outputs count).status.ok = true
      · rw [if_pos ok, if_pos (sent.mp ok)]
        rfl
      · rw [if_neg ok, if_neg fun ended => ok (sent.mpr ended)]
        rfl

end Run

end HalfDuplex
