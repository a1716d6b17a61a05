import HalfDuplex.Proofs.Delivery
import HalfDuplex.Proofs.Observation
import HalfDuplex.Proofs.Outcomes

/-!
# Replay from the queue

Over a queue of frames every attempt replays the frame in front from its first octet, and
the indicators follow the frames in the order in which they were accepted.

The frames accepted so far are the frames released followed by the frames queued, and a
frame is released with each indicator; so the number of indicators so far is the number of
the frame in front.  `Run.Reading` is what carries an attempt from its start to the octet
that it pulls: it has come as far into the frame as time went by, unless a collision was
noticed, and then in the last of its bytes.

The readings of the timer are arbitrary here.  An attempt may even start on the tick on
which the one before it ended.
-/

namespace HalfDuplex

namespace FrameQueue

variable {capacity : Nat}

/-- The frames that are accepted when frames are added one after the other. -/
def admitted (queue : FrameQueue capacity) : List Frame → List Frame
  | [] => []
  | frame :: frames =>
      match queue.enqueue frame with
      | (next, none) => frame :: next.admitted frames
      | (next, some _) => next.admitted frames

/-- An octet that a queue handed over, and where it came from. -/
structure Handover where
  frame : Frame
  place : Nat
  octet : Octet
  deriving DecidableEq, Repr

/-- What a queue handed over with an answer. -/
def handover? (queue : FrameQueue capacity) (answer : Pull) : Option Handover :=
  match queue.frames, answer with
  | frame :: _, .octet octet => some { frame, place := queue.cursor, octet }
  | _, _ => none

variable {queue after : FrameQueue capacity} {frame : Frame} {rest : List Frame}
  {now : Tick} {answer : Pull}

/-- What is added to a queue stands behind what was there. -/
theorem frames_offerAll (queue : FrameQueue capacity) (offered : List Frame) :
    (FrameStore.offerAll queue offered : FrameQueue capacity).frames =
      queue.frames ++ queue.admitted offered := by
  induction offered generalizing queue with
  | nil => exact (List.append_nil _).symm
  | cons frame offered inductionHypothesis =>
      have first : (FrameStore.offerAll queue (frame :: offered) : FrameQueue capacity) =
          FrameStore.offerAll (queue.offer frame) offered :=
        rfl
      rw [first, inductionHypothesis]
      by_cases full : queue.length = capacity
      · simp [offer, admitted, enqueue_of_full frame full]
      · obtain ⟨next, accepted, frames, _⟩ := enqueue_of_room frame full
        simp [offer, admitted, accepted, frames]

theorem answer_of_pull
    (held : queue.frames = frame :: rest)
    (pulled : ByteSource.pull queue now = .ok (after, answer)) :
    answer =
      match frame.octets[queue.cursor]? with
      | some octet => .octet octet
      | none => .finished := by
  have pulls : queue.pull = (after, answer) := Except.ok.inj pulled
  cases queue
  cases held
  simp only [pull] at pulls
  split at pulls
  · rename_i octet found
    cases pulls
    simp only [found]
  · rename_i missing
    cases pulls
    simp only [missing]

/-- A queue with a frame in it does not starve. -/
theorem not_starved (now : Tick)
    (held : queue.frames = frame :: rest) :
    ¬ ∃ after, ByteSource.pull queue now = .ok (after, .starved) := by
  rintro ⟨after, pulled⟩
  have answered := answer_of_pull held pulled
  split at answered
  · cases answered
  · cases answered

/-- A queue hands over the octets of the frame in front, one place after the other. -/
theorem handover?_of_pull
    (held : queue.frames = frame :: rest)
    (pulled : ByteSource.pull queue now = .ok (after, answer)) :
    queue.handover? answer =
      frame.octets[queue.cursor]?.map fun octet =>
        { frame, place := queue.cursor, octet } := by
  have answered := answer_of_pull held pulled
  unfold handover?
  rw [held, answered]
  cases frame.octets[queue.cursor]? with
  | none => rfl
  | some octet => rfl

theorem entries_injective (left right : Frame) (same : left.entries = right.entries) :
    left = right := by
  have octets : left.octets = right.octets :=
    (List.map_inj_right fun _ _ => ScriptEntry.octet.inj).mp same
  cases left
  cases right
  cases octets
  rfl

/-- The frames in a queue are determined by their places. -/
theorem frames_of_entries
    (same : FrameStore.frames after = FrameStore.frames queue) :
    after.frames = queue.frames :=
  (List.map_inj_right entries_injective).mp same

/-- A release takes the frame in front out of a queue. -/
theorem frames_of_release {front : List ScriptEntry}
    (released : FrameStore.frames queue = front :: FrameStore.frames after) :
    ∃ frame, queue.frames = frame :: after.frames := by
  obtain ⟨frame, rest, held, _, left⟩ := List.map_eq_cons_iff.mp released
  rw [(List.map_inj_right entries_injective).mp left] at held
  exact ⟨frame, held⟩

end FrameQueue

namespace Run

variable {config : Config} {γ : Type} [WordSource γ] {capacity : Nat}
  (run : Run config (FrameQueue capacity) γ)

/-- The queue was empty before `initial` was offered to it, and nothing else is done to it
than offering it `offers count` ahead of the tick `count`. -/
structure Fed (initial : List Frame) (offers : Nat → List Frame) : Prop where
  source : run.source = FrameStore.offerAll (FrameQueue.empty capacity) initial
  supply : ∀ tick, tick < run.length → ∀ queue : FrameQueue capacity,
    run.supply tick queue = FrameStore.offerAll queue (offers tick)

/-- The frames accepted ahead of the tick `count`, the earliest one first. -/
def admitted (initial : List Frame) (offers : Nat → List Frame) : Nat → List Frame
  | 0 => (FrameQueue.empty capacity).admitted initial
  | count + 1 =>
      admitted initial offers count ++ (run.engine count).source.admitted (offers count)

/-- Number of the ticks before `count` on which an indicator is raised. -/
def flags (count : Nat) : Nat :=
  (List.range count).countP fun tick => (run.outputs tick).status ≠ {}

def handovers (count : Nat) : List FrameQueue.Handover :=
  (run.asked count).filterMap fun asked => asked.1.handover? asked.2

variable {run} {initial : List Frame} {offers : Nat → List Frame} {count start : Nat}
  {early gap : Tick}

theorem Fed.appends (fed : run.Fed initial offers) :
    ∀ tick, tick < run.length → FrameStore.Appends (run.supply tick) :=
  fun tick within => ⟨offers tick, fed.supply tick within⟩

theorem Fed.entering
    (fed : run.Fed initial offers)
    (within : count < run.length) :
    (run.entering count).source.frames =
      (run.engine count).source.frames ++
        (run.engine count).source.admitted (offers count) := by
  have supplied : (run.entering count).source = run.supply count (run.engine count).source :=
    rfl
  rw [supplied, fed.supply count within, FrameQueue.frames_offerAll]

theorem Fed.cursor
    (fed : run.Fed initial offers)
    (within : count < run.length) :
    (run.entering count).source.cursor = (run.engine count).source.cursor :=
  (fed.appends count within).cursor _

theorem unstarted_of_marksOfStep {step : SequencerStep}
    (marked : run.marks count = Sequencer.marksOfStep (run.reading count) step) :
    ¬ run.Starts count := by
  unfold Starts
  rw [marked]
  exact Sequencer.not_hasStart_marksOfStep _ step

theorem flags_succ (count : Nat) :
    run.flags (count + 1) =
      run.flags count + if (run.outputs count).status ≠ {} then 1 else 0 := by
  simp [flags, List.range_succ]

theorem flags_of_unraised (unraised : (run.outputs count).status = {}) :
    run.flags (count + 1) = run.flags count := by
  simp [flags_succ, unraised]

theorem admitted_succ {released : List Frame}
    (fed : run.Fed initial offers)
    (within : count < run.length)
    (accepted :
      run.admitted initial offers count = released ++ (run.engine count).source.frames) :
    run.admitted initial offers (count + 1) =
      released ++ (run.entering count).source.frames := by
  rw [Run.admitted, accepted, List.append_assoc, fed.entering within]

/-- The frames accepted ahead of a tick are as many frames as indicators were raised, and
then the frames in the queue. -/
theorem conserves
    (fed : run.Fed initial offers)
    (within : count ≤ run.length) :
    ∃ released,
      run.admitted initial offers count = released ++ (run.engine count).source.frames ∧
        released.length = run.flags count := by
  induction count with
  | zero =>
      refine ⟨[], ?_, rfl⟩
      rw [run.source_at_setUp, fed.source, FrameQueue.frames_offerAll]
      rfl
  | succ count inductionHypothesis =>
      obtain ⟨released, accepted, number⟩ := inductionHypothesis (Nat.le_of_succ_le within)
      rw [admitted_succ fed within accepted]
      cases (resolves fed.appends within).2 with
      | leaves unraised unmarked kept =>
          refine ⟨released, ?_, ?_⟩
          · rw [FrameQueue.frames_of_entries kept]
          · rw [flags_of_unraised unraised, number]
      | releases outcome front raised marked gone =>
          obtain ⟨frame, held⟩ := FrameQueue.frames_of_release gone
          refine ⟨released ++ [frame], ?_, ?_⟩
          · rw [held, List.append_assoc, List.singleton_append]
          · rw [List.length_append, number, List.length_singleton, flags_succ,
              if_pos (raised ▸ outcome.indicators_ne)]

/-! ## Attempts -/

/-- The attempt that started on the tick `start` gets to the octet in a place by the tick
`count`, on which that octet is due.  A collision stops it before that only when it is
noticed ahead of the octet in the place before. -/
structure Reaches (run : Run config (FrameQueue capacity) γ) (start place count : Nat) :
    Prop where
  starts : run.Starts start
  due : count = start + (config.preambleBytes.toNat + place) * config.byteTime
  unstopped : ∀ tick, start ≤ tick →
    tick < start + (config.preambleBytes.toNat + (place - 1)) * config.byteTime →
      ¬ run.Notices tick

/-- The attempt that started on the tick `start` is in progress, nothing stopped it so far,
and its bytes are those of the frame in front.  A collision that was noticed is pending, and
it was noticed in the last of these bytes. -/
structure Reading (run : Run config (FrameQueue capacity) γ) (start count : Nat)
    (frame : Frame) (bytes : List Octet) : Prop where
  lastStart : run.LastStart start count
  elapsed : count = start + (run.engine count).sequencer.elapsed
  held : ∃ rest, (run.engine count).source.frames = frame :: rest
  writes :
    (run.engine count).sequencer.Writes frame.entries (run.engine count).source.cursor bytes
  unflagged : run.flags count = run.flags (start + 1)
  pending :
    (run.engine count).sequencer.aborting = true ↔
      ∃ tick, start ≤ tick ∧ tick < count ∧ run.Notices tick
  recent : ∀ tick, start ≤ tick → tick < count → run.Notices tick →
    start + (bytes.length - 1) * config.byteTime ≤ tick

/-- How far the engine is with the frame in front. -/
inductive Reads (run : Run config (FrameQueue capacity) γ) (count : Nat) : Prop
  | idle
      (idle : (run.engine count).sequencer.stage = .idle)
      (unread : (run.engine count).source.cursor = 0)
  | reading {start : Nat} {frame : Frame} {bytes : List Octet}
      (reading : run.Reading start count frame bytes)
  | lost
      (lost : (run.engine count).sequencer.Lost)

theorem turns (within : count < run.length) :
    Engine.Turns (run.reading count) (run.inputs count) (run.entering count)
      (run.engine (count + 1)) (run.outputs count) (run.marks count) :=
  (run.ticks within).turns

/-- What is known after a tick; in particular an attempt that starts on it reads the frame
in front. -/
structure Follows (run : Run config (FrameQueue capacity) γ) (count : Nat) : Prop where
  reads : run.Reads (count + 1)
  starts : run.Starts count → ∃ frame bytes, run.Reading count (count + 1) frame bytes

/-- The first tick of an attempt reads the frame in front. -/
theorem reading_of_start {sequencer : Sequencer} {source : FrameQueue capacity}
    {step : SequencerStep} {frame : Frame} {rest : List Frame}
    (timing : config.Timing early gap)
    (plan : LinePlan.ofConfig config = .ok sequencer.plan)
    (unread : source.cursor = 0)
    (held : source.frames = frame :: rest)
    (moves :
      Sequencer.Moves (run.reading count) (run.inputs count).collision sequencer.start source
        (run.engine (count + 1)).sequencer (run.engine (count + 1)).source step)
    (starts : run.Starts count)
    (noticed : run.Notices count ↔ step.collided = true) :
    ∃ bytes, run.Reading count (count + 1) frame bytes := by
  have preamblePositive : 0 < sequencer.plan.preambleBytes := by
    rw [LinePlan.ofConfig_eq_ok plan]
    exact timing.preambleBytes_pos
  have nibblePositive : 0 < sequencer.plan.nibbleTicks := by
    rw [LinePlan.ofConfig_eq_ok plan]
    exact timing.nibbleTicks_pos
  obtain ⟨bytes, writes, _, short⟩ :=
    Sequencer.start_writes preamblePositive nibblePositive
      (congrArg (List.map Frame.entries) held) unread moves
  obtain ⟨stepEqual, nextEqual, sourceEqual⟩ := Sequencer.start_moves preamblePositive moves
  have elapsed : (run.engine (count + 1)).sequencer.elapsed = 1 := by
    rw [nextEqual]
    rfl
  have aborting : (run.engine (count + 1)).sequencer.aborting = step.collided := by
    rw [nextEqual, stepEqual]
    rfl
  refine ⟨bytes, starts.lastStart, ?_, ?_, writes, rfl, ?_, ?_⟩
  · rw [elapsed]
  · rw [sourceEqual]
    exact ⟨rest, held⟩
  · rw [aborting, ← noticed]
    constructor
    · intro notices
      exact ⟨count, Nat.le_refl count, Nat.lt_succ_self count, notices⟩
    · rintro ⟨tick, after, before, notices⟩
      have same : tick = count := Nat.le_antisymm (Nat.le_of_lt_succ before) after
      exact same ▸ notices
  · intro tick after before notices
    rw [short, Nat.sub_self, Nat.zero_mul]
    exact after

/-- A tick after which no attempt is in progress, or another one has just started. -/
theorem follows_of_leaves {sequencer : Sequencer} {source : FrameQueue capacity}
    (timing : config.Timing early gap)
    (plan : LinePlan.ofConfig config = .ok sequencer.plan)
    (unread : source.cursor = 0)
    (leaves :
      Engine.Leaves (run.reading count) (run.inputs count) sequencer source
        (run.engine (count + 1)) (run.outputs count).signals (run.marks count)) :
    run.Follows count := by
  cases leaves with
  | rests idle same disabled unstarted =>
      exact ⟨.idle idle (same ▸ unread), fun starts => absurd starts unstarted⟩
  | starts waiting moves shown started noticed =>
      have ready : FrameStore.frames source ≠ [] := (FrameStore.ready_iff source).mp waiting
      obtain ⟨front, others, waits⟩ := List.exists_cons_of_ne_nil ready
      obtain ⟨frame, rest, held, _⟩ := List.map_eq_cons_iff.mp waits
      obtain ⟨bytes, reading⟩ :=
        reading_of_start timing plan unread held moves started noticed
      exact ⟨.reading reading, fun _ => ⟨frame, bytes, reading⟩⟩

theorem noticed_succ (begun : start ≤ count) :
    (∃ tick, start ≤ tick ∧ tick < count + 1 ∧ run.Notices tick) ↔
      (∃ tick, start ≤ tick ∧ tick < count ∧ run.Notices tick) ∨ run.Notices count := by
  constructor
  · rintro ⟨tick, after, before, notices⟩
    rcases Nat.lt_succ_iff_lt_or_eq.mp before with earlier | rfl
    · exact .inl ⟨tick, after, earlier, notices⟩
    · exact .inr notices
  · rintro (⟨tick, after, before, notices⟩ | notices)
    · exact ⟨tick, after, Nat.lt_succ_of_lt before, notices⟩
    · exact ⟨count, begun, Nat.lt_succ_self count, notices⟩

theorem Reading.begun_le {frame : Frame} {bytes : List Octet}
    (timing : config.Timing early gap)
    (within : count ≤ run.length)
    (reading : run.Reading start count frame bytes) :
    start + (bytes.length - 1) * config.byteTime ≤ count := by
  have begun := reading.writes.paced.begun_le
  rw [plan_byteTime timing within] at begun
  rw [reading.elapsed]
  exact Nat.add_le_add_left begun start

theorem Reading.entering {frame : Frame} {bytes : List Octet}
    (fed : run.Fed initial offers)
    (within : count < run.length)
    (reading : run.Reading start count frame bytes) :
    ∃ others, (run.entering count).source.frames = frame :: others := by
  obtain ⟨rest, held⟩ := reading.held
  refine ⟨rest ++ (run.engine count).source.admitted (offers count), ?_⟩
  rw [fed.entering within, held, List.cons_append]

theorem Reading.grows {frame : Frame} {rest : List Frame} {bytes more : List Octet}
    {step : SequencerStep}
    (timing : config.Timing early gap)
    (within : count < run.length)
    (reading : run.Reading start count frame bytes)
    (held : (run.entering count).source.frames = frame :: rest)
    (active : (run.entering count).sequencer.stage ≠ .idle)
    (moves :
      Sequencer.Moves (run.reading count) (run.inputs count).collision
        (run.entering count).sequencer (run.entering count).source
        (run.engine (count + 1)).sequencer (run.engine (count + 1)).source step)
    (unended : step.ending = none)
    (unraised : (run.outputs count).status = {})
    (marked : run.marks count = Sequencer.marksOfStep (run.reading count) step)
    (writes :
      (run.engine (count + 1)).sequencer.Writes frame.entries
        (run.engine (count + 1)).source.cursor more)
    (pending :
      (run.engine (count + 1)).sequencer.aborting =
        ((run.engine count).sequencer.aborting || step.collided))
    (longer :
      more.length = bytes.length ∨
        more.length = bytes.length + 1 ∧ (run.engine count).sequencer.aborting = false ∧
          count = start + bytes.length * config.byteTime) :
    run.Reading start (count + 1) frame more := by
  have begun : start ≤ count := Nat.le_of_lt reading.lastStart.before
  have notices : run.Notices count ↔ step.collided = true := by
    unfold Notices
    rw [marked]
    exact Sequencer.hasNotice_marksOfStep _ step
  have unstarted := unstarted_of_marksOfStep marked
  refine ⟨reading.lastStart.next unstarted, ?_, ⟨rest, ?_⟩, writes, ?_, ?_, ?_⟩
  · have elapsed := moves.elapsed active unended
    have before : count = start + (run.entering count).sequencer.elapsed := reading.elapsed
    rw [elapsed, ← Nat.add_assoc, ← before]
  · rw [FrameQueue.frames_of_entries moves.frames, held]
  · rw [flags_of_unraised unraised, reading.unflagged]
  · rw [pending, Bool.or_eq_true, reading.pending, ← notices, noticed_succ begun]
  · intro tick after before noticed
    rcases longer with same | ⟨longer, calm, lapsed⟩
    · rw [same]
      rcases Nat.lt_succ_iff_lt_or_eq.mp before with earlier | rfl
      · exact reading.recent tick after earlier noticed
      · exact reading.begun_le timing (Nat.le_of_lt within)
    · rw [longer, Nat.add_sub_cancel, ← lapsed]
      by_cases earlier : tick < count
      · have aborting := reading.pending.mpr ⟨tick, after, earlier, noticed⟩
        cases calm.symm.trans aborting
      · exact Nat.le_of_not_lt earlier

/-- A whole frame has more bytes than its preamble and its octets. -/
theorem octets_lt_of_whole {sequencer : Sequencer} {frame : Frame} {octets bytes : List Octet}
    (preamblePositive : 0 < sequencer.plan.preambleBytes)
    (whole : frame.entries = octets.map .octet)
    (complete :
      bytes = frameOctets sequencer.plan.preambleBytes sequencer.plan.minFrame octets) :
    sequencer.plan.preambleBytes + frame.octets.length < bytes.length := by
  have octetsEqual : frame.octets = octets :=
    (List.map_inj_right fun _ _ => ScriptEntry.octet.inj).mp whole
  have longest := Nat.le_max_left octets.length sequencer.plan.minFrame
  have positive : 0 < Checksum.trailerLength := by decide
  rw [complete, length_frameOctets preamblePositive, octetsEqual]
  lia

/-- An attempt that reads the frame in front goes on with that, or it is over with the
frame, or it gives way to a collision when its last byte is over. -/
theorem Reading.goes {frame : Frame} {bytes : List Octet}
    (fed : run.Fed initial offers)
    (timing : config.Timing early gap)
    (within : count < run.length)
    (reading : run.Reading start count frame bytes) :
    (¬ run.Starts count ∧ ∃ more, run.Reading start (count + 1) frame more) ∨
      run.Follows count ∧ count = start + bytes.length * config.byteTime ∧
        ((run.engine count).sequencer.aborting = true ∨
          config.preambleBytes.toNat + frame.octets.length < bytes.length) := by
  obtain ⟨rest, heldThen⟩ := reading.entering fed within
  have heldStore := congrArg (List.map Frame.entries) heldThen
  obtain ⟨preamblePositive, nibblePositive⟩ := plan_positive timing (Nat.le_of_lt within)
  have conforms := run.conforms (Nat.le_of_lt within)
  have writes : (run.entering count).sequencer.Writes frame.entries
      (run.entering count).source.cursor bytes := by
    rw [fed.cursor within]
    exact reading.writes
  have lapsed (completes : (run.engine count).sequencer.Completes bytes) :
      count = start + bytes.length * config.byteTime := by
    rw [← (completes_iff timing (Nat.le_of_lt within)).mp completes]
    exact reading.elapsed
  have unstarved := FrameQueue.not_starved (run.reading count) heldThen
  cases run.turns within with
  | waits idle leaves =>
      have abortable := writes.stands.abortable
      simp [idle, Stage.abortable] at abortable
  | goesOn active moves unended shown unraised marked =>
      have unstarted := unstarted_of_marksOfStep marked
      cases writes.moves preamblePositive nibblePositive heldStore moves with
      | writes more writesNext _ nibbles pending longer =>
          have longerThen := longer.imp_right fun known =>
            And.intro known.1 (And.intro known.2.1 (lapsed known.2.2))
          have readingNext : run.Reading start (count + 1) frame more :=
            reading.grows timing within heldThen active moves unended unraised marked
              writesNext pending longerThen
          exact .inl ⟨unstarted, more, readingNext⟩
      | lost lost _ stopped completes =>
          have aborting := stopped.resolve_right unstarved
          have follows : run.Follows count :=
            ⟨.lost lost, fun starts => absurd starts unstarted⟩
          exact .inr ⟨follows, lapsed completes, .inl aborting⟩
      | sent ended => cases unended.symm.trans ended
      | jammed ended => cases unended.symm.trans ended
  | stops moves ended settles status leaves =>
      have plan : LinePlan.ofConfig config = .ok _ := moves.plan.symm ▸ conforms.plan
      have follows : run.Follows count :=
        follows_of_leaves timing plan settles.cursor leaves
      cases writes.moves preamblePositive nibblePositive heldStore moves with
      | writes more _ unended => cases unended.symm.trans ended
      | lost _ unended => cases unended.symm.trans ended
      | sent _ whole complete completes =>
          have longer := octets_lt_of_whole preamblePositive whole complete
          rw [conforms.preambleBytes] at longer
          exact .inr ⟨follows, lapsed completes, .inr longer⟩
      | jammed _ aborting completes =>
          exact .inr ⟨follows, lapsed completes, .inl aborting⟩

/-- A tick keeps what is known of the attempt in progress. -/
theorem Reads.ticks
    (fed : run.Fed initial offers)
    (timing : config.Timing early gap)
    (within : count < run.length)
    (reads : run.Reads count) :
    run.Follows count := by
  have conforms := run.conforms (Nat.le_of_lt within)
  cases reads with
  | idle idle unread =>
      have unreadThen : (run.entering count).source.cursor = 0 :=
        (fed.cursor within).trans unread
      cases run.turns within with
      | waits _ unraised leaves => exact follows_of_leaves timing conforms.plan unreadThen leaves
      | goesOn active => exact absurd idle active
      | stops moves ended =>
          obtain ⟨_, _, rfl⟩ := moves.resting idle
          cases ended
  | reading reading =>
      rcases reading.goes fed timing within with ⟨unstarted, more, readingNext⟩ | ⟨follows, _⟩
      · exact ⟨.reading readingNext, fun starts => absurd starts unstarted⟩
      · exact follows
  | lost lost =>
      cases run.turns within with
      | waits idle => exact absurd idle lost.active
      | goesOn active moves unended shown unraised marked =>
          have unstarted := unstarted_of_marksOfStep marked
          rcases lost.moves moves with ⟨_, lostNext⟩ | underflow | jammed
          · exact ⟨.lost lostNext, fun starts => absurd starts unstarted⟩
          · cases unended.symm.trans underflow
          · cases unended.symm.trans jammed
      | stops moves ended settles status leaves =>
          have plan : LinePlan.ofConfig config = .ok _ := moves.plan.symm ▸ conforms.plan
          exact follows_of_leaves timing plan settles.cursor leaves

theorem reads
    (fed : run.Fed initial offers)
    (timing : config.Timing early gap)
    (within : count ≤ run.length) :
    run.Reads count := by
  induction count with
  | zero =>
      have unread : (run.engine 0).source.cursor = 0 := by
        rw [run.source_at_setUp, fed.source]
        exact FrameStore.cursor_offerAll (FrameQueue.empty capacity) initial
      exact .idle run.idle_at_setUp unread
  | succ count inductionHypothesis =>
      have before := inductionHypothesis (Nat.le_of_succ_le within)
      exact (before.ticks fed timing within).reads

/-- Until the octet that it reaches is due, an attempt reads the frame in front. -/
theorem reads_until {place : Nat} {frame : Frame}
    (fed : run.Fed initial offers)
    (timing : config.Timing early gap)
    (unstopped : ∀ tick, start ≤ tick →
      tick < start + (config.preambleBytes.toNat + (place - 1)) * config.byteTime →
        ¬ run.Notices tick)
    (inside : place < frame.octets.length)
    (begun : ∃ bytes, run.Reading start (start + 1) frame bytes)
    (after : start < count)
    (ahead : count ≤ start + (config.preambleBytes.toNat + place) * config.byteTime)
    (within : count ≤ run.length) :
    ∃ bytes, run.Reading start count frame bytes := by
  induction count with
  | zero => exact absurd after (Nat.not_lt_zero start)
  | succ count inductionHypothesis =>
      rcases Nat.lt_succ_iff_lt_or_eq.mp after with later | rfl
      · obtain ⟨bytes, reading⟩ :=
          inductionHypothesis later (Nat.le_of_succ_le ahead) (Nat.le_of_succ_le within)
        rcases reading.goes fed timing within with ⟨_, goesOn⟩ | ⟨_, lapsed, stopped⟩
        · exact goesOn
        · have fewer : bytes.length * config.byteTime <
              (config.preambleBytes.toNat + place) * config.byteTime := by
            lia
          have short : bytes.length < config.preambleBytes.toNat + place :=
            Nat.lt_of_mul_lt_mul_right fewer
          rcases stopped with aborting | complete
          · obtain ⟨tick, after, before, notices⟩ := reading.pending.mp aborting
            have early : bytes.length * config.byteTime ≤
                (config.preambleBytes.toNat + (place - 1)) * config.byteTime :=
              Nat.mul_le_mul_right config.byteTime (by omega)
            exact absurd notices (unstopped tick after (by lia))
          · omega
      · exact begun

/-! ## Octets handed over -/

namespace Reading

variable {frame : Frame} {bytes : List Octet}

/-- An attempt that asks the queue has it hand over an octet of the frame in front, or
learns that there is none. -/
theorem handovers
    (fed : run.Fed initial offers)
    (within : count < run.length)
    (reading : run.Reading start count frame bytes)
    (asks : (run.entering count).sequencer.Asks) :
    run.handovers count =
      (frame.octets[(run.engine count).source.cursor]?.map fun octet =>
        { frame, place := (run.engine count).source.cursor, octet }).toList := by
  obtain ⟨rest, heldThen⟩ := reading.entering fed within
  rcases run.asked_once within with ⟨_, after, answer, pulled, asked⟩ | ⟨silent, _⟩
  · have answered := FrameQueue.handover?_of_pull heldThen pulled
    rw [fed.cursor within] at answered
    unfold Run.handovers
    rw [asked, List.filterMap_cons, answered]
    cases frame.octets[(run.engine count).source.cursor]? with
    | none => rfl
    | some octet => rfl
  · exact absurd asks silent

/-- When an attempt asks the queue, the octet that comes next in the frame is due. -/
theorem reaches
    (timing : config.Timing early gap)
    (within : count < run.length)
    (reading : run.Reading start count frame bytes)
    (asks : (run.engine count).sequencer.Asks) :
    run.Reaches start (run.engine count).source.cursor count := by
  obtain ⟨preamblePositive, nibblePositive⟩ := plan_positive timing (Nat.le_of_lt within)
  have preamble := (run.conforms (Nat.le_of_lt within)).preambleBytes
  have pulling : (run.engine count).sequencer.Pulling := by
    rcases asks.among with data | ⟨_, pulling⟩
    · exact .inl data
    · exact pulling
  obtain ⟨octets, _, place, _, _, begun⟩ :=
    reading.writes.stands.pulling preamblePositive pulling
  have length : bytes.length =
      config.preambleBytes.toNat + (run.engine count).source.cursor := by
    rw [begun, List.length_append, length_preambleOctets preamblePositive, preamble, place]
  have completes : (run.engine count).sequencer.Completes bytes :=
    (reading.writes.paced.boundary_iff nibblePositive).mpr ⟨asks.due, asks.low, rfl⟩
  have elapsed := (completes_iff timing (Nat.le_of_lt within)).mp completes
  have due : count = start +
      (config.preambleBytes.toNat + (run.engine count).source.cursor) * config.byteTime := by
    rw [← length, ← elapsed]
    exact reading.elapsed
  refine ⟨reading.lastStart.starts, due, ?_⟩
  intro tick after before notices
  have earlier : tick < count := by
    have shorter := Nat.mul_le_mul_right config.byteTime
      (Nat.add_le_add_left (Nat.sub_le (run.engine count).source.cursor 1)
        config.preambleBytes.toNat)
    lia
  have aborting := reading.pending.mpr ⟨tick, after, earlier, notices⟩
  rcases asks.among with data | ⟨calm, _⟩
  · have positive := reading.writes.stands.begun_of_data data
    have recent := reading.recent tick after earlier notices
    have last : bytes.length - 1 =
        config.preambleBytes.toNat + ((run.engine count).source.cursor - 1) := by
      omega
    rw [last] at recent
    exact absurd before (Nat.not_lt.mpr recent)
  · cases calm.symm.trans aborting

/-- When the octet that it reaches is due, an attempt asks the queue for it. -/
theorem asks {place : Nat}
    (timing : config.Timing early gap)
    (within : count < run.length)
    (reading : run.Reading start count frame bytes)
    (reaches : run.Reaches start place count)
    (inside : place < frame.octets.length) :
    (run.engine count).sequencer.Asks ∧ (run.engine count).source.cursor = place := by
  obtain ⟨preamblePositive, nibblePositive⟩ := plan_positive timing (Nat.le_of_lt within)
  have conforms := run.conforms (Nat.le_of_lt within)
  have preamble := conforms.preambleBytes
  have elapsed : (run.engine count).sequencer.elapsed =
      (config.preambleBytes.toNat + place) *
        (2 * (run.engine count).sequencer.plan.nibbleTicks) := by
    rw [plan_byteTime timing (Nat.le_of_lt within)]
    exact Nat.add_left_cancel (reading.elapsed.symm.trans reaches.due)
  obtain ⟨due, low, length⟩ :=
    (reading.writes.paced.boundary_iff nibblePositive).mp elapsed
  have frameLength : frame.entries.length = frame.octets.length :=
    List.length_map ScriptEntry.octet
  have whole : (preambleOctets (run.engine count).sequencer.plan.preambleBytes).length =
      config.preambleBytes.toNat := by
    rw [length_preambleOctets preamblePositive, preamble]
  cases reading.writes.stands with
  | preamble stage within unread =>
      rw [List.length_take, whole] at length
      have first : place = 0 := by omega
      subst first
      have complete : (run.engine count).sequencer.plan.preambleBytes ≤
          (run.engine count).sequencer.position := by omega
      have calm : (run.engine count).sequencer.aborting = false := by
        by_cases aborting : (run.engine count).sequencer.aborting = true
        · obtain ⟨tick, after, before, notices⟩ := reading.pending.mp aborting
          have ahead := reaches.due ▸ before
          exact absurd notices (reaches.unstopped tick after ahead)
        · simpa using aborting
      exact ⟨⟨due, low, .inr ⟨calm, .inr ⟨stage, complete⟩⟩⟩, unread⟩
  | data stage begun read cursor =>
      rw [List.length_append, whole] at length
      exact ⟨⟨due, low, .inl stage⟩, cursor.trans (Nat.add_left_cancel length)⟩
  | pad stage entries =>
      rw [entries, List.length_map] at frameLength
      rw [List.length_append, List.length_append, whole] at length
      omega
  | trailer stage entries =>
      rw [entries, List.length_map] at frameLength
      rw [List.length_append, List.length_append, whole, length_paddedOctets] at length
      omega

end Reading

/-- The frame that an attempt reads has the number of the next indicator. -/
theorem Reading.front {frame : Frame} {bytes : List Octet}
    (fed : run.Fed initial offers)
    (within : count ≤ run.length)
    (reading : run.Reading start count frame bytes) :
    (run.admitted initial offers count)[run.flags (start + 1)]? = some frame := by
  obtain ⟨released, accepted, number⟩ := conserves fed within
  obtain ⟨rest, held⟩ := reading.held
  rw [accepted, held, ← reading.unflagged, ← number]
  simp

/-- An attempt that starts reads the frame in front, and has the queue hand over each octet
that it reaches. -/
theorem replays
    (fed : run.Fed initial offers)
    (within : start < run.length)
    (starts : run.Starts start) :
    ∃ frame, (run.admitted initial offers (start + 1))[run.flags (start + 1)]? = some frame ∧
      ∀ place octet tick, tick < run.length → run.Reaches start place tick →
        frame.octets[place]? = some octet →
          run.handovers tick = [{ frame, place, octet }] := by
  obtain ⟨early, gap, timing⟩ := run.accepted.timing
  have before := reads fed timing (Nat.le_of_lt within)
  obtain ⟨frame, bytes, begun⟩ := (before.ticks fed timing within).starts starts
  refine ⟨frame, begun.front fed within, ?_⟩
  intro place octet tick tickWithin reaches found
  have inside : place < frame.octets.length := (List.getElem?_eq_some_iff.mp found).1
  have preamblePositive := timing.preambleBytes_pos
  have lasts : 0 < (config.preambleBytes.toNat + place) * config.byteTime :=
    Nat.mul_pos (Nat.add_pos_left preamblePositive place) timing.byteTime_pos
  have after : start < tick := by
    rw [reaches.due]
    exact Nat.lt_add_of_pos_right lasts
  obtain ⟨more, reading⟩ :=
    reads_until fed timing reaches.unstopped inside ⟨bytes, begun⟩ after
      (Nat.le_of_eq reaches.due) (Nat.le_of_lt tickWithin)
  obtain ⟨asks, cursor⟩ := reading.asks timing tickWithin reaches inside
  rw [reading.handovers fed tickWithin asks, cursor, found]
  rfl

/-- An octet is handed over only when an attempt reaches it. -/
theorem handovers_reached
    (fed : run.Fed initial offers)
    (within : count < run.length) :
    run.handovers count = [] ∨
      ∃ start frame place octet, run.LastStart start count ∧ run.Reaches start place count ∧
        (run.admitted initial offers count)[run.flags (start + 1)]? = some frame ∧
        frame.octets[place]? = some octet ∧
        run.handovers count = [{ frame, place, octet }] := by
  obtain ⟨early, gap, timing⟩ := run.accepted.timing
  rcases run.asked_once within with ⟨asks, _⟩ | ⟨_, silent⟩
  · cases reads fed timing (Nat.le_of_lt within) with
    | idle idle => exact absurd asks.among (Sequencer.not_among_of_stage idle nofun nofun)
    | @reading start frame bytes reading =>
        have handed := reading.handovers fed within asks
        cases found : frame.octets[(run.engine count).source.cursor]? with
        | none =>
            rw [found] at handed
            exact .inl handed
        | some octet =>
            rw [found] at handed
            exact .inr ⟨start, frame, _, octet, reading.lastStart,
              reading.reaches timing within asks, reading.front fed (Nat.le_of_lt within),
              found, handed⟩
    | lost lost =>
        rcases lost with marker | ⟨remaining, jam⟩
        · exact absurd asks.among (Sequencer.not_among_of_stage marker nofun nofun)
        · exact absurd asks.among (Sequencer.not_among_of_stage jam nofun nofun)
  · refine .inl ?_
    unfold Run.handovers
    rw [silent]
    rfl

/-- The frame that is released with an indicator has the number of that indicator. -/
theorem releases_in_order
    (fed : run.Fed initial offers)
    (within : count < run.length)
    (raised : (run.outputs count).status ≠ {}) :
    ∃ frame, (run.admitted initial offers (count + 1))[run.flags count]? = some frame ∧
      (run.entering count).source.frames =
        frame :: (run.engine (count + 1)).source.frames := by
  cases (resolves fed.appends within).2 with
  | leaves unraised => exact absurd unraised raised
  | releases outcome front _ marked gone =>
      obtain ⟨frame, held⟩ := FrameQueue.frames_of_release gone
      obtain ⟨released, accepted, number⟩ := conserves fed (Nat.le_of_lt within)
      refine ⟨frame, ?_, held⟩
      rw [admitted_succ fed within accepted, held, ← number]
      simp

/-- The queue is replayed in order.  The frame released with an indicator is the one with
the number of that indicator among the frames accepted.  Each attempt from one indicator to
the next reads that frame alone: the octet in a place is handed over once, after the
preamble and the octets before it took their time, unless a collision stopped the attempt
ahead of it; and nothing is handed over on any other tick.  Whatever is offered to the queue
next, the frames accepted are as many as the indicators and the frames queued, and a frame
is refused, handed back and without effect on the queue, exactly when the queue is full. -/
theorem replays_in_order
    (fed : run.Fed initial offers) :
    (∀ tick, tick < run.length → (run.outputs tick).status ≠ {} →
      ∃ frame, (run.admitted initial offers (tick + 1))[run.flags tick]? = some frame ∧
        (run.entering tick).source.frames =
          frame :: (run.engine (tick + 1)).source.frames) ∧
    (∀ start, start < run.length → run.Starts start →
      ∃ frame,
        (run.admitted initial offers (start + 1))[run.flags (start + 1)]? = some frame ∧
        ∀ place octet tick, tick < run.length → run.Reaches start place tick →
          frame.octets[place]? = some octet →
            run.handovers tick = [{ frame, place, octet }]) ∧
    (∀ tick, tick < run.length → run.handovers tick = [] ∨
      ∃ start frame place octet, run.LastStart start tick ∧ run.Reaches start place tick ∧
        (run.admitted initial offers tick)[run.flags (start + 1)]? = some frame ∧
        frame.octets[place]? = some octet ∧
        run.handovers tick = [{ frame, place, octet }]) ∧
    ∀ count, count ≤ run.length → ∀ offered : List Frame,
      let queue : FrameQueue capacity :=
        FrameStore.offerAll (run.engine count).source offered
      (run.admitted initial offers count ++
          (run.engine count).source.admitted offered).length =
        run.flags count + queue.length ∧
      ∀ frame,
        if queue.length = capacity then queue.enqueue frame = (queue, some frame)
        else ∃ next, queue.enqueue frame = (next, none) ∧
          next.frames = queue.frames ++ [frame] ∧ next.cursor = queue.cursor := by
  refine ⟨fun tick => releases_in_order fed, fun start => replays fed,
    fun tick => handovers_reached fed, ?_⟩
  intro count within offered queue
  constructor
  · obtain ⟨released, accepted, number⟩ := conserves fed within
    have queued : queue.frames = _ :=
      FrameQueue.frames_offerAll (run.engine count).source offered
    rw [accepted, List.append_assoc, ← queued, List.length_append, number]
    rfl
  · intro frame
    by_cases full : queue.length = capacity
    · rw [if_pos full]
      exact FrameQueue.enqueue_of_full frame full
    · rw [if_neg full]
      exact FrameQueue.enqueue_of_room frame full

def pairFrame : Frame where
  octets := [.byte 0xA5, .byte 0x5A]

/-- A frame is offered while the queue is full, and another one when it is empty. -/
def lateOffers (count : Nat) : List Frame :=
  if count = 3 ∨ count = 25 then [{ octets := [.poisoned] }] else []

/-- A collision in the first octet of a frame lets its first attempt pull the second one in
vain. -/
def replayScenario : Scenario (FrameQueue 1) ZeroWords where
  source := FrameStore.offerAll (FrameQueue.empty 1) [pairFrame]
  words := {}
  supply count queue := FrameStore.offerAll queue (lateOffers count)
  inputs count := { collision := count = 5 }

def replayRun : Run { Config.brief with slotBytes := 8 } (FrameQueue 1) ZeroWords :=
  (replayScenario.run? { Config.brief with slotBytes := 8 } 29).get (by decide +kernel)

theorem replays_in_order_replayRun :
    replayRun.Fed [pairFrame] lateOffers ∧
      replayRun.handovers 6 = [{ frame := pairFrame, place := 1, octet := .byte 0x5A }] ∧
      replayRun.handovers 14 = [{ frame := pairFrame, place := 1, octet := .byte 0x5A }] ∧
      (replayRun.entering 24).source.frames =
        pairFrame :: (replayRun.engine 25).source.frames ∧
      (replayRun.admitted [pairFrame] lateOffers 28).length =
        replayRun.flags 28 + (replayRun.engine 28).source.length := by
  have fed : replayRun.Fed [pairFrame] lateOffers := ⟨rfl, fun _ _ _ => rfl⟩
  obtain ⟨released, replayed, _, conserved⟩ := replays_in_order fed
  have calm (tick : Nat) (marks : List Mark) (marked : replayRun.marks tick = marks)
      (unnoticed : ¬ HasNotice marks) : ¬ replayRun.Notices tick := by
    unfold Notices
    rw [marked]
    exact unnoticed
  have firstReaches : replayRun.Reaches 2 1 6 := by
    refine ⟨⟨0, 2, by decide +kernel⟩, rfl, ?_⟩
    intro tick after before
    have last : tick < 4 := before
    have either : tick = 2 ∨ tick = 3 := by omega
    rcases either with rfl | rfl
    · exact calm 2 [.started 0 2] (by decide +kernel) (by simp)
    · exact calm 3 [] (by decide +kernel) not_hasNotice_nil
  have secondReaches : replayRun.Reaches 10 1 14 := by
    refine ⟨⟨1, 10, by decide +kernel⟩, rfl, ?_⟩
    intro tick after before
    have last : tick < 12 := before
    have either : tick = 10 ∨ tick = 11 := by omega
    rcases either with rfl | rfl
    · exact calm 10 [.started 1 10] (by decide +kernel) (by simp)
    · exact calm 11 [] (by decide +kernel) not_hasNotice_nil
  obtain ⟨first, firstFront, firstHands⟩ :=
    replayed 2 (by decide +kernel) firstReaches.starts
  obtain ⟨second, secondFront, secondHands⟩ :=
    replayed 10 (by decide +kernel) secondReaches.starts
  obtain ⟨third, thirdFront, gone⟩ := released 24 (by decide +kernel) (by decide +kernel)
  have firstFound : (replayRun.admitted [pairFrame] lateOffers 3)[replayRun.flags 3]? =
      some pairFrame := by
    decide +kernel
  have secondFound : (replayRun.admitted [pairFrame] lateOffers 11)[replayRun.flags 11]? =
      some pairFrame := by
    decide +kernel
  have thirdFound : (replayRun.admitted [pairFrame] lateOffers 25)[replayRun.flags 24]? =
      some pairFrame := by
    decide +kernel
  obtain rfl : pairFrame = first := Option.some.inj (firstFound.symm.trans firstFront)
  obtain rfl : pairFrame = second := Option.some.inj (secondFound.symm.trans secondFront)
  obtain rfl : pairFrame = third := Option.some.inj (thirdFound.symm.trans thirdFront)
  have counted := (conserved 28 (by decide +kernel) []).1
  rw [FrameQueue.admitted, List.append_nil] at counted
  exact ⟨fed, firstHands 1 _ 6 (by decide +kernel) firstReaches rfl,
    secondHands 1 _ 14 (by decide +kernel) secondReaches rfl, gone, counted⟩

end Run

end HalfDuplex
