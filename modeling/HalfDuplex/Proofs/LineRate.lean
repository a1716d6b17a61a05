import HalfDuplex.Proofs.Coherence
import HalfDuplex.Proofs.Mirroring
import HalfDuplex.Proofs.Pace
import Mathlib.Data.List.Forall2

/-!
# Sources at line rate

A scripted source that stalls nowhere, and is not slower than the line, cannot be told from
the queue of the same frames.  The octets of an attempt are pulled whole byte times apart,
so by the time the next one is due the pace of the frame never holds it back; and since a
rewind and a release forget the last pull, the pace of one attempt does not reach into the
next.

`Run.Spaced` is the invariant: whenever the source remembers a pull, an attempt is in
progress, and the pull lies on a byte boundary of it.
-/

namespace HalfDuplex

/-- The frame as a scripted source supplies it, with the least number of ticks from one octet
to the next. -/
def Frame.scripted (frame : Frame) (cadence : Tick) : ScriptedFrame :=
  { entries := frame.entries, cadence }

/-- A scripted frame has the octets of a frame in the queue, and its pace leaves at most a byte
time between two of them. -/
structure AtLineRate (byteTime : Tick) (frame : Frame) (scripted : ScriptedFrame) : Prop where
  entries : scripted.entries = frame.entries
  cadence : scripted.cadence ≤ byteTime

/-- A scripted source at line rate holds the frames of a queue, and stands in the same place. -/
structure SameFrames {capacity : Nat} (byteTime : Tick) (queue : FrameQueue capacity)
    (source : ScriptedSource) : Prop where
  frames : List.Forall₂ (AtLineRate byteTime) queue.frames source.frames
  cursor : source.cursor = queue.cursor

namespace SameFrames

variable {capacity : Nat} {byteTime now : Tick} {queue : FrameQueue capacity}
  {source : ScriptedSource}

theorem ready (same : SameFrames byteTime queue source) :
    ByteSource.ready source = ByteSource.ready queue := by
  have frames := same.frames
  show (!source.frames.isEmpty) = !queue.frames.isEmpty
  revert frames
  generalize queue.frames = waiting
  generalize source.frames = scripted
  intro frames
  cases frames <;> rfl

theorem release (same : SameFrames byteTime queue source) :
    SameFrames byteTime queue.release source.release := by
  have frames := same.frames
  refine ⟨?_, rfl⟩
  show List.Forall₂ _ queue.frames.tail source.frames.tail
  revert frames
  generalize queue.frames = waiting
  generalize source.frames = scripted
  intro frames
  cases frames with
  | nil => exact .nil
  | cons first rest => exact rest

/-- A frame that arrives at both sources, where the queue has room for it. -/
theorem offer {cadence : Tick}
    (same : SameFrames byteTime queue source)
    (frame : Frame)
    (paced : cadence ≤ byteTime)
    (room : queue.length < capacity) :
    SameFrames byteTime (queue.offer frame) (source.push (frame.scripted cadence)) ∧
      (queue.offer frame).length = queue.length + 1 := by
  obtain ⟨next, accepted, frames, cursor⟩ :=
    FrameQueue.enqueue_of_room frame (Nat.ne_of_lt room)
  have offered : queue.offer frame = next := by
    unfold FrameQueue.offer
    rw [accepted]
  rw [offered]
  constructor
  · constructor
    case frames =>
      rw [frames]
      exact List.rel_append same.frames (.cons ⟨rfl, paced⟩ .nil)
    case cursor => exact same.cursor.trans cursor.symm
  · unfold FrameQueue.length
    rw [frames, List.length_append, List.length_singleton]

/-- The pace of the frame in front does not hold the next octet back. -/
theorem heldBack {cadence : Tick}
    (spaced : ∀ last, source.last = some last → last + byteTime ≤ now)
    (paced : cadence ≤ byteTime) :
    source.heldBack cadence now = .ok false ∨
      source.heldBack cadence now = .error .additionOverflow := by
  unfold ScriptedSource.heldBack
  cases pulled : source.last with
  | none => exact .inl rfl
  | some last =>
      have elapsed := spaced last pulled
      by_cases fits : last + cadence < wideLimit
      · have passed : ¬ now < last + cadence := by lia
        left
        simp [checkedAdd, fits, passed, bind, Except.bind, pure, Except.pure]
      · right
        simp [checkedAdd, fits, bind, Except.bind]

end SameFrames

namespace FrameQueue

variable {capacity : Nat}

/-- A queue and a scripted source at line rate with the same frames. -/
def likeness (capacity : Nat) (byteTime : Tick) :
    Likeness (FrameQueue capacity) ScriptedSource where
  Alike := SameFrames byteTime
  ready := SameFrames.ready
  rewind same := ⟨same.frames, rfl⟩
  release := SameFrames.release

theorem answers {byteTime now : Tick} {queue : FrameQueue capacity} {source : ScriptedSource}
    (same : SameFrames byteTime queue source)
    (spaced : ∀ last, source.last = some last → last + byteTime ≤ now) :
    (likeness capacity byteTime).Answers now now queue source := by
  obtain ⟨waiting, cursor, fits⟩ := queue
  obtain ⟨scripted, place, last⟩ := source
  obtain rfl : place = cursor := same.cursor
  have frames : List.Forall₂ (AtLineRate byteTime) waiting scripted := same.frames
  cases frames with
  | nil => exact .value ⟨_, same, rfl⟩
  | @cons frame front others rest atLineRate alike =>
      have entry : front.entries[place]? = frame.octets[place]?.map .octet := by
        rw [atLineRate.entries]
        exact List.getElem?_map
      show Shadows _ (.ok (FrameQueue.pull _)) (ScriptedSource.pull _ now)
      unfold FrameQueue.pull ScriptedSource.pull
      simp only [entry]
      cases found : frame.octets[place]? with
      | none => exact .value ⟨_, same, rfl⟩
      | some octet =>
          rcases SameFrames.heldBack spaced atLineRate.cadence with free | overflows
          · simp only [Option.map_some, free]
            let after : ScriptedSource :=
              { frames := front :: rest, cursor := place + 1, last := some now }
            exact .value ⟨after, ⟨same.frames, rfl⟩, rfl⟩
          · simp only [Option.map_some, overflows]
            exact .overflow _

/-- Frames that arrive at both sources, where the queue has room for all of them. -/
theorem likeness_offerAll {byteTime : Tick} {queue : FrameQueue capacity}
    {source : ScriptedSource} {arrivals : List (Frame × Tick)}
    (same : SameFrames byteTime queue source)
    (paced : ∀ arrival, arrival ∈ arrivals → arrival.2 ≤ byteTime)
    (room : queue.length + arrivals.length ≤ capacity) :
    SameFrames byteTime (FrameStore.offerAll queue (arrivals.map Prod.fst))
      (FrameStore.offerAll source (arrivals.map fun arrival => arrival.1.scripted arrival.2)) := by
  induction arrivals generalizing queue source with
  | nil => exact same
  | cons arrival arrivals inductionHypothesis =>
      have roomFirst : queue.length < capacity := by
        rw [List.length_cons] at room
        lia
      obtain ⟨sameNext, longer⟩ :=
        same.offer arrival.1 (paced arrival List.mem_cons_self) roomFirst
      refine inductionHypothesis sameNext ?_ ?_
      · intro other member
        exact paced other (List.mem_cons_of_mem arrival member)
      · show (queue.offer arrival.1).length + arrivals.length ≤ capacity
        rw [longer]
        rw [List.length_cons] at room
        lia

end FrameQueue

namespace ScriptedSource

theorem last_of_pull {source after : ScriptedSource} {now : Tick} {answer : Pull}
    (pulled : ByteSource.pull source now = .ok (after, answer)) :
    after.last = source.last ∨ after.last = some now := by
  cases pull_eq_ok pulled with
  | starved => exact .inl rfl
  | finished => exact .inl rfl
  | octet => exact .inr rfl

theorem last_of_appends {change : ScriptedSource → ScriptedSource}
    (appends : FrameStore.Appends change)
    (source : ScriptedSource) :
    (change source).last = source.last := by
  obtain ⟨items, offers⟩ := appends
  rw [offers]
  exact FrameStore.lastPull_offerAll source items

end ScriptedSource

/-- Wherever the source is asked, a whole number of bytes is driven. -/
theorem Sequencer.Beats.elapsed_of_asks {sequencer : Sequencer} {begun : Nat}
    (positive : 0 < sequencer.plan.nibbleTicks)
    (asks : sequencer.Asks)
    (beats : sequencer.Beats begun) :
    ∃ bytes, sequencer.elapsed = bytes * (2 * sequencer.plan.nibbleTicks) := by
  cases beats with
  | writes placed paced =>
      exact ⟨begun, (paced.boundary_iff positive).mpr ⟨asks.due, asks.low, rfl⟩⟩
  | marks stage place paced =>
      exact ⟨begun + 1, (paced.boundary_iff positive).mpr ⟨asks.due, asks.low, rfl⟩⟩
  | jams stage => exact absurd asks.among (not_among_of_stage stage nofun nofun)

theorem Engine.Settles.last {γ : Type} {engine next : Engine ScriptedSource γ} {now : Tick}
    {ending : Ending} {outcome : Option Outcome}
    (settles : Settles now engine ending next outcome) :
    next.source.last = none := by
  cases settles <;> rfl

namespace Run

variable {config : Config} {γ : Type} [WordSource γ] {early gap count : Nat}

section Spacing

variable {run : Run config ScriptedSource γ}

/-- The last pull that the source remembers lies whole bytes after the start of the attempt in
progress. -/
structure PulledLast (run : Run config ScriptedSource γ) (count last : Nat) : Prop where
  active : (run.engine count).sequencer.stage ≠ .idle
  place : ∃ tick bytes, tick < count ∧ last = run.reading tick ∧
    tick + (run.engine count).sequencer.elapsed = count + bytes * config.byteTime

def Spaced (run : Run config ScriptedSource γ) (count : Nat) : Prop :=
  ∀ last, (run.engine count).source.last = some last → run.PulledLast count last

theorem elapsed_of_asks
    (timing : config.Timing early gap)
    (within : count ≤ run.length)
    (asks : (run.engine count).sequencer.Asks) :
    ∃ bytes, (run.engine count).sequencer.elapsed = bytes * config.byteTime := by
  rw [← plan_byteTime timing within]
  cases run.paces timing within with
  | rests idle => exact absurd asks.among (Sequencer.not_among_of_stage idle nofun nofun)
  | tries lastStart elapsed beats =>
      exact beats.elapsed_of_asks (plan_positive timing within).2 asks

/-- When the source is asked, its last pull lies at least a byte time back. -/
theorem Spaced.byteTime_le {last : Tick}
    (timing : config.Timing early gap)
    (within : count ≤ run.length)
    (spaced : run.Spaced count)
    (asks : (run.engine count).sequencer.Asks)
    (pulled : (run.engine count).source.last = some last) :
    ∃ tick, tick + config.byteTime ≤ count ∧ last = run.reading tick := by
  obtain ⟨bytes, elapsed⟩ := run.elapsed_of_asks timing within asks
  obtain ⟨tick, earlier, before, reading, place⟩ := (spaced last pulled).place
  rw [elapsed] at place
  have later : earlier * config.byteTime < bytes * config.byteTime := by lia
  have fewer : earlier < bytes := Nat.lt_of_mul_lt_mul_right later
  have between : (earlier + 1) * config.byteTime ≤ bytes * config.byteTime :=
    Nat.mul_le_mul_right config.byteTime fewer
  rw [Nat.succ_mul] at between
  exact ⟨tick, by lia, reading⟩

theorem Spaced.of_unread
    (unread : (run.engine count).source.last = none) :
    run.Spaced count := by
  intro last pulled
  cases unread.symm.trans pulled

/-- A tick that goes on with the attempt, on which the source may be asked. -/
theorem Spaced.goes_on {step : SequencerStep}
    (timing : config.Timing early gap)
    (within : count < run.length)
    (kept : (run.entering count).source.last = (run.engine count).source.last)
    (active : (run.engine count).sequencer.stage ≠ .idle)
    (unended : step.ending = none)
    (moves :
      Sequencer.Moves (run.reading count) (run.inputs count).collision
        (run.engine count).sequencer (run.entering count).source
        (run.engine (count + 1)).sequencer (run.engine (count + 1)).source step)
    (spaced : run.Spaced count) :
    run.Spaced (count + 1) := by
  have elapsed := moves.elapsed active unended
  -- A pull from an earlier tick stays as far behind the start of the attempt as it was.
  have stays {last : Tick} (pulled : (run.entering count).source.last = some last) :
      run.PulledLast (count + 1) last := by
    obtain ⟨_, tick, bytes, before, reading, place⟩ := spaced last (kept.symm.trans pulled)
    refine ⟨moves.active active unended, tick, bytes, Nat.lt_succ_of_lt before, reading, ?_⟩
    rw [elapsed]
    lia
  intro last pulled
  rcases moves.asked with ⟨asks, answer, answered⟩ | ⟨silent, same⟩
  · rcases ScriptedSource.last_of_pull answered with same | now
    · exact stays (same.symm.trans pulled)
    · obtain ⟨bytes, whole⟩ := run.elapsed_of_asks timing (Nat.le_of_lt within) asks
      have reading : last = run.reading count := Option.some.inj (pulled.symm.trans now)
      refine ⟨moves.active active unended, count, bytes, Nat.lt_succ_self count, reading, ?_⟩
      rw [elapsed, whole]
      lia
  · rw [same] at pulled
    exact stays pulled

/-- What is left of the spacing once no attempt is in progress. -/
theorem spaced_of_leaves {sequencer : Sequencer} {source : ScriptedSource} {shown : Signals}
    (preamble : 0 < sequencer.plan.preambleBytes)
    (unread : source.last = none)
    (leaves :
      Engine.Leaves (run.reading count) (run.inputs count) sequencer source
        (run.engine (count + 1)) shown (run.marks count)) :
    run.Spaced (count + 1) := by
  refine .of_unread ?_
  cases leaves with
  | rests idle same =>
      rw [same]
      exact unread
  | starts waiting moves =>
      rw [(Sequencer.start_moves preamble moves).2.2]
      exact unread

theorem Spaced.ticks
    (timing : config.Timing early gap)
    (within : count < run.length)
    (appends : FrameStore.Appends (run.supply count))
    (spaced : run.Spaced count) :
    run.Spaced (count + 1) := by
  have kept : (run.entering count).source.last = (run.engine count).source.last :=
    ScriptedSource.last_of_appends appends (run.engine count).source
  have preamble := (plan_positive timing (Nat.le_of_lt within)).1
  cases (run.ticks within).turns with
  | goesOn active moves unended => exact spaced.goes_on timing within kept active unended moves
  | stops moves ended settles status leaves =>
      refine spaced_of_leaves ?_ settles.last leaves
      rw [moves.plan]
      exact preamble
  | waits idle unraised leaves =>
      refine spaced_of_leaves preamble ?_ leaves
      cases pulled : (run.entering count).source.last with
      | none => rfl
      | some last => exact absurd idle (spaced last (kept.symm.trans pulled)).active

theorem spaced
    (timing : config.Timing early gap)
    (unread : run.source.last = none)
    (appends : ∀ tick, tick < count → FrameStore.Appends (run.supply tick))
    (within : count ≤ run.length) :
    run.Spaced count := by
  induction count with
  | zero =>
      rw [← run.source_at_setUp] at unread
      exact .of_unread unread
  | succ count inductionHypothesis =>
      have before :=
        inductionHypothesis (fun tick earlier => appends tick (Nat.lt_succ_of_lt earlier))
          (Nat.le_of_succ_le within)
      exact before.ticks timing within (appends count (Nat.lt_succ_self count))

end Spacing

end Run

/-- Two engines over different sources that cannot be told apart by anything that they show. -/
structure Engine.Resembles {σ τ γ : Type} (engine : Engine σ γ) (other : Engine τ γ) : Prop where
  stage : other.stage = engine.stage
  deferral : other.deferral = engine.deferral
  attempt : other.attempt = engine.attempt
  collisions : other.collisions = engine.collisions
  busy : other.busy = engine.busy
  stats : other.stats = engine.stats

theorem Engine.resembles_later_zero {σ τ γ : Type} (engine : Engine σ γ) (image : τ) :
    engine.Resembles (engine.later 0 image) where
  stage := rfl
  deferral := engine.deferral.later_zero
  attempt := by
    show engine.window.attempt.map (Attempt.later 0) = engine.window.attempt
    cases engine.window.attempt <;> rfl
  collisions := rfl
  busy := by
    unfold busy later
    rw [Option.isSome_map]
    rfl
  stats := rfl

namespace Run

variable {config : Config} {γ : Type} [WordSource γ] {early gap count capacity : Nat}

/-- Ahead of each tick the frames of a schedule arrive at the queue, which has room for them.
With each frame comes the pace that a scripted source is to give it, at most a byte time from
one octet to the next. -/
structure FedBy (queued : Run config (FrameQueue capacity) γ)
    (schedule : Nat → List (Frame × Tick)) : Prop where
  supply : ∀ tick, tick < queued.length → ∀ queue,
    queued.supply tick queue = FrameStore.offerAll queue ((schedule tick).map Prod.fst)
  room : ∀ tick, tick < queued.length →
    (queued.engine tick).source.length + (schedule tick).length ≤ capacity
  paced : ∀ tick, tick < queued.length → ∀ arrival, arrival ∈ schedule tick →
    arrival.2 ≤ config.byteTime

/-- What a schedule does to a scripted source ahead of a tick. -/
def scriptedFeed (schedule : Nat → List (Frame × Tick)) (tick : Nat)
    (source : ScriptedSource) : ScriptedSource :=
  FrameStore.offerAll source
    ((schedule tick).map fun arrival => arrival.1.scripted arrival.2)

theorem appends_scriptedFeed (schedule : Nat → List (Frame × Tick)) (tick : Nat) :
    FrameStore.Appends (scriptedFeed schedule tick) :=
  ⟨(schedule tick).map fun arrival => arrival.1.scripted arrival.2, fun _ => rfl⟩

variable {queued : Run config (FrameQueue capacity) γ} {scripted : Run config ScriptedSource γ}
  {schedule : Nat → List (Frame × Tick)} {source : ScriptedSource}

/-- When the scripted source is asked, its pace no longer holds it back. -/
theorem Mirrors.spaced {tick last : Nat}
    (mirrors : Mirrors 0 source (scriptedFeed schedule) queued scripted)
    (timing : config.Timing early gap)
    (consecutive : queued.Consecutive)
    (unread : source.last = none)
    (within : tick < queued.length)
    (reached : tick ≤ scripted.length)
    (asks : (scripted.engine tick).sequencer.Asks)
    (pulled : (scriptedFeed schedule tick (scripted.engine tick).source).last = some last) :
    last + config.byteTime ≤ queued.reading tick := by
  have appends : ∀ earlier, earlier < tick → FrameStore.Appends (scripted.supply earlier) := by
    intro earlier before
    rw [mirrors.supply earlier (Nat.lt_trans before within)
      (Nat.lt_of_lt_of_le before reached)]
    exact appends_scriptedFeed schedule earlier
  have unreadStart : scripted.source.last = none := by
    rw [mirrors.source]
    exact unread
  have spaced := Run.spaced timing unreadStart appends reached
  rw [ScriptedSource.last_of_appends (appends_scriptedFeed schedule tick)] at pulled
  obtain ⟨earlier, back, rfl⟩ := spaced.byteTime_le timing reached asks pulled
  have positive := timing.byteTime_pos
  have before : earlier < tick := by lia
  rw [mirrors.reading earlier (Nat.lt_trans before within)
    (Nat.lt_of_lt_of_le before reached)]
  obtain ⟨passed, rfl⟩ := Nat.exists_eq_add_of_le (Nat.le_of_lt before)
  rw [consecutive.reading passed within]
  lia

/-- A scripted source at line rate is fed and answers as the queue. -/
theorem FedBy.feeds
    (fed : queued.FedBy schedule)
    (consecutive : queued.Consecutive)
    (same : SameFrames config.byteTime queued.source source)
    (unread : source.last = none) :
    Feeds (FrameQueue.likeness capacity config.byteTime) 0 source (scriptedFeed schedule)
      queued := by
  obtain ⟨early, gap, timing⟩ := queued.accepted.timing
  have supplied : ∀ tick before, tick < queued.length →
      SameFrames config.byteTime (queued.engine tick).source before →
        SameFrames config.byteTime (queued.entering tick).source
          (scriptedFeed schedule tick before) := by
    intro tick before within alike
    show SameFrames _ (queued.supply tick (queued.engine tick).source) _
    rw [fed.supply tick within]
    exact FrameQueue.likeness_offerAll alike (fed.paced tick within) (fed.room tick within)
  refine ⟨same, supplied, ?_⟩
  intro scripted mirrors tick within reached accords asks
  refine FrameQueue.answers (supplied tick _ within accords.alike) ?_
  intro last pulled
  have asksScripted : (scripted.engine tick).sequencer.Asks := by
    rw [accords.engine]
    exact asks
  exact mirrors.spaced timing consecutive unread within reached asksScripted pulled

/-- A scripted source at line rate cannot be told from the queue of the same frames.  With a
timer that grows by one from tick to tick, the engine over it goes on as long as the engine
over the queue, unless a sum does not fit on the tick on which it stops; and up to there the
two show the same, whatever collisions and retries there are. -/
theorem scripted_resembles_queue
    (consecutive : queued.Consecutive)
    (fed : queued.FedBy schedule)
    (same : SameFrames config.byteTime queued.source source)
    (unread : source.last = none) :
    (∃ scripted : Run config ScriptedSource γ,
      Mirrors 0 source (scriptedFeed schedule) queued scripted ∧
        (scripted.length = queued.length ∨
          scripted.length < queued.length ∧
            Overflows 0 (scriptedFeed schedule) queued scripted)) ∧
      ∀ scripted : Run config ScriptedSource γ,
        Mirrors 0 source (scriptedFeed schedule) queued scripted →
          (∀ count, count ≤ queued.length → count ≤ scripted.length →
            (queued.engine count).Resembles (scripted.engine count)) ∧
          ∀ tick, tick < queued.length → tick < scripted.length →
            scripted.outputs tick = queued.outputs tick := by
  have feeds := fed.feeds consecutive same unread
  refine ⟨feeds.exists_mirrored (Nat.le_refl queued.length), ?_⟩
  intro scripted mirrors
  constructor
  · intro count within withinScripted
    rw [(mirrors.accords feeds within withinScripted).engine]
    exact Engine.resembles_later_zero (queued.engine count) _
  · intro tick within withinScripted
    exact mirrors.outputs feeds within withinScripted

/-- A frame with a poisoned octet, whose first attempt meets a collision, and another frame that
arrives meanwhile. -/
def lineRateSchedule : Nat → List (Frame × Tick)
  | 0 => [({ octets := [.byte 0xA5, .poisoned, .byte 0x5A] }, 2)]
  | 7 => [({ octets := [.byte 0x69] }, 1)]
  | _ => []

def queueScenario : Scenario (FrameQueue 2) ZeroWords where
  source := .empty 2
  words := {}
  supply tick queue := FrameStore.offerAll queue ((lineRateSchedule tick).map Prod.fst)
  inputs tick := { collision := tick = 7 }

def lineRateScenario : Scenario ScriptedSource ZeroWords where
  source := .empty
  words := {}
  supply := scriptedFeed lineRateSchedule
  inputs := queueScenario.inputs

def queueRun : Run { Config.brief with slotBytes := 8 } (FrameQueue 2) ZeroWords :=
  (queueScenario.run? { Config.brief with slotBytes := 8 } 44).get (by decide +kernel)

def lineRateRun : Run { Config.brief with slotBytes := 8 } ScriptedSource ZeroWords :=
  (lineRateScenario.run? { Config.brief with slotBytes := 8 } 44).get (by decide +kernel)

theorem scripted_resembles_queue_lineRateRun :
    queueRun.Consecutive ∧ queueRun.FedBy lineRateSchedule ∧
      SameFrames 2 queueRun.source .empty ∧
      Mirrors 0 .empty (scriptedFeed lineRateSchedule) queueRun lineRateRun ∧
      queueRun.Starts 12 ∧ (queueRun.engine 17).collisions = 1 ∧
      (lineRateRun.engine 10).source.last = some 8 ∧
      (queueRun.engine 17).Resembles (lineRateRun.engine 17) ∧
      (lineRateRun.outputs 42).status.ok = true ∧
      lineRateRun.outputs 42 = queueRun.outputs 42 := by
  have consecutive : queueRun.Consecutive := fun _ _ => rfl
  have fed : queueRun.FedBy lineRateSchedule :=
    ⟨fun _ _ _ => rfl, by decide +kernel, by decide +kernel⟩
  have same : SameFrames 2 queueRun.source .empty := ⟨.nil, rfl⟩
  have mirrors : Mirrors 0 .empty (scriptedFeed lineRateSchedule) queueRun lineRateRun :=
    ⟨rfl, rfl, rfl, fun _ _ _ => rfl, fun _ _ _ => rfl, fun _ _ _ => rfl⟩
  obtain ⟨_, alike⟩ := scripted_resembles_queue consecutive fed same rfl
  obtain ⟨engines, outputs⟩ := alike lineRateRun mirrors
  have resembles := engines 17 (by decide +kernel) (by decide +kernel)
  have shown := outputs 42 (by decide +kernel) (by decide +kernel)
  exact ⟨consecutive, fed, same, mirrors, by decide +kernel, by decide +kernel,
    by decide +kernel, resembles, by decide +kernel, shown⟩

end Run

end HalfDuplex
