import HalfDuplex.Proofs.FaultFreedom
import HalfDuplex.Proofs.Waiting

/-!
# Sessions that no fault stops

A session on the test bench is stopped by nothing but a count that does not fit.  What is
counted are the ticks up to the end of a gap, of a backoff, of the pace of a frame and of the
offset of a collision, the nibbles of an attempt and the reports.  If all of these fit at the
last tick that the calls of the session can lead to, then every call returns.

Main result: `Bench.waits_are_answered`.
-/

namespace HalfDuplex

open Traced

namespace ScriptedSource

/-- Up to a given tick, the pace of every frame can be told. -/
structure Paced (latest : Tick) (source : ScriptedSource) : Prop where
  frames : ∀ frame ∈ source.frames, latest + frame.cadence < wideLimit
  last : ∀ last, source.last = some last → last ≤ latest

variable {source after : ScriptedSource} {now latest : Tick}

theorem Paced.dwindles
    (inTime : now ≤ latest)
    (dwindles : source.Dwindles now after)
    (paced : source.Paced latest) :
    after.Paced latest := by
  constructor
  · intro frame member
    exact paced.frames frame (dwindles.frames.mem member)
  · intro last pulled
    rcases dwindles.last last pulled with earlier | rfl
    · exact paced.last last earlier
    · exact inTime

/-- The pace of the frame in front can be told on any tick. -/
theorem Paced.heldBack {front : ScriptedFrame} {rest : List ScriptedFrame}
    (paced : source.Paced latest)
    (held : source.frames = front :: rest)
    (now : Tick) :
    ∃ early, source.heldBack front.cadence now = .ok early := by
  unfold ScriptedSource.heldBack
  cases pulled : source.last with
  | none => exact ⟨false, rfl⟩
  | some last =>
      have room := paced.frames front (held ▸ List.mem_cons_self)
      have fits : last + front.cadence < wideLimit :=
        Nat.lt_of_le_of_lt (Nat.add_le_add_right (paced.last last pulled) _) room
      dsimp only
      rw [checkedAdd_of_lt fits]
      exact ⟨_, rfl⟩

theorem Paced.answers (paced : source.Paced latest) (now : Tick) :
    ∃ answer, ByteSource.pull source now = .ok answer := by
  show ∃ answer, source.pull now = .ok answer
  unfold ScriptedSource.pull
  cases held : source.frames with
  | nil => exact ⟨_, rfl⟩
  | cons front rest =>
      dsimp only
      cases front.entries[source.cursor]? with
      | none => exact ⟨_, rfl⟩
      | some entry =>
          obtain ⟨early, told⟩ := paced.heldBack held now
          dsimp only
          rw [told]
          cases early with
          | true => exact ⟨_, rfl⟩
          | false => cases entry <;> exact ⟨_, rfl⟩

end ScriptedSource

theorem Engine.answers_of_paced {γ : Type} [WordSource γ]
    {engine : Engine ScriptedSource γ} {now latest : Tick} {collision : Bool}
    (inTime : now ≤ latest)
    (paced : engine.source.Paced latest) :
    engine.Answers now collision where
  first := paced.answers now
  later proceeds := (paced.dwindles inTime proceeds.dwindles).answers now

theorem Indicators.count_le (raised : Indicators) : raised.count ≤ 4 := by
  have ok := raised.ok.toNat_le
  have gaveUp := raised.gaveUp.toNat_le
  have lateCollision := raised.lateCollision.toNat_le
  have underflow := raised.underflow.toNat_le
  unfold Indicators.count
  omega

/-- The receiver samples every tick. -/
theorem Receiver.sample_succeeds (receiver : Receiver) (now : Tick) (signals : Signals) :
    (receiver.sample now signals).Succeeds := by
  unfold Receiver.sample
  cases receiver.active <;> cases signals.enable <;> exact ⟨_, rfl⟩

namespace Bench

variable {γ : Type} [WordSource γ] {config : Config} {words : γ} {sent : List ScriptedFrame}
  {bench next : Bench γ} {outputs : Outputs} {gap latest : Tick} {longest ahead : Nat}

/-- What the ticks of a bench need, up to a given one, in order to succeed. -/
structure Lasts (config : Config) (longest : Nat) (latest : Tick) (bench : Bench γ) : Prop where
  short : ∀ frame ∈ bench.waiting, frame.entries.length ≤ longest
  paced : bench.engine.source.Paced latest
  filled : bench.engine.Filled config longest
  offsets : ∀ offset ∈ bench.offsets, latest + offset < wideLimit
  pulses : bench.reporter.pulses ≤ bench.statuses.size

omit [WordSource γ] in
theorem Lasts.sends {frame : ScriptedFrame}
    (short : frame.entries.length ≤ longest)
    (fits : latest + frame.cadence < wideLimit)
    (lasts : bench.Lasts config longest latest) :
    (bench.send frame).Lasts config longest latest := by
  refine ⟨?_, ⟨?_, lasts.paced.last⟩, lasts.filled, lasts.offsets, lasts.pulses⟩
  · intro other member
    rcases List.mem_append.mp member with waiting | added
    · exact lasts.short other waiting
    · rw [List.mem_singleton.mp added]
      exact short
  · intro other member
    rcases List.mem_append.mp member with waiting | added
    · exact lasts.paced.frames other waiting
    · rw [List.mem_singleton.mp added]
      exact fits

omit [WordSource γ] in
theorem Lasts.collides {offset : Tick}
    (fits : latest + max offset 1 < wideLimit)
    (lasts : bench.Lasts config longest latest) :
    (bench.collide offset).Lasts config longest latest := by
  refine ⟨lasts.short, lasts.paced, lasts.filled, ?_, lasts.pulses⟩
  intro other member
  rcases List.mem_append.mp member with queued | added
  · exact lasts.offsets other queued
  · rw [List.mem_singleton.mp added]
    exact fits

/-! ## One tick -/

omit [WordSource γ] in
theorem noteHit_eq (bench : Bench γ) (collision : Bool) :
    ∃ hits, (bench.noteHit collision).value = .ok { bench with hits } := by
  cases collision <;> exact ⟨_, rfl⟩

omit [WordSource γ] in
theorem noteStart_eq
    (offsets : ∀ offset ∈ bench.offsets, bench.now + offset < wideLimit)
    (enable : Bool) :
    ∃ starts left pending, (∀ offset ∈ left, offset ∈ bench.offsets) ∧
      bench.noteStart enable =
        .ok { bench with starts, offsets := left, pending, wasEnabled := enable } := by
  unfold noteStart
  by_cases begins : (enable && !bench.wasEnabled) = true
  · rw [if_pos begins]
    cases queued : bench.offsets with
    | nil => exact ⟨_, [], _, nofun, rfl⟩
    | cons offset left =>
        rw [queued] at offsets
        dsimp only
        rw [checkedAdd_of_lt (offsets offset List.mem_cons_self)]
        exact ⟨_, left, _, fun other member => List.mem_cons_of_mem offset member, rfl⟩
  · rw [if_neg begins]
    exact ⟨_, bench.offsets, _, fun _ member => member, rfl⟩

omit [WordSource γ] in
theorem noteStatus_eq {status : Indicators}
    (few : bench.reporter.pulses + status.count < countLimit) :
    ∃ reporter, bench.noteStatus status = .ok { bench with
        reporter
        statuses :=
          if status = {} then bench.statuses else bench.statuses.push (bench.now, status) } ∧
      reporter.pulses = bench.reporter.pulses + status.count := by
  unfold noteStatus
  rw [Reporter.observe_of_lt few]
  exact ⟨_, rfl, rfl⟩

/-- A tick of the bench succeeds if that of the engine does and what is scheduled and counted on
it fits. -/
theorem step_of_tick {engine : Engine ScriptedSource γ}
    (ticked : (bench.engine.tick bench.now bench.inputs).value = .ok (engine, outputs))
    (offsets : ∀ offset ∈ bench.offsets, bench.now + offset < wideLimit)
    (few : bench.reporter.pulses + outputs.status.count < countLimit)
    (room : bench.now + 1 < wideLimit) :
    ∃ next, bench.step.value = .ok (next, outputs) ∧ next.engine = engine ∧
      next.reporter.pulses = bench.reporter.pulses + outputs.status.count ∧
      ∀ offset ∈ next.offsets, offset ∈ bench.offsets := by
  obtain ⟨hits, struck⟩ := bench.noteHit_eq bench.inputs.collision
  obtain ⟨starts, left, pending, fewer, launched⟩ :=
    @noteStart_eq γ { bench with hits, engine } offsets outputs.signals.enable
  obtain ⟨receiver, sampled⟩ :=
    bench.receiver.sample_succeeds bench.now outputs.signals
  obtain ⟨reporter, noted, pulses⟩ :=
    @noteStatus_eq γ { bench with
      hits, engine, starts, offsets := left, pending, wasEnabled := outputs.signals.enable,
      receiver } outputs.status few
  have counted := checkedAdd_of_lt room
  let next : Bench γ := { bench with
    hits, engine, starts, offsets := left, pending, wasEnabled := outputs.signals.enable
    receiver, reporter
    statuses :=
      if outputs.status = {} then bench.statuses
      else bench.statuses.push (bench.now, outputs.status)
    now := bench.now + 1 }
  have stepped : bench.step.value = .ok (next, outputs) := by
    unfold step
    simp only [value_bind_eq_ok_iff, value_lift]
    exact ⟨_, struck, _, ticked, _, launched, _, sampled, _, noted, _, counted, rfl⟩
  exact ⟨next, stepped, rfl, pulses, fewer⟩

/-- A tick raises nothing, or a single indicator while a frame waits without a report. -/
theorem Reached.raises {engine : Engine ScriptedSource γ} {events : List Event}
    (reached : Reached config words sent bench)
    (ticked : (bench.engine.tick bench.now bench.inputs).Yields events (engine, outputs)) :
    outputs.status.count = 0 ∨
      outputs.status.count = 1 ∧ bench.statuses.size < sent.length := by
  -- What a tick raises does not depend on the reporter, which may as well be clear.
  have few : Reporter.clear.pulses + outputs.status.count < countLimit := by
    have small := outputs.status.count_le
    show 0 + _ < 0x100000000
    omega
  let next : Bench γ := { bench with
    engine
    receiver := bench.receiver.sampled bench.now outputs.signals
    reporter := {
      seen := Reporter.clear.seen.union outputs.status
      pulses := Reporter.clear.pulses + outputs.status.count }
    statuses :=
      if outputs.status = {} then bench.statuses
      else bench.statuses.push (bench.now, outputs.status)
    now := bench.now + 1 }
  have steps : { bench with reporter := .clear }.Steps next outputs :=
    ⟨⟨events, ticked⟩, rfl, Reporter.observe_of_lt few, rfl, rfl⟩
  have reveals := reached.awaits.reveals steps
  generalize outputs.status = raised at reveals
  cases reveals with
  | nothing => exact .inl rfl
  | @outcome outcome front statuses released =>
      refine .inr ⟨Indicators.count_eq_one_iff.mpr ⟨outcome, rfl⟩, ?_⟩
      refine Nat.lt_of_not_le fun all => ?_
      have none : bench.waiting = [] := by
        rw [reached.waiting_eq.1]
        exact List.drop_of_length_le all
      cases none.symm.trans released

/-! ## Sessions -/

/-- The number of ticks that a call takes at most. -/
def Call.ticks : Call → Nat
  | .step => 1
  | .run ticks => ticks
  | .runUntilStart limit => limit
  | .runUntilOutcome limit => limit
  | .send _ | .collide _ | .assertCarrier _ _ | .clearRecords => 0

/-- What a call asks for can be counted up to a given tick. -/
def Call.Fits (longest : Nat) (latest : Tick) : Call → Prop
  | .send frame => frame.entries.length ≤ longest ∧ latest + frame.cadence < wideLimit
  | .collide offset => latest + max offset 1 < wideLimit
  | _ => True

instance (longest : Nat) (latest : Tick) (call : Call) : Decidable (call.Fits longest latest) :=
  match call with
  | .send _ => inferInstanceAs (Decidable (_ ∧ _))
  | .collide _ => inferInstanceAs (Decidable (_ < _))
  | .assertCarrier _ _ | .clearRecords | .step | .run _ | .runUntilStart _
  | .runUntilOutcome _ => .isTrue trivial

/-- The number of ticks that a session takes at most. -/
def ticksOf (calls : List Call) : Nat :=
  (calls.map Call.ticks).sum

/-- A bench that has at most the given number of ticks ahead of it, all of which can be
counted. -/
structure Endures (config : Config) (words : γ) (longest : Nat) (latest : Tick)
    (sent : List ScriptedFrame) (ahead : Nat) (bench : Bench γ) : Prop where
  reached : Reached config words sent bench
  lasts : bench.Lasts config longest latest
  inTime : bench.now + ahead ≤ latest

theorem Reached.conforms (reached : Reached config words sent bench) :
    bench.engine.Conforms config := by
  obtain ⟨run, follows⟩ := reached.follows
  obtain ⟨change, _, supplied⟩ := follows.engine
  rw [supplied]
  exact (run.conforms (Nat.le_refl _)).supplied change

/-- A report is counted once in the reporter and once among the statuses. -/
theorem Steps.pulses_le
    (steps : bench.Steps next outputs)
    (single : outputs.status.count ≤ 1)
    (counted : next.reporter.pulses = bench.reporter.pulses + outputs.status.count)
    (pulses : bench.reporter.pulses ≤ bench.statuses.size) :
    next.reporter.pulses ≤ next.statuses.size := by
  rw [counted, steps.statuses]
  by_cases silent : outputs.status = {}
  · rw [if_pos silent, silent]
    exact pulses
  · rw [if_neg silent, Array.size_push]
    exact Nat.add_le_add pulses single

/-- A tick that succeeds leaves what the ticks after it need. -/
theorem Endures.lasts_after {early : Tick}
    (timing : config.Timing early gap)
    (endures : Endures config words longest latest sent (ahead + 1) bench)
    (steps : bench.Steps next outputs)
    (single : outputs.status.count ≤ 1)
    (counted : next.reporter.pulses = bench.reporter.pulses + outputs.status.count)
    (offsets : ∀ offset ∈ next.offsets, offset ∈ bench.offsets) :
    next.Lasts config longest latest := by
  obtain ⟨reached, lasts, inTime⟩ := endures
  obtain ⟨events, yields⟩ := steps.ticked
  have engineTicks := Engine.tick_yields yields
  have dwindles := engineTicks.dwindles
  constructor
  case short =>
    intro frame member
    exact lasts.short frame (dwindles.frames.mem member)
  case paced => exact lasts.paced.dwindles (Nat.le_of_add_right_le inTime) dwindles
  case filled =>
    have plan := LinePlan.ofConfig_eq_ok reached.conforms.plan
    have minFrame : bench.engine.sequencer.plan.minFrame = config.minFrameBytes.toNat := by
      rw [plan]
    have preamble : 0 < bench.engine.sequencer.plan.preambleBytes := by
      rw [plan]
      exact timing.preambleBytes_pos
    refine Engine.Ticks.filled minFrame preamble ?_ lasts.filled engineTicks
    intro entries member
    obtain ⟨frame, waiting, rfl⟩ := List.mem_map.mp member
    exact lasts.short frame waiting
  case offsets =>
    intro offset member
    exact lasts.offsets offset (offsets offset member)
  case pulses => exact steps.pulses_le single counted lasts.pulses

section Rounds

/-- The round that `run` repeats takes a tick. -/
theorem runRound_of_step
    (stepped : bench.step.value = .ok (next, outputs)) :
    ∃ result, (do
      let (bench, _) ← bench.step
      return (bench, (none : Option Unit)) : Traced (Bench γ × Option Unit)).value =
        .ok (next, result) :=
  ⟨none, value_bind_eq_ok_iff.mpr ⟨_, stepped, rfl⟩⟩

theorem stepToStart_of_step
    (stepped : bench.step.value = .ok (next, outputs)) :
    ∃ result, bench.stepToStart.value = .ok (next, result) :=
  ⟨_, value_bind_eq_ok_iff.mpr ⟨_, stepped, rfl⟩⟩

theorem stepToOutcome_of_step
    (stepped : bench.step.value = .ok (next, outputs)) :
    ∃ result, bench.stepToOutcome.value = .ok (next, result) := by
  simp only [stepToOutcome, value_bind_eq_ok_iff]
  cases latched : next.reporter.outcome with
  | error error => exact ⟨_, _, stepped, by rw [latched]; rfl⟩
  | ok outcome => cases outcome <;> exact ⟨_, _, stepped, by rw [latched]; rfl⟩

end Rounds

section Enduring

variable {early : Tick}
  (timing : config.Timing early gap)
  (roomy : config.RoomyFor longest)
  (room : config.LeavesRoom gap latest)

include timing roomy room

theorem Endures.engine_ticks
    (endures : Endures config words longest latest sent (ahead + 1) bench) :
    (bench.engine.tick bench.now bench.inputs).Succeeds := by
  obtain ⟨reached, lasts, inTime⟩ := endures
  obtain ⟨run, follows⟩ := reached.follows
  obtain ⟨change, appends, supplied⟩ := follows.engine
  have earlier : bench.now ≤ latest := Nat.le_of_add_right_le inTime
  have leaves {tick : Tick} (before : tick ≤ latest) : config.LeavesRoom gap tick := by
    unfold Config.LeavesRoom at room ⊢
    exact Nat.lt_of_le_of_lt (Nat.add_le_add_right before _) room
  have filled : (run.engine run.length).Filled config longest := by
    have filled := lasts.filled
    have cursor : FrameStore.cursor bench.engine.source =
        FrameStore.cursor (run.engine run.length).source := by
      rw [supplied]
      exact appends.cursor _
    unfold Engine.Filled at filled ⊢
    rwa [cursor, supplied] at filled
  have answers : bench.engine.Answers bench.now bench.inputs.collision :=
    Engine.answers_of_paced earlier lasts.paced
  rw [supplied] at answers ⊢
  refine run.goes_on timing roomy filled ?_ ?_ (leaves earlier) answers
  · rw [follows.origin]
    exact leaves (Nat.zero_le _)
  · intro tick within
    rw [follows.steady tick within, follows.origin, Nat.zero_add]
    rw [← follows.now] at within
    exact leaves (Nat.le_trans (Nat.le_of_lt within) earlier)

theorem Endures.step
    (few : sent.length < countLimit)
    (endures : Endures config words longest latest sent (ahead + 1) bench) :
    ∃ next outputs, bench.step.value = .ok (next, outputs) ∧
      Endures config words longest latest sent ahead next := by
  obtain ⟨⟨engine, outputs⟩, ticked⟩ := endures.engine_ticks timing roomy room
  have raises := endures.reached.raises (yields_of_value ticked)
  have reported := endures.reached.waiting_eq.2
  have pulses := endures.lasts.pulses
  have earlier : bench.now ≤ latest := Nat.le_of_add_right_le endures.inTime
  have single : outputs.status.count ≤ 1 := by omega
  have countable : bench.reporter.pulses + outputs.status.count < countLimit := by omega
  have scheduled : ∀ offset ∈ bench.offsets, bench.now + offset < wideLimit := by
    intro offset member
    exact Nat.lt_of_le_of_lt (Nat.add_le_add_right earlier _)
      (endures.lasts.offsets offset member)
  have fits : bench.now + 1 < wideLimit := by
    unfold Config.LeavesRoom at room
    lia
  obtain ⟨next, stepped, _, counted, fewer⟩ := step_of_tick ticked scheduled countable fits
  have steps := steps_of_step stepped
  refine ⟨next, outputs, stepped, endures.reached.ticks steps,
    endures.lasts_after timing steps single counted fewer, ?_⟩
  rw [steps.now, Nat.add_right_comm, Nat.add_assoc]
  exact endures.inTime

/-- A bounded repetition of ticks ends. -/
theorem Endures.repeats {δ : Type} {round : Bench γ → Traced (Bench γ × Option δ)} {rounds : Nat}
    (tells : ∀ bench next outputs, bench.step.value = .ok (next, outputs) →
      ∃ result, (round bench).value = .ok (next, result))
    (few : sent.length < countLimit)
    (endures : Endures config words longest latest sent (rounds + ahead) bench) :
    ∃ final answer, (repeatUntil round rounds bench).value = .ok (final, answer) ∧
      Endures config words longest latest sent ahead final := by
  induction rounds generalizing bench with
  | zero =>
      rw [Nat.zero_add] at endures
      exact ⟨bench, none, rfl, endures⟩
  | succ rounds inductionHypothesis =>
      rw [Nat.succ_add_eq_add_succ, Nat.add_succ] at endures
      obtain ⟨next, outputs, stepped, enduresNext⟩ := endures.step timing roomy room few
      obtain ⟨result, told⟩ := tells bench next outputs stepped
      simp only [repeatUntil_succ, value_bind_eq_ok_iff]
      cases result with
      | some result =>
          refine ⟨next, some result, ⟨_, told, rfl⟩, enduresNext.reached, enduresNext.lasts, ?_⟩
          exact Nat.le_trans (Nat.add_le_add_left (Nat.le_add_left _ _) _) enduresNext.inTime
      | none =>
          obtain ⟨final, answer, repeated, enduresFinal⟩ := inductionHypothesis enduresNext
          exact ⟨final, answer, ⟨_, told, repeated⟩, enduresFinal⟩

theorem Endures.run {ticks : Nat}
    (few : sent.length < countLimit)
    (endures : Endures config words longest latest sent (ticks + ahead) bench) :
    ∃ final, (bench.run ticks).value = .ok final ∧
      Endures config words longest latest sent ahead final := by
  obtain ⟨final, answer, repeated, enduresFinal⟩ :=
    endures.repeats timing roomy room (fun _ _ _ => runRound_of_step) few
  exact ⟨final, value_bind_eq_ok_iff.mpr ⟨_, repeated, rfl⟩, enduresFinal⟩

theorem Endures.runUntilStart {limit : Nat}
    (few : sent.length < countLimit)
    (endures : Endures config words longest latest sent (limit + ahead) bench) :
    ∃ final answer, (bench.runUntilStart limit).value = .ok (final, answer) ∧
      Endures config words longest latest sent ahead final := by
  obtain ⟨final, answer, repeated, enduresFinal⟩ :=
    endures.repeats timing roomy room (fun _ _ _ => stepToStart_of_step) few
  unfold Bench.runUntilStart
  simp only [value_bind_eq_ok_iff]
  cases answer <;> exact ⟨final, _, ⟨_, repeated, rfl⟩, enduresFinal⟩

theorem Endures.runUntilOutcome {limit : Nat}
    (few : sent.length < countLimit)
    (endures : Endures config words longest latest sent (limit + ahead) bench) :
    ∃ final answer, (bench.runUntilOutcome limit).value = .ok (final, answer) ∧
      Endures config words longest latest sent ahead final := by
  obtain ⟨short, paced, filled, offsets, _⟩ := endures.lasts
  have cleared :
      Endures config words longest latest sent (limit + ahead)
        { bench with reporter := .clear } :=
    ⟨endures.reached.awaits, ⟨short, paced, filled, offsets, Nat.zero_le _⟩, endures.inTime⟩
  obtain ⟨final, answer, repeated, enduresFinal⟩ :=
    cleared.repeats timing roomy room (fun _ _ _ => stepToOutcome_of_step) few
  unfold Bench.runUntilOutcome
  simp only [value_bind_eq_ok_iff]
  cases answer <;> exact ⟨final, _, ⟨_, repeated, rfl⟩, enduresFinal⟩

/-- A call returns. -/
theorem Endures.perform {call : Call}
    (fits : call.Fits longest latest)
    (few : sent.length < countLimit)
    (endures : Endures config words longest latest sent (call.ticks + ahead) bench) :
    ∃ next, (bench.perform call).value = .ok next ∧
      Endures config words longest latest (sent ++ call.frame?.toList) ahead next := by
  -- What was reached follows from the call alone, so only the rest is shown case by case.
  suffices ∃ next, (bench.perform call).value = .ok next ∧
      next.Lasts config longest latest ∧ next.now + ahead ≤ latest by
    obtain ⟨next, performed, lasts, inTime⟩ := this
    exact ⟨next, performed, endures.reached.perform performed, lasts, inTime⟩
  have lasts := endures.lasts
  have unspent (idle : call.ticks = 0) : bench.now + ahead ≤ latest := by
    have inTime := endures.inTime
    rwa [idle, Nat.zero_add] at inTime
  cases call with
  | send frame =>
      exact ⟨_, rfl, lasts.sends fits.1 fits.2, unspent rfl⟩
  | collide offset =>
      exact ⟨_, rfl, lasts.collides fits, unspent rfl⟩
  | assertCarrier first last =>
      exact ⟨_, rfl, ⟨lasts.short, lasts.paced, lasts.filled, lasts.offsets, lasts.pulses⟩,
        unspent rfl⟩
  | clearRecords =>
      exact ⟨_, rfl, ⟨lasts.short, lasts.paced, lasts.filled, lasts.offsets, lasts.pulses⟩,
        unspent rfl⟩
  | step =>
      have one : Endures config words longest latest sent (ahead + 1) bench := by
        rw [Nat.add_comm]
        exact endures
      obtain ⟨next, outputs, stepped, enduresNext⟩ := one.step timing roomy room few
      exact ⟨next, value_bind_eq_ok_iff.mpr ⟨_, stepped, rfl⟩, enduresNext.lasts,
        enduresNext.inTime⟩
  | run ticks =>
      obtain ⟨next, ran, enduresNext⟩ := endures.run timing roomy room few
      exact ⟨next, ran, enduresNext.lasts, enduresNext.inTime⟩
  | runUntilStart limit =>
      obtain ⟨next, answer, ran, enduresNext⟩ := endures.runUntilStart timing roomy room few
      exact ⟨next, value_bind_eq_ok_iff.mpr ⟨_, ran, rfl⟩, enduresNext.lasts, enduresNext.inTime⟩
  | runUntilOutcome limit =>
      obtain ⟨next, answer, ran, enduresNext⟩ := endures.runUntilOutcome timing roomy room few
      exact ⟨next, value_bind_eq_ok_iff.mpr ⟨_, ran, rfl⟩, enduresNext.lasts, enduresNext.inTime⟩

/-- The calls of a session return, one after the other. -/
theorem Endures.performAll {calls : List Call}
    (fits : ∀ call ∈ calls, call.Fits longest latest)
    (few : (sent ++ framesSent calls).length < countLimit)
    (endures : Endures config words longest latest sent (ticksOf calls + ahead) bench) :
    ∃ final, (bench.performAll calls).value = .ok final ∧
      Endures config words longest latest (sent ++ framesSent calls) ahead final := by
  unfold Bench.performAll
  induction calls generalizing sent bench with
  | nil =>
      rw [framesSent, List.filterMap_nil, List.append_nil]
      exact ⟨bench, rfl, by simpa [ticksOf] using endures⟩
  | cons call calls inductionHypothesis =>
      have total : ticksOf (call :: calls) + ahead = call.ticks + (ticksOf calls + ahead) := by
        unfold ticksOf
        rw [List.map_cons, List.sum_cons, Nat.add_assoc]
      have frames : sent ++ framesSent (call :: calls) =
          sent ++ call.frame?.toList ++ framesSent calls := by
        unfold framesSent
        rw [List.append_assoc, List.filterMap_cons]
        cases call.frame? <;> rfl
      rw [frames] at few ⊢
      rw [total] at endures
      have fewer : sent.length < countLimit := by
        rw [List.append_assoc, List.length_append] at few
        exact Nat.lt_of_le_of_lt (Nat.le_add_right _ _) few
      obtain ⟨next, performed, enduresNext⟩ :=
        endures.perform timing roomy room (fits call List.mem_cons_self) fewer
      obtain ⟨final, performedRest, enduresFinal⟩ :=
        inductionHypothesis (fun other member => fits other (List.mem_cons_of_mem call member))
          few enduresNext
      rw [List.foldlM_cons]
      exact ⟨final, value_bind_eq_ok_iff.mpr ⟨next, performed, performedRest⟩, enduresFinal⟩

end Enduring

omit [WordSource γ] in
theorem lasts_of_setUp
    (setUp : (ofConfig config words).value = .ok (.ok bench)) :
    bench.Lasts config longest latest ∧ bench.now = 0 := by
  unfold ofConfig at setUp
  rw [value_bind_eq_ok_iff] at setUp
  obtain ⟨result, engineSetUp, made⟩ := setUp
  cases result with
  | error error => cases made
  | ok engine =>
      cases made
      obtain ⟨_, _, _, _, sequencerEqual, rfl⟩ := Engine.ofConfig_eq_ok engineSetUp
      obtain ⟨plan, _, rfl⟩ := Sequencer.ofConfig_eq_ok sequencerEqual
      exact ⟨⟨nofun, ⟨nofun, nofun⟩, .inl rfl, nofun, Nat.le_refl 0⟩, rfl⟩

theorem endures_of_setUp
    (setUp : (ofConfig config words).value = .ok (.ok bench))
    (inTime : ahead ≤ latest) :
    Endures config words longest latest [] ahead bench := by
  obtain ⟨lasts, now⟩ := lasts_of_setUp setUp
  refine ⟨.setUp setUp, lasts, ?_⟩
  rw [now, Nat.zero_add]
  exact inTime

omit [WordSource γ] in
/-- A bench is set up if its engine is. -/
theorem sets_up
    (accepted : config.Accepted)
    (roomy : config.RoomyFor longest)
    (words : γ) :
    ∃ start, (ofConfig config words).value = .ok (.ok start) := by
  obtain ⟨engine, setUp⟩ := Engine.sets_up accepted roomy ScriptedSource.empty words 0
  exact ⟨_, value_bind_eq_ok_iff.mpr ⟨_, setUp, rfl⟩⟩

/-- What a reporter tells, and what a wait for an outcome comes to.

A reporter that was shown a history of indicators tells no outcome exactly if all of them were
empty, an outcome exactly if it was shown its indicator and nothing else, and a conflict in every
other case.  A wait that returns in a session gives the outcome of the oldest frame without a
report, or nothing was reported in time; a conflict is never seen.  It returns, as do all calls
before it, if every count of the session fits at the last tick that its calls can lead to. -/
theorem waits_are_answered {γ : Type} [WordSource γ]
    (history : List Indicators)
    (config : Config)
    (words : γ)
    (calls : List Call)
    (limit : Nat) :
    (Indicators.countAll history < countLimit →
      ∃ observed, Reporter.clear.observeAll history = .ok observed ∧
        (observed.outcome = .ok none ↔ ∀ raised ∈ history, raised = {}) ∧
        (∀ outcome : Outcome, observed.outcome = .ok (some outcome) ↔
          ∃ before after, history = before ++ outcome.indicators :: after ∧
            ∀ raised ∈ before ++ after, raised = {}) ∧
        (observed.outcome = .error (.conflictingStatus (history.foldl Indicators.union {})) ↔
          ¬ (∀ raised ∈ history, raised = {}) ∧
            ¬ ∃ (outcome : Outcome) (before after : List Indicators),
              history = before ++ outcome.indicators :: after ∧
                ∀ raised ∈ before ++ after, raised = {})) ∧
    (∀ (bench final : Bench γ) (answer : Except WaitError Outcome),
      session? config words calls = some bench →
      (bench.runUntilOutcome limit).value = .ok (final, answer) →
        bench.Awaits (framesSent calls) final limit answer) ∧
    ∀ (longest : Nat) (gap latest : Tick),
      config.Accepted → config.RoomyFor longest →
      config.gapTicks = .ok gap → config.LeavesRoom gap latest →
      (∀ call ∈ calls, call.Fits longest latest) →
      (framesSent calls).length < countLimit →
      ticksOf calls + limit ≤ latest →
        ∃ bench final answer, session? config words calls = some bench ∧
          (bench.runUntilOutcome limit).value = .ok (final, answer) ∧
          bench.Awaits (framesSent calls) final limit answer := by
  refine ⟨Reporter.reads history, ?_, ?_⟩
  · intro bench final answer session ran
    obtain ⟨start, setUp, performed⟩ := start_of_session session
    have reached := (Reached.setUp setUp).performAll performed
    exact reached.awaits_outcome ran
  · intro longest gap latest accepted roomy gapTicks room fits few inTime
    obtain ⟨early, _, timing⟩ := accepted.timing
    cases gapTicks.symm.trans timing.gapTicks_eq
    obtain ⟨start, setUp⟩ := sets_up accepted roomy words
    have endures : Endures config words longest latest [] (ticksOf calls + limit) start :=
      endures_of_setUp setUp inTime
    obtain ⟨bench, performed, enduresBench⟩ :=
      endures.performAll timing roomy room fits few
    obtain ⟨final, answer, ran, _⟩ :=
      @Endures.runUntilOutcome _ _ _ _ _ _ _ _ _ 0 _ timing roomy room limit few enduresBench
    refine ⟨bench, final, answer, ?_, ran, enduresBench.reached.awaits_outcome ran⟩
    unfold session?
    rw [setUp]
    show (start.performAll calls).value.toOption = some bench
    rw [performed]
    rfl

/-- The first frame is reported in a bounded run, after a collision, and the second one waits. -/
def patientCalls : List Call :=
  [.send (.ofBytes [0xA5]), .collide 1, .send (.ofBytes [0x3C]), .run 24]

def patientBench : Bench ZeroWords :=
  (session? .brief {} patientCalls).get (by decide +kernel)

theorem waits_are_answered_patientBench :
    (∃ observed, Reporter.clear.observeAll [{}, Outcome.underflow.indicators, {}] = .ok observed ∧
        observed.outcome = .ok (some .underflow)) ∧
      Config.brief.Accepted ∧ Config.brief.RoomyFor 1 ∧ Config.brief.LeavesRoom 2 84 ∧
        (∀ call ∈ patientCalls, call.Fits 1 84) ∧ ticksOf patientCalls + 60 ≤ 84 ∧
          patientBench.statuses.toList = [(20, Outcome.ok.indicators)] ∧
            ∃ final, (patientBench.runUntilOutcome 60).value = .ok (final, .ok .ok) ∧
              final.statuses.toList =
                  [(20, Outcome.ok.indicators), (34, Outcome.ok.indicators)] ∧
                patientBench.Awaits (framesSent patientCalls) final 60 (.ok .ok) := by
  have accepted : Config.brief.Accepted := by decide
  have roomy : Config.brief.RoomyFor 1 := by decide
  have room : Config.brief.LeavesRoom 2 84 := by decide
  have fits : ∀ call ∈ patientCalls, call.Fits 1 84 := by decide
  have session : session? .brief {} patientCalls = some patientBench := (Option.some_get _).symm
  obtain ⟨reads, awaits, answers⟩ := waits_are_answered
    [{}, Outcome.underflow.indicators, {}] .brief ({} : ZeroWords) patientCalls 60
  obtain ⟨observed, shown, _, single, _⟩ := reads (by decide)
  obtain ⟨bench, final, answer, sessionAgain, ran, _⟩ :=
    answers 1 2 84 accepted roomy rfl room fits (by decide) (by decide)
  cases session.symm.trans sessionAgain
  have told : (patientBench.runUntilOutcome 60).value.map Prod.snd = .ok (.ok .ok) := rfl
  rw [ran] at told
  cases told
  refine ⟨⟨observed, shown, ?_⟩, accepted, roomy, room, fits, by decide, by decide +kernel, final,
    ran, ?_, awaits _ _ _ session ran⟩
  · exact (single .underflow).mpr ⟨[{}], [{}], rfl, by decide⟩
  · have reported : (patientBench.runUntilOutcome 60).value.map (·.1.statuses.toList) =
        .ok [(20, Outcome.ok.indicators), (34, Outcome.ok.indicators)] := rfl
    rw [ran] at reported
    exact Except.ok.inj reported

/-- Preamble and jam are as long as they can be with a number of nibbles that fits. -/
def burdened : Config :=
  { Config.brief with preambleBytes := 0x7FFFFFFF, jamBytes := 0x7FFFFFFF }

def burdenedCalls : List Call :=
  [.send (.ofBytes [0xA5]), .collide 1]

def burdenedBench : Bench ZeroWords :=
  (session? burdened {} burdenedCalls).get (by decide +kernel)

/-- A collision in the preamble stops a wait of six ticks, in which no tick count comes near its
bound.  The nibbles of the jam and those that are left of the preamble fit, but their sum does
not. -/
theorem wait_stopped_by_long_jam :
    burdened.Accepted ∧ session? burdened {} burdenedCalls = some burdenedBench ∧
      burdened.gapTicks = .ok 2 ∧ burdened.LeavesRoom 2 6 ∧
      (∀ call ∈ burdenedCalls, call.Fits 1 6) ∧ ticksOf burdenedCalls + 6 = 6 ∧
      (burdenedBench.runUntilOutcome 6).value = .error .additionOverflow := by
  have accepted : burdened.Accepted := by decide
  have fits : ∀ call ∈ burdenedCalls, call.Fits 1 6 := by decide
  exact ⟨accepted, (Option.some_get _).symm, rfl, by decide, fits, rfl, rfl⟩

end Bench

end HalfDuplex
