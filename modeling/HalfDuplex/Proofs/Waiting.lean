import HalfDuplex.Proofs.Latch
import HalfDuplex.Proofs.Session

/-!
# Waiting for an outcome

The frames that wait on a bench are those sent after the ones that were reported, so that the
number of reports is the number of the frame in front.  A wait begins with a reporter that was
cleared, whatever ticks ran before, and each of its ticks raises nothing or the indicator of one
outcome, on the very tick on which the frame in front is released.  A wait therefore ends with
the first report after it began, which is about the oldest frame without one, or it ends with
its last tick and nothing reported.

`Bench.Reached.awaits_outcome` says so for every session.
-/

namespace HalfDuplex

namespace ScriptedSource

/-- What a tick leaves of a source.  Frames go from the front only, and the last pull is an old
one unless it was made on this tick. -/
structure Dwindles (now : Tick) (source after : ScriptedSource) : Prop where
  frames : after.frames <:+ source.frames
  last : ∀ last, after.last = some last → source.last = some last ∨ last = now

variable {source after later : ScriptedSource} {now : Tick}

theorem Dwindles.refl (now : Tick) (source : ScriptedSource) : source.Dwindles now source :=
  ⟨List.suffix_rfl, fun _ pulled => .inl pulled⟩

theorem Dwindles.trans
    (first : source.Dwindles now after)
    (second : after.Dwindles now later) :
    source.Dwindles now later := by
  refine ⟨second.frames.trans first.frames, ?_⟩
  intro last pulled
  rcases second.last last pulled with earlier | onTick
  · exact first.last last earlier
  · exact .inr onTick

theorem dwindles_of_pull {answer : Pull}
    (pulled : ByteSource.pull source now = .ok (after, answer)) :
    source.Dwindles now after := by
  cases pull_eq_ok pulled with
  | starved | finished => exact .refl now source
  | octet => exact ⟨List.suffix_rfl, fun last onTick => .inr (Option.some.inj onTick).symm⟩

theorem dwindles_rewind (now : Tick) (source : ScriptedSource) :
    source.Dwindles now (ByteSource.rewind source) :=
  ⟨List.suffix_rfl, nofun⟩

theorem dwindles_release (now : Tick) (source : ScriptedSource) :
    source.Dwindles now (ByteSource.release source) :=
  ⟨List.tail_suffix _, nofun⟩

end ScriptedSource

theorem Sequencer.Moves.dwindles {now : Tick} {collision : Bool}
    {sequencer next : Sequencer} {source after : ScriptedSource} {step : SequencerStep}
    (moves : Moves now collision sequencer source next after step) :
    source.Dwindles now after := by
  rcases moves.pulls with rfl | ⟨_, pulled⟩
  · exact .refl now after
  · exact ScriptedSource.dwindles_of_pull pulled

/-- One report to a clear reporter is the outcome that it then gives. -/
theorem Reporter.outcome_of_observe_clear {outcome : Outcome} {reporter : Reporter}
    (observed : Reporter.clear.observe outcome.indicators = .ok reporter) :
    reporter.outcome = .ok (some outcome) := by
  cases outcome <;> cases observed <;> rfl

namespace Engine

variable {γ : Type} [WordSource γ] {now : Tick} {inputs : Inputs} {collision : Bool}
  {engine next : Engine ScriptedSource γ} {outputs : Outputs} {marks : List Mark}

omit [WordSource γ] in
theorem Settles.dwindles {ending : Ending} {outcome : Option Outcome}
    (settles : Settles now engine ending next outcome) :
    engine.source.Dwindles now next.source := by
  cases settles with
  | sent | underflow | giveUp | late => exact ScriptedSource.dwindles_release now _
  | retry | unjudged => exact ScriptedSource.dwindles_rewind now _

theorem Proceeds.dwindles {signals : Signals} {status : Indicators}
    (proceeds : Proceeds now collision engine next signals status marks) :
    engine.source.Dwindles now next.source := by
  cases proceeds with
  | goesOn drives => exact drives.moves.dwindles
  | settles drives ended settles => exact drives.moves.dwindles.trans settles.dwindles

omit [WordSource γ] in
theorem Leaves.dwindles {sequencer : Sequencer} {source : ScriptedSource} {shown : Signals}
    (leaves : Leaves now inputs sequencer source next shown marks) :
    source.Dwindles now next.source := by
  cases leaves with
  | rests idle same =>
      rw [same]
      exact .refl now source
  | starts waiting moves => exact moves.dwindles

theorem Ticks.dwindles (ticks : Ticks now inputs engine next outputs marks) :
    engine.source.Dwindles now next.source := by
  cases ticks.turns with
  | goesOn active moves => exact moves.dwindles
  | stops moves ended settles status leaves =>
      exact (moves.dwindles.trans settles.dwindles).trans leaves.dwindles
  | waits idle unraised leaves => exact leaves.dwindles

end Engine

/-- What a list comes to when it is cut before an element. -/
theorem drop_eq_cons {α : Type} {list : List α} {count : Nat} {first : α} {rest : List α}
    (cut : list.drop count = first :: rest) :
    list[count]? = some first ∧ list.drop (count + 1) = rest := by
  constructor
  · rw [← List.head?_drop, cut, List.head?_cons]
  · rw [← List.tail_drop, cut, List.tail_cons]

namespace Bench

variable {γ : Type}

/-- The frames that wait on a bench, the one in front first. -/
def waiting (bench : Bench γ) : List ScriptedFrame :=
  bench.engine.source.frames

/-- What a tick reports: nothing, or the outcome of the frame in front, which is released. -/
inductive Reveals (bench next : Bench γ) : Indicators → Prop
  | nothing
      (statuses : next.statuses = bench.statuses)
      (kept : next.waiting = bench.waiting) :
      Reveals bench next {}
  | outcome {outcome : Outcome} {front : ScriptedFrame}
      (statuses : next.statuses = bench.statuses.push (bench.now, outcome.indicators))
      (released : bench.waiting = front :: next.waiting) :
      Reveals bench next outcome.indicators

/-- How a wait of limited length ends on a bench to which the given frames were sent: with the
outcome of the oldest frame that was not reported when it began, or without a report. -/
inductive Awaits (sent : List ScriptedFrame) (bench final : Bench γ) (limit : Nat) :
    Except WaitError Outcome → Prop
  | outcome {outcome : Outcome} {frame : ScriptedFrame}
      (inTime : final.now ≤ bench.now + limit)
      (oldest : sent[bench.statuses.size]? = some frame)
      (reported :
        final.statuses = bench.statuses.push (final.now - 1, outcome.indicators))
      (released : final.waiting = sent.drop (bench.statuses.size + 1)) :
      Awaits sent bench final limit (.ok outcome)
  | timeout
      (now : final.now = bench.now + limit)
      (unreported : final.statuses = bench.statuses)
      (kept : final.waiting = sent.drop bench.statuses.size) :
      Awaits sent bench final limit (.error .timeout)

variable [WordSource γ] {config : Config} {words : γ} {sent : List ScriptedFrame}
  {bench next final : Bench γ} {outputs : Outputs}

/-- A tick reports the frame that it releases, and nothing else. -/
theorem Reached.reveals
    (reached : Reached config words sent bench)
    (steps : bench.Steps next outputs) :
    bench.Reveals next outputs.status := by
  obtain ⟨run, follows⟩ := reached.follows
  obtain ⟨longer, followsNext, lastTick⟩ := follows.ticks steps
  have within : bench.now < longer.length := by
    rw [lastTick.length]
    exact Nat.lt_succ_self _
  have dwindles := (longer.ticks within).dwindles
  rw [lastTick.engine, lastTick.entering] at dwindles
  have suffix : next.waiting <:+ bench.waiting := dwindles.frames
  have statuses := steps.statuses
  obtain ⟨_, resolves⟩ := Run.resolves followsNext.appends within
  cases resolves with
  | leaves unraised _ kept =>
      rw [lastTick.outputs] at unraised
      rw [lastTick.engine, lastTick.entering] at kept
      rw [unraised] at statuses ⊢
      have lengths := congrArg List.length kept
      simp only [FrameStore.frames, List.length_map] at lengths
      exact .nothing statuses (suffix.eq_of_length lengths)
  | releases outcome front raised _ released =>
      rw [lastTick.outputs] at raised
      rw [lastTick.engine, lastTick.entering] at released
      rw [raised, if_neg outcome.indicators_ne] at statuses
      rw [raised]
      have lengths := congrArg List.length released
      simp only [FrameStore.frames, List.length_map, List.length_cons] at lengths
      have fewer : bench.waiting.length = next.waiting.length + 1 := lengths
      cases held : bench.waiting with
      | nil =>
          rw [held] at fewer
          cases fewer
      | cons frame rest =>
          rw [held] at suffix fewer
          rw [List.length_cons] at fewer
          rcases List.suffix_cons_iff.mp suffix with same | later
          · rw [same, List.length_cons] at fewer
            omega
          · have remaining : next.waiting = rest := later.eq_of_length (by omega)
            have released : bench.waiting = frame :: next.waiting := by rw [held, remaining]
            exact .outcome statuses released

/-- The frames that wait are those sent after the reported ones. -/
theorem Reached.waiting_eq (reached : Reached config words sent bench) :
    bench.waiting = sent.drop bench.statuses.size ∧ bench.statuses.size ≤ sent.length := by
  induction reached with
  | setUp setUp =>
      unfold ofConfig at setUp
      rw [Traced.value_bind_eq_ok_iff] at setUp
      obtain ⟨result, engineSetUp, made⟩ := setUp
      cases result with
      | error error => cases made
      | ok engine =>
          cases made
          obtain ⟨_, _, _, _, _, rfl⟩ := Engine.ofConfig_eq_ok engineSetUp
          exact ⟨rfl, Nat.le_refl 0⟩
  | @sends sent bench before frame inductionHypothesis =>
      obtain ⟨waiting, few⟩ := inductionHypothesis
      constructor
      · show bench.waiting ++ [frame] = (sent ++ [frame]).drop bench.statuses.size
        rw [waiting, List.drop_append_of_le_length few]
      · show bench.statuses.size ≤ _
        rw [List.length_append]
        exact Nat.le_add_right_of_le few
  | collides | hears | forgets | awaits =>
      rename_i inductionHypothesis
      exact inductionHypothesis
  | @ticks sent bench next outputs before steps inductionHypothesis =>
      obtain ⟨waiting, few⟩ := inductionHypothesis
      have reveals := before.reveals steps
      generalize outputs.status = raised at reveals
      cases reveals with
      | nothing statuses kept =>
          rw [kept, statuses]
          exact ⟨waiting, few⟩
      | outcome statuses released =>
          rw [statuses, Array.size_push]
          obtain ⟨_, later⟩ := drop_eq_cons (waiting.symm.trans released)
          exact ⟨later.symm, Nat.lt_of_not_le fun all => by
            rw [waiting, List.drop_of_length_le all] at released
            cases released⟩

/-! ## Waits -/

/-- What a wait makes of the reporter after a tick. -/
def told : Except WaitError (Option Outcome) → Option (Except WaitError Outcome)
  | .ok none => none
  | .ok (some outcome) => some (.ok outcome)
  | .error error => some (.error error)

theorem stepToOutcome_steps {result : Option (Except WaitError Outcome)}
    (stepped : bench.stepToOutcome.value = .ok (next, result)) :
    (∃ outputs, bench.Steps next outputs) ∧ result = told next.reporter.outcome := by
  unfold stepToOutcome at stepped
  rw [Traced.value_bind_eq_ok_iff] at stepped
  obtain ⟨⟨later, outputs⟩, ticked, judged⟩ := stepped
  have steps := steps_of_step ticked
  cases latched : later.reporter.outcome with
  | error error =>
      simp only [latched] at judged
      cases judged
      exact ⟨⟨outputs, steps⟩, by rw [latched]; rfl⟩
  | ok outcome =>
      cases outcome <;> simp only [latched] at judged <;> cases judged <;>
        exact ⟨⟨outputs, steps⟩, by rw [latched]; rfl⟩

omit [WordSource γ] in
/-- A wait goes on from a tick without a report. -/
theorem Awaits.earlier {limit : Nat} {answer : Except WaitError Outcome}
    (statuses : next.statuses = bench.statuses)
    (now : next.now = bench.now + 1)
    (awaits : next.Awaits sent final limit answer) :
    bench.Awaits sent final (limit + 1) answer := by
  have sum : next.now + limit = bench.now + (limit + 1) := by
    rw [now, Nat.add_assoc, Nat.add_comm 1]
  cases awaits with
  | outcome inTime oldest reported released =>
      rw [statuses] at oldest reported released
      exact .outcome (Nat.le_trans inTime (Nat.le_of_eq sum)) oldest reported released
  | timeout later unreported kept =>
      rw [statuses] at unreported kept
      exact .timeout (later.trans sum) unreported kept

/-- A wait ends with the tick that reports the frame in front. -/
theorem Reached.awaits_reported {limit : Nat} {outcome : Outcome} {front : ScriptedFrame}
    (reached : Reached config words sent bench)
    (now : next.now = bench.now + 1)
    (reported : next.statuses = bench.statuses.push (bench.now, outcome.indicators))
    (released : bench.waiting = front :: next.waiting) :
    bench.Awaits sent next (limit + 1) (.ok outcome) := by
  obtain ⟨oldest, later⟩ := drop_eq_cons (reached.waiting_eq.1.symm.trans released)
  refine .outcome ?_ oldest ?_ later.symm
  · rw [now]
    exact Nat.add_le_add_left (Nat.le_add_left 1 limit) _
  · rw [now]
    exact reported

/-- Ticks until an outcome, from a reporter that was cleared. -/
theorem Reached.awaits_repeated {limit : Nat} {answer : Option (Except WaitError Outcome)}
    (reached : Reached config words sent bench)
    (cleared : bench.reporter = .clear)
    (repeated :
      (Traced.repeatUntil stepToOutcome limit bench).value = .ok (final, answer)) :
    bench.Awaits sent final limit (answer.getD (.error .timeout)) := by
  induction limit generalizing bench with
  | zero =>
      rw [Traced.repeatUntil_zero] at repeated
      cases repeated
      exact .timeout rfl rfl reached.waiting_eq.1
  | succ limit inductionHypothesis =>
      rw [Traced.repeatUntil_succ, Traced.value_bind_eq_ok_iff] at repeated
      obtain ⟨⟨next, result⟩, stepped, rest⟩ := repeated
      obtain ⟨⟨outputs, steps⟩, rfl⟩ := stepToOutcome_steps stepped
      have reveals := reached.reveals steps
      have observed := steps.reporter
      rw [cleared] at observed
      generalize outputs.status = raised at reveals observed
      cases reveals with
      | nothing statuses kept =>
          have clearedNext : next.reporter = .clear := (Except.ok.inj observed).symm
          rw [clearedNext] at rest
          exact (inductionHypothesis (reached.ticks steps) clearedNext rest).earlier
            statuses steps.now
      | @outcome outcome front statuses released =>
          -- A clear reporter that saw one report answers with it, so the wait stops here.
          rw [Reporter.outcome_of_observe_clear observed] at rest
          cases rest
          exact reached.awaits_reported steps.now statuses released

/-- A wait gives the outcome of the oldest frame without a report, or there is none in time. -/
theorem Reached.awaits_outcome {limit : Nat} {answer : Except WaitError Outcome}
    (reached : Reached config words sent bench)
    (ran : (bench.runUntilOutcome limit).value = .ok (final, answer)) :
    bench.Awaits sent final limit answer := by
  unfold Bench.runUntilOutcome at ran
  rw [Traced.value_bind_eq_ok_iff] at ran
  obtain ⟨⟨last, seen⟩, repeated, answered⟩ := ran
  have awaits := reached.awaits.awaits_repeated rfl repeated
  -- The wait began with another reporter, of which it says nothing.
  have same : bench.Awaits sent last limit (seen.getD (.error .timeout)) := by
    generalize seen.getD (.error .timeout) = answer at awaits ⊢
    cases awaits with
    | outcome inTime oldest reported released => exact .outcome inTime oldest reported released
    | timeout now unreported kept => exact .timeout now unreported kept
  cases seen with
  | none =>
      cases answered
      exact same
  | some result =>
      cases answered
      exact same

end Bench

end HalfDuplex
