import HalfDuplex.Bench
import HalfDuplex.Proofs.Delivery
import Mathlib.Logic.Function.Basic

/-!
# Sessions on the test bench

A session is a bench that was set up and then used through its operations, `Bench.Call`.
What sessions come to is `Bench.Reached`, with one rule for each thing that can be done to a
bench; a bounded run is no more than ticks.

The ticks of a session are those of a `Run` (`Reached.follows`), so what holds of runs can be
read off a bench.  `Bench.LastTick` is the part of a run that one tick of the bench adds.
-/

namespace HalfDuplex

namespace Traced

variable {β δ : Type}

/-- What every round of a bounded repetition keeps, the repetition keeps. -/
theorem repeatUntil_keeps {step : β → Traced (β × Option δ)} {keeps : β → Prop}
    {rounds : Nat} {state final : β} {answer : Option δ}
    (round : ∀ state next result,
      keeps state → (step state).value = .ok (next, result) → keeps next)
    (before : keeps state)
    (repeated : (repeatUntil step rounds state).value = .ok (final, answer)) :
    keeps final := by
  induction rounds generalizing state with
  | zero =>
      rw [repeatUntil_zero] at repeated
      cases repeated
      exact before
  | succ rounds inductionHypothesis =>
      rw [repeatUntil_succ, value_bind_eq_ok_iff] at repeated
      obtain ⟨⟨next, result⟩, stepped, rest⟩ := repeated
      have kept := round state next result before stepped
      cases result with
      | some result =>
          cases rest
          exact kept
      | none => exact inductionHypothesis kept rest

end Traced

namespace Run

variable {config : Config} {σ γ : Type} [ByteSource σ] [WordSource γ]

/-- One more tick that succeeds after a run. -/
structure Further (run : Run config σ γ) where
  supply : σ → σ
  reading : Tick
  inputs : Inputs
  engine : Engine σ γ
  outputs : Outputs
  events : List Event
  ticked : (((run.engine run.length).supplied supply).tick reading inputs).Yields
    events (engine, outputs)

namespace Further

variable {run : Run config σ γ} (further : run.Further) {count : Nat}

/-- The run with the tick at its end. -/
def longer : Run config σ γ where
  length := run.length + 1
  source := run.source
  words := run.words
  origin := run.origin
  supply := Function.update run.supply run.length further.supply
  reading := Function.update run.reading run.length further.reading
  inputs := Function.update run.inputs run.length further.inputs
  engine := Function.update run.engine (run.length + 1) further.engine
  outputs := Function.update run.outputs run.length further.outputs
  events := Function.update run.events run.length further.events
  setUp := run.setUp
  ticked := by
    intro count within
    rcases Nat.lt_succ_iff_lt_or_eq.mp within with earlier | rfl
    · have other : count ≠ run.length := Nat.ne_of_lt earlier
      have unchanged : count + 1 ≠ run.length + 1 := fun same => other (Nat.succ.inj same)
      have before : count ≠ run.length + 1 := Nat.ne_of_lt within
      simp only [Function.update_of_ne other, Function.update_of_ne unchanged,
        Function.update_of_ne before]
      exact run.ticked count earlier
    · have before : run.length ≠ run.length + 1 := Nat.ne_of_lt within
      simp only [Function.update_self, Function.update_of_ne before]
      exact further.ticked

theorem engine_longer (within : count ≤ run.length) :
    further.longer.engine count = run.engine count :=
  Function.update_of_ne (Nat.ne_of_lt (Nat.lt_succ_of_le within)) _ _

theorem reading_longer (within : count < run.length) :
    further.longer.reading count = run.reading count :=
  Function.update_of_ne (Nat.ne_of_lt within) _ _

theorem supply_longer (within : count < run.length) :
    further.longer.supply count = run.supply count :=
  Function.update_of_ne (Nat.ne_of_lt within) _ _

theorem inputs_longer (within : count < run.length) :
    further.longer.inputs count = run.inputs count :=
  Function.update_of_ne (Nat.ne_of_lt within) _ _

theorem outputs_longer (within : count < run.length) :
    further.longer.outputs count = run.outputs count :=
  Function.update_of_ne (Nat.ne_of_lt within) _ _

theorem receiver_longer (minLength : Nat) (within : count ≤ run.length) :
    further.longer.receiver minLength count = run.receiver minLength count := by
  induction count with
  | zero => rfl
  | succ count inductionHypothesis =>
      rw [receiver, receiver, inductionHypothesis (Nat.le_of_succ_le within),
        further.reading_longer within, further.outputs_longer within]

theorem engine_last : further.longer.engine (run.length + 1) = further.engine :=
  Function.update_self _ _ _

theorem reading_last : further.longer.reading run.length = further.reading :=
  Function.update_self _ _ _

theorem supply_last : further.longer.supply run.length = further.supply :=
  Function.update_self _ _ _

theorem inputs_last : further.longer.inputs run.length = further.inputs :=
  Function.update_self _ _ _

theorem outputs_last : further.longer.outputs run.length = further.outputs :=
  Function.update_self _ _ _

theorem entering_last :
    further.longer.entering run.length = (run.engine run.length).supplied further.supply := by
  rw [entering, supply_last, further.engine_longer (Nat.le_refl _)]

theorem receiver_last (minLength : Nat) :
    further.longer.receiver minLength (run.length + 1) =
      (run.receiver minLength run.length).sampled further.reading further.outputs.signals := by
  rw [receiver, further.receiver_longer minLength (Nat.le_refl _), reading_last, outputs_last]

theorem steady_longer
    (steady : run.Steady)
    (next : further.reading = run.origin + run.length) :
    further.longer.Steady := by
  intro count within
  show further.longer.reading count = run.origin + count
  rcases Nat.lt_succ_iff_lt_or_eq.mp within with earlier | rfl
  · rw [further.reading_longer earlier]
    exact steady count earlier
  · rw [further.reading_last]
    exact next

theorem appends_longer [FrameStore σ]
    (appends : ∀ tick, tick < run.length → FrameStore.Appends (run.supply tick))
    (last : FrameStore.Appends further.supply) :
    ∀ tick, tick < further.longer.length → FrameStore.Appends (further.longer.supply tick) := by
  intro tick within
  rcases Nat.lt_succ_iff_lt_or_eq.mp within with earlier | rfl
  · rw [further.supply_longer earlier]
    exact appends tick earlier
  · rw [further.supply_last]
    exact last

end Further

end Run

namespace Bench

variable {γ : Type}

/-- The inputs that the script of the medium gives for the coming tick. -/
def inputs (bench : Bench γ) : Inputs where
  carrier := bench.carrierAt bench.now
  collision := bench.pending = some bench.now

/-- The least length of a frame that the receiver of a bench accepts. -/
def minLength (config : Config) : Nat :=
  config.minFrameBytes.toNat + Checksum.trailerLength

/-- What can be done to a bench. -/
inductive Call where
  | send (frame : ScriptedFrame)
  | collide (offset : Tick)
  | assertCarrier (first last : Tick)
  | clearRecords
  | step
  | run (ticks : Nat)
  | runUntilStart (limit : Nat)
  | runUntilOutcome (limit : Nat)
  deriving DecidableEq, Repr

/-- The frame that is sent with a call, if it sends one. -/
def Call.frame? : Call → Option ScriptedFrame
  | .send frame => some frame
  | _ => none

/-- The frames that are sent in a session, the first one first. -/
def framesSent (calls : List Call) : List ScriptedFrame :=
  calls.filterMap Call.frame?

variable [WordSource γ]

/-- The bench after a call, whose answer is dropped. -/
def perform (bench : Bench γ) : Call → Traced (Bench γ)
  | .send frame => return bench.send frame
  | .collide offset => return bench.collide offset
  | .assertCarrier first last => return bench.assertCarrier first last
  | .clearRecords => return bench.clearRecords
  | .step => do
      let (bench, _) ← bench.step
      return bench
  | .run ticks => bench.run ticks
  | .runUntilStart limit => do
      let (bench, _) ← bench.runUntilStart limit
      return bench
  | .runUntilOutcome limit => do
      let (bench, _) ← bench.runUntilOutcome limit
      return bench

def performAll (bench : Bench γ) (calls : List Call) : Traced (Bench γ) :=
  calls.foldlM perform bench

/-- The bench that a session comes to, unless the configuration is refused or a fault stops the
session. -/
def session? (config : Config) (words : γ) (calls : List Call) : Option (Bench γ) :=
  match (ofConfig config words).value with
  | .ok (.ok start) => (start.performAll calls).value.toOption
  | _ => none

theorem start_of_session {config : Config} {words : γ} {calls : List Call} {final : Bench γ}
    (session : session? config words calls = some final) :
    ∃ start, (ofConfig config words).value = .ok (.ok start) ∧
      (start.performAll calls).value = .ok final := by
  unfold session? at session
  split at session
  · rename_i start setUp
    refine ⟨start, setUp, ?_⟩
    cases performed : (start.performAll calls).value with
    | error fault =>
        rw [performed] at session
        cases session
    | ok reached =>
        rw [performed] at session
        cases session
        rfl
  · cases session

/-- What a tick of the bench leaves. -/
structure Steps (bench next : Bench γ) (outputs : Outputs) : Prop where
  ticked : ∃ events,
    (bench.engine.tick bench.now bench.inputs).Yields events (next.engine, outputs)
  receiver : next.receiver = bench.receiver.sampled bench.now outputs.signals
  reporter : bench.reporter.observe outputs.status = .ok next.reporter
  statuses : next.statuses =
    if outputs.status = {} then bench.statuses
    else bench.statuses.push (bench.now, outputs.status)
  now : next.now = bench.now + 1

/-- The two benches differ at most in the script of the medium and in what is recorded of
attempts and collisions. -/
structure Keeps (bench next : Bench γ) : Prop where
  engine : next.engine = bench.engine
  receiver : next.receiver = bench.receiver
  now : next.now = bench.now
  reporter : next.reporter = bench.reporter
  statuses : next.statuses = bench.statuses

section Notes

omit [WordSource γ]

variable {bench next : Bench γ}

theorem noteHit_keeps {collision : Bool}
    (noted : (bench.noteHit collision).value = .ok next) :
    bench.Keeps next := by
  unfold noteHit at noted
  cases collision with
  | true =>
      rw [if_pos rfl] at noted
      cases noted
      exact ⟨rfl, rfl, rfl, rfl, rfl⟩
  | false =>
      rw [if_neg Bool.false_ne_true] at noted
      cases noted
      exact ⟨rfl, rfl, rfl, rfl, rfl⟩

theorem noteStart_keeps {enable : Bool}
    (noted : bench.noteStart enable = .ok next) :
    bench.Keeps next := by
  unfold noteStart at noted
  split at noted
  · cases queued : bench.offsets with
    | nil =>
        simp only [queued] at noted
        cases noted
        exact ⟨rfl, rfl, rfl, rfl, rfl⟩
    | cons offset offsets =>
        simp only [queued] at noted
        cases scheduled : checkedAdd wideLimit bench.now offset with
        | error fault =>
            rw [scheduled] at noted
            cases noted
        | ok due =>
            rw [scheduled] at noted
            cases noted
            exact ⟨rfl, rfl, rfl, rfl, rfl⟩
  · cases noted
    exact ⟨rfl, rfl, rfl, rfl, rfl⟩

theorem noteStatus_eq_ok {status : Indicators}
    (noted : bench.noteStatus status = .ok next) :
    ∃ reporter, bench.reporter.observe status = .ok reporter ∧
      next = { bench with
        reporter
        statuses :=
          if status = {} then bench.statuses else bench.statuses.push (bench.now, status) } := by
  unfold noteStatus at noted
  cases observed : bench.reporter.observe status with
  | error fault =>
      rw [observed] at noted
      cases noted
  | ok reporter =>
      rw [observed] at noted
      cases noted
      exact ⟨reporter, rfl, rfl⟩

end Notes

theorem steps_of_step {bench next : Bench γ} {outputs : Outputs}
    (stepped : bench.step.value = .ok (next, outputs)) :
    bench.Steps next outputs := by
  unfold step at stepped
  simp only [Traced.value_bind_eq_ok_iff, Traced.value_lift] at stepped
  obtain ⟨hit, struck, ⟨engine, shown⟩, ticked, started, launched, receiver, sampled, reported,
    noted, later, counted, final⟩ := stepped
  have struckKeeps := noteHit_keeps struck
  have launchedKeeps := noteStart_keeps launched
  obtain ⟨reporter, observed, rfl⟩ := noteStatus_eq_ok noted
  obtain ⟨_, rfl⟩ := (checkedAdd_eq_ok_iff ..).mp counted
  cases final
  have now : started.now = bench.now := launchedKeeps.now.trans struckKeeps.now
  have statuses : started.statuses = bench.statuses :=
    launchedKeeps.statuses.trans struckKeeps.statuses
  have heard : started.receiver = bench.receiver :=
    launchedKeeps.receiver.trans struckKeeps.receiver
  constructor
  case ticked =>
    rw [struckKeeps.engine] at ticked
    rw [show started.engine = engine from launchedKeeps.engine]
    exact ⟨_, Traced.yields_of_value ticked⟩
  case receiver =>
    rw [heard] at sampled
    show receiver = _
    rw [Receiver.sampled, sampled]
  case reporter =>
    rw [← struckKeeps.reporter, ← launchedKeeps.reporter]
    exact observed
  case statuses =>
    show (if shown.status = {} then started.statuses
      else started.statuses.push (started.now, shown.status)) = _
    rw [statuses, now]
  case now => rfl

/-- What a session comes to in which the given frames were sent. -/
inductive Reached (config : Config) (words : γ) : List ScriptedFrame → Bench γ → Prop
  | setUp {bench : Bench γ}
      (setUp : (ofConfig config words).value = .ok (.ok bench)) :
      Reached config words [] bench
  | sends {sent : List ScriptedFrame} {bench : Bench γ}
      (before : Reached config words sent bench)
      (frame : ScriptedFrame) :
      Reached config words (sent ++ [frame]) (bench.send frame)
  | collides {sent : List ScriptedFrame} {bench : Bench γ}
      (before : Reached config words sent bench)
      (offset : Tick) :
      Reached config words sent (bench.collide offset)
  | hears {sent : List ScriptedFrame} {bench : Bench γ}
      (before : Reached config words sent bench)
      (first last : Tick) :
      Reached config words sent (bench.assertCarrier first last)
  | forgets {sent : List ScriptedFrame} {bench : Bench γ}
      (before : Reached config words sent bench) :
      Reached config words sent bench.clearRecords
  | awaits {sent : List ScriptedFrame} {bench : Bench γ}
      (before : Reached config words sent bench) :
      Reached config words sent { bench with reporter := .clear }
  | ticks {sent : List ScriptedFrame} {bench next : Bench γ} {outputs : Outputs}
      (before : Reached config words sent bench)
      (steps : bench.Steps next outputs) :
      Reached config words sent next

variable {config : Config} {words : γ} {sent : List ScriptedFrame} {bench final : Bench γ}

theorem Reached.run {ticks : Nat}
    (reached : Reached config words sent bench)
    (ran : (bench.run ticks).value = .ok final) :
    Reached config words sent final := by
  unfold Bench.run at ran
  rw [Traced.value_bind_eq_ok_iff] at ran
  obtain ⟨⟨last, _⟩, repeated, ⟨⟩⟩ := ran
  refine Traced.repeatUntil_keeps ?_ reached repeated
  intro bench next result before round
  rw [Traced.value_bind_eq_ok_iff] at round
  obtain ⟨⟨later, outputs⟩, stepped, ⟨⟩⟩ := round
  exact before.ticks (steps_of_step stepped)

theorem Reached.runUntilStart {limit : Nat} {answer : Except WaitError Tick}
    (reached : Reached config words sent bench)
    (ran : (bench.runUntilStart limit).value = .ok (final, answer)) :
    Reached config words sent final := by
  unfold Bench.runUntilStart at ran
  rw [Traced.value_bind_eq_ok_iff] at ran
  obtain ⟨⟨last, started⟩, repeated, answered⟩ := ran
  have reachedLast : Reached config words sent last := by
    refine Traced.repeatUntil_keeps ?_ reached repeated
    intro bench next result before round
    unfold stepToStart at round
    rw [Traced.value_bind_eq_ok_iff] at round
    obtain ⟨⟨later, outputs⟩, stepped, ⟨⟩⟩ := round
    exact before.ticks (steps_of_step stepped)
  cases started <;> cases answered <;> exact reachedLast

theorem Reached.runUntilOutcome {limit : Nat} {answer : Except WaitError Outcome}
    (reached : Reached config words sent bench)
    (ran : (bench.runUntilOutcome limit).value = .ok (final, answer)) :
    Reached config words sent final := by
  unfold Bench.runUntilOutcome at ran
  rw [Traced.value_bind_eq_ok_iff] at ran
  obtain ⟨⟨last, seen⟩, repeated, answered⟩ := ran
  have reachedLast : Reached config words sent last := by
    refine Traced.repeatUntil_keeps ?_ reached.awaits repeated
    intro bench next result before round
    unfold stepToOutcome at round
    rw [Traced.value_bind_eq_ok_iff] at round
    obtain ⟨⟨later, outputs⟩, stepped, judged⟩ := round
    have reachedLater := before.ticks (steps_of_step stepped)
    cases latched : later.reporter.outcome with
    | error error =>
        simp only [latched] at judged
        cases judged
        exact reachedLater
    | ok outcome =>
        cases outcome <;> simp only [latched] at judged <;> cases judged <;> exact reachedLater
  cases seen <;> cases answered <;> exact reachedLast

theorem Reached.perform {call : Call}
    (reached : Reached config words sent bench)
    (performed : (bench.perform call).value = .ok final) :
    Reached config words (sent ++ call.frame?.toList) final := by
  have unsent {next : Bench γ} (reached : Reached config words sent next) :
      Reached config words (sent ++ []) next := by
    rw [List.append_nil]
    exact reached
  cases call with
  | send frame =>
      cases performed
      exact reached.sends frame
  | collide offset =>
      cases performed
      exact unsent (reached.collides offset)
  | assertCarrier first last =>
      cases performed
      exact unsent (reached.hears first last)
  | clearRecords =>
      cases performed
      exact unsent reached.forgets
  | step =>
      unfold Bench.perform at performed
      rw [Traced.value_bind_eq_ok_iff] at performed
      obtain ⟨⟨next, outputs⟩, stepped, ⟨⟩⟩ := performed
      exact unsent (reached.ticks (steps_of_step stepped))
  | run ticks => exact unsent (reached.run performed)
  | runUntilStart limit =>
      unfold Bench.perform at performed
      rw [Traced.value_bind_eq_ok_iff] at performed
      obtain ⟨⟨next, answer⟩, ran, ⟨⟩⟩ := performed
      exact unsent (reached.runUntilStart ran)
  | runUntilOutcome limit =>
      unfold Bench.perform at performed
      rw [Traced.value_bind_eq_ok_iff] at performed
      obtain ⟨⟨next, answer⟩, ran, ⟨⟩⟩ := performed
      exact unsent (reached.runUntilOutcome ran)

/-- A session that no fault stopped comes to a bench that can be reached. -/
theorem Reached.performAll {calls : List Call}
    (reached : Reached config words sent bench)
    (performed : (bench.performAll calls).value = .ok final) :
    Reached config words (sent ++ framesSent calls) final := by
  unfold Bench.performAll at performed
  induction calls generalizing sent bench with
  | nil =>
      cases performed
      rw [framesSent, List.filterMap_nil, List.append_nil]
      exact reached
  | cons call calls inductionHypothesis =>
      rw [List.foldlM_cons, Traced.value_bind_eq_ok_iff] at performed
      obtain ⟨next, performedFirst, performedRest⟩ := performed
      have reachedFinal := inductionHypothesis (reached.perform performedFirst) performedRest
      have frames : framesSent (call :: calls) = call.frame?.toList ++ framesSent calls := by
        unfold framesSent
        cases found : call.frame? with
        | none => rw [List.filterMap_cons_none found]; rfl
        | some frame => rw [List.filterMap_cons_some found]; rfl
      rw [frames, ← List.append_assoc]
      exact reachedFinal

/-! ## The run of a session -/

/-- The ticks of the bench are those of the run; what was sent since the last tick waits at the
end of the source. -/
structure Follows (run : Run config ScriptedSource γ) (bench : Bench γ) : Prop where
  steady : run.Steady
  origin : run.origin = 0
  source : run.source = ScriptedSource.empty
  appends : ∀ tick, tick < run.length → FrameStore.Appends (run.supply tick)
  engine : ∃ change, FrameStore.Appends change ∧
    bench.engine = (run.engine run.length).supplied change
  receiver : bench.receiver = run.receiver (minLength config) run.length
  now : bench.now = run.length

/-- The last tick of a run is the tick from a bench to the next. -/
structure LastTick (run : Run config ScriptedSource γ) (bench next : Bench γ)
    (outputs : Outputs) : Prop where
  length : run.length = bench.now + 1
  entering : run.entering bench.now = bench.engine
  engine : run.engine (bench.now + 1) = next.engine
  outputs : run.outputs bench.now = outputs
  receiver : run.receiver (minLength config) bench.now = bench.receiver
  receiverNext : run.receiver (minLength config) (bench.now + 1) = next.receiver
  reading : run.reading bench.now = bench.now

section Longer

variable {run : Run config ScriptedSource γ} {further : run.Further} {next : Bench γ}
  {outputs : Outputs}

theorem Follows.longer
    (follows : Follows run bench)
    (steps : bench.Steps next outputs)
    (appends : FrameStore.Appends further.supply)
    (reading : further.reading = bench.now)
    (engine : further.engine = next.engine)
    (shown : further.outputs = outputs) :
    Follows further.longer next where
  steady := by
    refine further.steady_longer follows.steady ?_
    rw [reading, follows.origin, Nat.zero_add]
    exact follows.now
  origin := follows.origin
  source := follows.source
  appends := further.appends_longer follows.appends appends
  engine := ⟨id, ⟨[], fun _ => rfl⟩, (further.engine_last.trans engine).symm⟩
  receiver := by
    rw [steps.receiver, follows.receiver, ← reading, ← shown]
    exact (further.receiver_last _).symm
  now := by
    rw [steps.now, follows.now]
    rfl

theorem Follows.lastTick
    (follows : Follows run bench)
    (steps : bench.Steps next outputs)
    (supplied : bench.engine = (run.engine run.length).supplied further.supply)
    (reading : further.reading = bench.now)
    (engine : further.engine = next.engine)
    (shown : further.outputs = outputs) :
    LastTick further.longer bench next outputs := by
  have now := follows.now
  constructor
  case length => exact congrArg (· + 1) now.symm
  case entering =>
    rw [now, further.entering_last]
    exact supplied.symm
  case engine =>
    rw [now, further.engine_last]
    exact engine
  case outputs =>
    rw [now, further.outputs_last]
    exact shown
  case receiver =>
    rw [now, further.receiver_longer _ (Nat.le_refl _)]
    exact follows.receiver.symm
  case receiverNext =>
    rw [now, further.receiver_last, steps.receiver, follows.receiver, reading, shown]
  case reading =>
    refine Eq.trans ?_ reading
    rw [now]
    exact further.reading_last

/-- A tick of the bench makes the run longer by one. -/
theorem Follows.ticks
    (follows : Follows run bench)
    (steps : bench.Steps next outputs) :
    ∃ longer : Run config ScriptedSource γ,
      Follows longer next ∧ LastTick longer bench next outputs := by
  obtain ⟨change, appends, supplied⟩ := follows.engine
  obtain ⟨events, ticked⟩ := steps.ticked
  rw [supplied] at ticked
  let further : run.Further := {
    supply := change
    reading := bench.now
    inputs := bench.inputs
    engine := next.engine
    outputs
    events
    ticked }
  exact ⟨further.longer, follows.longer steps appends rfl rfl rfl,
    follows.lastTick steps supplied rfl rfl rfl⟩

end Longer

/-- Sending a frame is offering it to the source ahead of the next tick. -/
theorem Follows.sends {run : Run config ScriptedSource γ}
    (follows : Follows run bench)
    (frame : ScriptedFrame) :
    Follows run (bench.send frame) := by
  -- The frame joins what the source is going to be supplied with on the next tick.
  obtain ⟨change, ⟨items, offers⟩, engine⟩ := follows.engine
  refine ⟨follows.steady, follows.origin, follows.source, follows.appends, ?_,
    follows.receiver, follows.now⟩
  refine ⟨fun source => (change source).push frame, ⟨items ++ [frame], ?_⟩, ?_⟩
  · intro source
    show (change source).push frame = _
    rw [offers, FrameStore.offerAll, FrameStore.offerAll, List.foldl_append]
    rfl
  · rw [send, engine]
    rfl

theorem follows_of_setUp
    (setUp : (ofConfig config words).value = .ok (.ok bench)) :
    ∃ run : Run config ScriptedSource γ, Follows run bench := by
  unfold ofConfig at setUp
  rw [Traced.value_bind_eq_ok_iff] at setUp
  obtain ⟨result, engineSetUp, made⟩ := setUp
  cases result with
  | error error => cases made
  | ok engine =>
      cases made
      let run : Run config ScriptedSource γ := {
        length := 0
        source := ScriptedSource.empty
        words
        origin := 0
        supply := fun _ source => source
        reading := fun count => count
        inputs := fun _ => {}
        engine := fun _ => engine
        outputs := fun _ => {}
        events := fun _ => []
        setUp := engineSetUp
        ticked := nofun }
      exact ⟨run, nofun, rfl, rfl, nofun, ⟨id, ⟨[], fun _ => rfl⟩, rfl⟩, rfl, rfl⟩

/-- The ticks of every session are those of a run. -/
theorem Reached.follows
    (reached : Reached config words sent bench) :
    ∃ run : Run config ScriptedSource γ, Follows run bench := by
  induction reached with
  | setUp setUp => exact follows_of_setUp setUp
  | sends before frame inductionHypothesis =>
      obtain ⟨run, follows⟩ := inductionHypothesis
      exact ⟨run, follows.sends frame⟩
  | collides | hears | forgets | awaits =>
      rename_i inductionHypothesis
      obtain ⟨run, follows⟩ := inductionHypothesis
      exact ⟨run, follows.steady, follows.origin, follows.source, follows.appends,
        follows.engine, follows.receiver, follows.now⟩
  | ticks before steps inductionHypothesis =>
      obtain ⟨run, follows⟩ := inductionHypothesis
      obtain ⟨longer, followsNext, _⟩ := follows.ticks steps
      exact ⟨longer, followsNext⟩

end Bench

end HalfDuplex
