import HalfDuplex.Proofs.Bookkeeping

/-!
# The words of a run

The words that backoffs are drawn from are a stream, and the position of the engine in it is
state that nothing shows.  A word too many or too few would shift every later backoff.
`Run.draws_for_retries_only` says that the position is the number of retries decided so far,
whatever frames, outcomes, late collisions and underflows lie between them.

How many places of a word count depends on the collisions that the frame in flight has met.
The engine has a counter for them, which follows them from its first collision to its
outcome; `Engine.Counting` is what keeps that counter in bounds, and `Engine.Rules` is what a
tick adds to it.

The source of octets, the readings of the timer and the inputs are arbitrary.
-/

namespace HalfDuplex

namespace WordSource

variable {γ : Type} [WordSource γ]

/-- The source after a number of words were drawn from it. -/
def after (source : γ) : Nat → γ
  | 0 => source
  | count + 1 => (next (after source count)).2

/-- The word that is drawn from the source after `count` others. -/
def word (source : γ) (count : Nat) : UInt32 :=
  (next (after source count)).1

end WordSource

def Verdict.isRetry : Verdict → Bool
  | .retry _ _ => true
  | _ => false

namespace CollisionWindow

variable {γ : Type} [WordSource γ] {config : Config} {now : Tick}
  {window next : CollisionWindow γ} {verdict : Verdict}

/-- A word is drawn for a retry, and for no other verdict. -/
theorem Judges.words_eq (judges : Judges now window next verdict) :
    next.words =
      if verdict.isRetry = true then (WordSource.next window.words).2 else window.words := by
  cases judges <;> rfl

theorem Judges.collisions_eq
    (judges : Judges now window next verdict)
    (few : window.collisions < config.maxCollisions.toNat) :
    next.collisions =
      window.collisions + if verdict.isOrdinary = true then 1 else 0 := by
  cases judges with
  | late => rfl
  | giveUp => exact counted_eq few
  | retry => exact counted_eq few

/-- The word that is drawn for a retry is cut to as many places as the collisions allow, this
one included. -/
theorem Judges.slots_eq {slots : Nat} {delay : Tick}
    (judges : Judges now window next (.retry slots delay)) :
    slots = (WordSource.next window.words).1.toNat %
        2 ^ min next.collisions window.limits.backoffLimit ∧
      delay = slots * window.limits.backoffSlotTicks := by
  cases judges
  exact ⟨rfl, rfl⟩

end CollisionWindow

namespace Engine

variable {σ γ : Type} {config : Config} {engine next : Engine σ γ} {now early gap : Tick}
  {words : γ} {met : Nat} {marks : List Mark}

/-- The collisions counted stay below their limit until the frame is given up. -/
inductive Counting (config : Config) (engine : Engine σ γ) : Prop
  | idle
      (idle : engine.sequencer.stage = .idle)
      (unjudged : engine.verdict = none)
      (few : engine.window.collisions < config.maxCollisions.toNat)
  | clear
      (clear : engine.sequencer.Clear)
      (unjudged : engine.verdict = none)
      (few : engine.window.collisions < config.maxCollisions.toNat)
  | struck {verdict : Verdict}
      (struck : engine.sequencer.Struck)
      (judged : engine.verdict = some verdict)
      (counts : verdict.Counts config engine.window.collisions)

/-- What is decided about collisions on a tick, with `words` to draw from and `met` collisions
of the frame in flight to count from: nothing, or what to do about one collision. -/
inductive Rules [WordSource γ] (config : Config) (now : Tick) (words : γ) (met : Nat)
    (marks : List Mark) (next : Engine σ γ) : Prop
  | nothing
      (unnoticed : ¬ HasNotice marks)
      (kept : next.window.words = words)
      (counted : next.window.collisions = met)
  | judges {window : CollisionWindow γ} {verdict : Verdict}
      (noticed : HasNotice marks)
      (limits : window.limits = CollisionLimits.ofConfig config)
      (drawnFrom : window.words = words)
      (counted : window.collisions = met)
      (few : met < config.maxCollisions.toNat)
      (judges : CollisionWindow.Judges now window next.window verdict)
      (judged : next.verdict = some verdict)

/-- The collisions of the frame in flight that are left after an outcome was raised or not. -/
def metAfter (engine : Engine σ γ) (status : Indicators) : Nat :=
  if status = {} then engine.window.collisions else 0

theorem Counting.few_of_idle
    (idle : engine.sequencer.stage = .idle)
    (counting : engine.Counting config) :
    engine.verdict = none ∧ engine.window.collisions < config.maxCollisions.toNat := by
  cases counting with
  | idle _ unjudged few => exact ⟨unjudged, few⟩
  | clear clear => exact absurd idle clear.active
  | struck struck => exact absurd idle struck.active

theorem Counting.active_of_judged
    (judged : engine.verdict ≠ none)
    (counting : engine.Counting config) :
    engine.sequencer.stage ≠ .idle := by
  cases counting with
  | idle _ unjudged => exact absurd unjudged judged
  | clear _ unjudged => exact absurd unjudged judged
  | struck struck => exact struck.active

section Ticking

variable [ByteSource σ] [WordSource γ] {collision : Bool} {step : SequencerStep}
  {signals shown : Signals} {status : Indicators} {inputs : Inputs} {ready : Bool}
  {driven : Engine σ γ}

/-- A tick of the sequencer that does not end the attempt. -/
theorem Counting.drives
    (counting : engine.Counting config)
    (conforms : engine.Conforms config)
    (drives : Drives now collision engine next step)
    (unended : step.ending = none) :
    next.Counting config ∧
      Rules config now engine.window.words engine.window.collisions
        (Sequencer.marksOfStep now step) next := by
  have unnoticed_of (uncollided : step.collided = false) :
      ¬ HasNotice (Sequencer.marksOfStep now step) := by
    rw [Sequencer.hasNotice_marksOfStep, uncollided]
    exact Bool.false_ne_true
  cases counting with
  | idle idle unjudged few =>
      obtain ⟨rfl, rfl⟩ := drives.resting idle
      exact ⟨.idle idle unjudged few, .nothing (unnoticed_of rfl) rfl rfl⟩
  | clear clear unjudged few =>
      have goesOn := clear.moves drives.moves
      cases drives with
      | plain moves unnoticed =>
          simp only [unended, unnoticed, Bool.false_eq_true, if_false] at goesOn
          exact ⟨.clear goesOn unjudged few, .nothing (unnoticed_of unnoticed) rfl rfl⟩
      | struck moves noticed judges =>
          simp only [unended, noticed, if_true] at goesOn
          have marked := (Sequencer.hasNotice_marksOfStep now step).mpr noticed
          exact ⟨.struck goesOn rfl (judges.counts conforms.limits few).2,
            .judges marked conforms.limits rfl rfl few judges rfl⟩
  | struck struck judged counts =>
      have goesOn := struck.moves drives.moves
      cases drives with
      | plain moves unnoticed =>
          simp only [unended] at goesOn
          exact ⟨.struck goesOn.2 judged counts, .nothing (unnoticed_of unnoticed) rfl rfl⟩
      | struck moves noticed => cases noticed.symm.trans goesOn.1

omit [WordSource γ] in
theorem counting_finished
    (timing : config.Timing early gap)
    (idle : engine.sequencer.stage = .idle)
    (outcome : Outcome) :
    (engine.finished outcome).Counting config :=
  .idle idle rfl timing.maxCollisions_pos

/-- The end of an attempt settles nothing about words, and an outcome clears the count. -/
theorem Counting.settles {ending : Ending} {outcome : Option Outcome}
    (counting : engine.Counting config)
    (timing : config.Timing early gap)
    (drives : Drives now collision engine driven step)
    (ended : step.ending = some ending)
    (settles : Settles now driven ending next outcome) :
    next.Counting config ∧ next.window.words = engine.window.words ∧
      next.window.collisions = engine.metAfter (raised outcome) := by
  have unnoticed := (drives.moves.ended_idle ended).2.2
  have idle := (drives.moves.ended_idle ended).1
  have kept : driven.window = engine.window ∧ driven.verdict = engine.verdict := by
    cases drives with
    | plain moves => exact ⟨rfl, rfl⟩
    | struck moves noticed => cases noticed.symm.trans unnoticed
  obtain ⟨window, verdict⟩ := kept
  have cleared (outcome : Outcome) : 0 = engine.metAfter (raised (some outcome)) :=
    (if_neg outcome.indicators_ne).symm
  have words : driven.window.words = engine.window.words := by rw [window]
  cases settles with
  | sent => exact ⟨counting_finished timing idle .ok, words, cleared .ok⟩
  | underflow => exact ⟨counting_finished timing idle .underflow, words, cleared .underflow⟩
  | giveUp judged =>
      have idleCounted : driven.counted.sequencer.stage = .idle := idle
      exact ⟨counting_finished timing idleCounted .gaveUp, words, cleared .gaveUp⟩
  | late judged =>
      exact ⟨counting_finished timing idle .lateCollision, words, cleared .lateCollision⟩
  | retry judged =>
      have collisions : driven.window.collisions = engine.window.collisions := by rw [window]
      refine ⟨.idle idle rfl ?_, words, collisions⟩
      rw [verdict] at judged
      cases counting with
      | idle _ unjudged few => cases unjudged.symm.trans judged
      | clear _ unjudged few => cases unjudged.symm.trans judged
      | struck struck other counts =>
          cases other.symm.trans judged
          exact collisions ▸ counts.2
  | unjudged none =>
      have collisions : driven.window.collisions = engine.window.collisions := by rw [window]
      refine ⟨.idle idle none ?_, words, collisions⟩
      rw [verdict] at none
      cases counting with
      | idle _ unjudged few => exact collisions ▸ few
      | clear _ unjudged few => exact collisions ▸ few
      | struck struck judged => cases none.symm.trans judged

theorem Counting.proceeds
    (counting : engine.Counting config)
    (conforms : engine.Conforms config)
    (timing : config.Timing early gap)
    (proceeds : Proceeds now collision engine next signals status marks) :
    next.Counting config ∧
      Rules config now engine.window.words (engine.metAfter status) marks next := by
  cases proceeds with
  | goesOn drives unended => exact counting.drives conforms drives unended
  | @settles _ _ step ending outcome drives ended settles =>
      obtain ⟨countingNext, words, collisions⟩ :=
        counting.settles timing drives ended settles
      have unnoticed := (drives.moves.ended_idle ended).2.2
      refine ⟨countingNext, .nothing ?_ words collisions⟩
      rw [hasNotice_append, Sequencer.hasNotice_marksOfStep, unnoticed]
      simp

/-- A new attempt counts on from the collisions that the frame has met. -/
theorem Counting.considers
    (counting : engine.Counting config)
    (conforms : engine.Conforms config)
    (timing : config.Timing early gap)
    (considers : Considers now inputs ready signals engine next shown marks) :
    next.Counting config ∧
      Rules config now engine.window.words engine.window.collisions marks next := by
  cases considers with
  | launches poised free drives =>
      obtain ⟨unjudged, few⟩ := counting.few_of_idle poised.1
      have begun : (engine.begin now).Counting config :=
        .clear ⟨nofun, rfl, nofun⟩ unjudged few
      have unended : _ = none :=
        congrArg SequencerStep.ending (conforms.launches timing drives).1
      obtain ⟨countingNext, rules⟩ := begun.drives (conforms.begin now) drives unended
      refine ⟨countingNext, ?_⟩
      cases rules with
      | nothing unnoticed kept counted =>
          refine .nothing ?_ kept counted
          rwa [hasNotice_started]
      | judges noticed limits drawnFrom counted few judges judged =>
          refine .judges ?_ limits drawnFrom counted few judges judged
          rwa [hasNotice_started]
  | holdsOff poised closed =>
      obtain ⟨unjudged, few⟩ := counting.few_of_idle poised.1
      exact ⟨.idle poised.1 unjudged few, .nothing not_hasNotice_nil rfl rfl⟩
  | passes unpoised => exact ⟨counting, .nothing not_hasNotice_nil rfl rfl⟩

theorem Counting.ticks {outputs : Outputs}
    (counting : engine.Counting config)
    (conforms : engine.Conforms config)
    (timing : config.Timing early gap)
    (ticks : Ticks now inputs engine next outputs marks) :
    next.Counting config ∧
      Rules config now engine.window.words (engine.metAfter outputs.status) marks next := by
  cases ticks with
  | @parts proceeded _ _ _ _ settled started deferral _ proceeds advances considers =>
      obtain ⟨countingThen, rulesThen⟩ := counting.proceeds conforms timing proceeds
      have conformsThen := (conforms.proceeds proceeds).deferring advances.spans
      have countingDeferring : (proceeded.deferring deferral).Counting config := by
        cases countingThen with
        | idle idle unjudged few => exact .idle idle unjudged few
        | clear clear unjudged few => exact .clear clear unjudged few
        | struck struck judged counts => exact .struck struck judged counts
      cases rulesThen with
      | nothing unnoticed kept counted =>
          obtain ⟨countingNext, rules⟩ :=
            countingDeferring.considers conformsThen timing considers
          refine ⟨countingNext, ?_⟩
          cases rules with
          | nothing unnoticedThen keptThen countedThen =>
              refine .nothing ?_ (keptThen.trans kept) (countedThen.trans counted)
              rw [hasNotice_append]
              exact not_or.mpr ⟨unnoticed, unnoticedThen⟩
          | judges noticed limits drawnFrom countedThen few judges judged =>
              refine .judges ?_ limits (drawnFrom.trans kept) (countedThen.trans counted) ?_
                judges judged
              · rw [hasNotice_append]
                exact .inr noticed
              · rw [← counted]
                exact few
      | judges noticed limits drawnFrom counted few judges judged =>
          -- An attempt that has met a collision is in progress, so that none starts.
          have standing : (proceeded.deferring deferral).verdict ≠ none := by
            show proceeded.verdict ≠ none
            simp [judged]
          have active := countingDeferring.active_of_judged standing
          obtain ⟨rfl, _, rfl⟩ := considers.passing active
          rw [List.append_nil]
          exact ⟨countingDeferring,
            .judges noticed limits drawnFrom counted few judges judged⟩

end Ticking

namespace Rules

variable [WordSource γ]

theorem words_eq (rules : Rules config now words met marks next) :
    next.window.words =
      if HasNotice marks ∧ next.verdict.any Verdict.isRetry = true then
        (WordSource.next words).2
      else words := by
  cases rules with
  | nothing unnoticed kept => rw [if_neg fun retries => unnoticed retries.1, kept]
  | judges noticed limits drawnFrom counted few judges judged =>
      rw [judges.words_eq, drawnFrom, judged]
      simp [noticed]

theorem collisions_eq (rules : Rules config now words met marks next) :
    next.window.collisions =
      met + if HasNotice marks ∧ next.pending = true then 1 else 0 := by
  cases rules with
  | nothing unnoticed kept counted =>
      rw [if_neg fun latches => unnoticed latches.1, counted, Nat.add_zero]
  | judges noticed limits drawnFrom counted few judges judged =>
      subst counted
      rw [judges.collisions_eq few, pending, judged]
      simp [noticed]

theorem slots_eq {slots : Nat} {delay : Tick}
    (noticed : HasNotice marks)
    (verdict : next.verdict = some (.retry slots delay))
    (rules : Rules config now words met marks next) :
    slots = (WordSource.next words).1.toNat %
        2 ^ min next.window.collisions config.backoffLimit.toNat ∧
      delay = slots * config.backoffSlotTicks ∧
      0 < next.window.collisions ∧ next.window.collisions < config.maxCollisions.toNat := by
  cases rules with
  | nothing unnoticed => exact absurd noticed unnoticed
  | judges _ limits drawnFrom counted few judges judged =>
      subst counted
      cases judged.symm.trans verdict
      obtain ⟨slotsEqual, delayEqual⟩ := judges.slots_eq
      obtain ⟨_, positive, below⟩ := judges.counts limits few
      rw [limits] at slotsEqual delayEqual
      rw [drawnFrom] at slotsEqual
      exact ⟨slotsEqual, delayEqual, positive, below⟩

end Rules

end Engine

namespace Run

variable {config : Config} {σ γ : Type} [ByteSource σ] [WordSource γ]
  (run : Run config σ γ) {count : Nat}

/-- On a tick a collision is noticed after which the frame is to be tried again. -/
def Retries (tick : Nat) : Prop :=
  run.Notices tick ∧ (run.engine (tick + 1)).verdict.any Verdict.isRetry = true

instance (tick : Nat) : Decidable (run.Retries tick) :=
  inferInstanceAs (Decidable (_ ∧ _))

/-- Number of the ordinary collisions ahead of the tick `count` that no outcome has followed:
those that the frame in flight has met. -/
def collisionsMet (count : Nat) : Nat :=
  Nat.count
    (fun tick => run.Latches tick ∧
      ∀ other, other < count → tick < other → (run.outputs other).status = {})
    count

theorem collisionsMet_succ (count : Nat) :
    run.collisionsMet (count + 1) =
      (if (run.outputs count).status = {} then run.collisionsMet count else 0) +
        if run.Latches count then 1 else 0 := by
  have latest : (run.Latches count ∧
      ∀ other, other < count + 1 → count < other → (run.outputs other).status = {}) ↔
        run.Latches count := by
    refine and_iff_left ?_
    intro other within after
    exact absurd after (Nat.not_lt.mpr (Nat.le_of_lt_succ within))
  unfold collisionsMet
  rw [Nat.count_succ]
  simp only [latest]
  congr 1
  split
  · rename_i unraised
    refine count_congr ?_
    intro tick earlier
    refine and_congr_right fun _ => ?_
    constructor
    · exact fun quiet other within => quiet other (Nat.lt_succ_of_lt within)
    · intro quiet other within after
      rcases Nat.lt_succ_iff_lt_or_eq.mp within with before | rfl
      · exact quiet other before after
      · exact unraised
  · rename_i raised
    refine Nat.count_of_forall_not ?_
    rintro tick earlier ⟨_, quiet⟩
    exact raised (quiet count (Nat.lt_succ_self count) earlier)

variable {run}

theorem rules
    (within : count < run.length)
    (counting : (run.engine count).Counting config) :
    (run.engine (count + 1)).Counting config ∧
      Engine.Rules config (run.reading count) (run.engine count).window.words
        ((run.engine count).metAfter (run.outputs count).status) (run.marks count)
        (run.engine (count + 1)) := by
  obtain ⟨early, gap, timing⟩ := run.accepted.timing
  have conforms := (run.conforms (Nat.le_of_lt within)).supplied (run.supply count)
  have entering : (run.entering count).Counting config := by
    cases counting with
    | idle idle unjudged few => exact .idle idle unjudged few
    | clear clear unjudged few => exact .clear clear unjudged few
    | struck struck judged counts => exact .struck struck judged counts
  exact entering.ticks conforms timing (run.ticks within)

/-- The position in the stream of words is the number of retries, and the collisions counted
are those that the frame in flight has met. -/
theorem draws (within : count ≤ run.length) :
    (run.engine count).Counting config ∧
      (run.engine count).window.words =
        WordSource.after run.words (Nat.count run.Retries count) ∧
      (run.engine count).window.collisions = run.collisionsMet count := by
  induction count with
  | zero =>
      obtain ⟨early, gap, timing⟩ := run.accepted.timing
      obtain ⟨_, deferral, sequencer, _, sequencerEqual, engineEqual⟩ :=
        Engine.ofConfig_eq_ok run.setUp
      obtain ⟨plan, _, rfl⟩ := Sequencer.ofConfig_eq_ok sequencerEqual
      rw [engineEqual]
      exact ⟨.idle rfl rfl timing.maxCollisions_pos, rfl, rfl⟩
  | succ count inductionHypothesis =>
      obtain ⟨counting, words, collisions⟩ := inductionHypothesis (Nat.le_of_succ_le within)
      obtain ⟨countingNext, rules⟩ := run.rules within counting
      have drawn : (run.engine (count + 1)).window.words =
          if run.Retries count then (WordSource.next (run.engine count).window.words).2
          else (run.engine count).window.words :=
        rules.words_eq
      refine ⟨countingNext, ?_, ?_⟩
      · rw [drawn, words, Nat.count_succ]
        by_cases retries : run.Retries count
        · rw [if_pos retries, if_pos retries]
          rfl
        · rw [if_neg retries, if_neg retries, Nat.add_zero]
      · rw [rules.collisions_eq, collisionsMet_succ, Engine.metAfter, collisions]
        rfl

/-- One word is drawn for each retry, and for nothing else: at any time the words are as far
on as there were retries.  The retry after `earlier` others is decided by the word with that
number, of which as many places count as the frame in flight has met ordinary collisions,
this one included.  That is fewer than the limit of collisions, and it is counted from one
again after each outcome. -/
theorem draws_for_retries_only (run : Run config σ γ) :
    (∀ count, count ≤ run.length →
      (run.engine count).window.words =
          WordSource.after run.words (Nat.count run.Retries count) ∧
        (run.engine count).collisions = run.collisionsMet count) ∧
      ∀ tick slots delay, tick < run.length → run.Notices tick →
        (run.engine (tick + 1)).verdict = some (.retry slots delay) →
          slots = (WordSource.word run.words (Nat.count run.Retries tick)).toNat %
              2 ^ min (run.collisionsMet (tick + 1)) config.backoffLimit.toNat ∧
            delay = slots * config.backoffSlotTicks ∧
            0 < run.collisionsMet (tick + 1) ∧
            run.collisionsMet (tick + 1) < config.maxCollisions.toNat := by
  constructor
  · intro count within
    exact (run.draws within).2
  · intro tick slots delay within noticed verdict
    obtain ⟨counting, words, _⟩ := run.draws (Nat.le_of_lt within)
    obtain ⟨_, rules⟩ := run.rules within counting
    have collisions := (run.draws within).2.2
    have decided := rules.slots_eq noticed verdict
    rw [words, collisions] at decided
    exact decided

/-- Of four frames the first is given up at its third collision, the second starves with a
collision pending, the third meets a late collision, and the last is tried again. -/
def drawingScenario : Scenario ScriptedSource ListedWords where
  source := FrameStore.offerAll ScriptedSource.empty [
    ScriptedFrame.ofBytes [0xA5],
    { entries := [.octet (.byte 0x5A), .stall] },
    ScriptedFrame.ofBytes [0xA5],
    ScriptedFrame.ofBytes [0x5A]]
  words := { round := [], rest := [5, 6, 3, 8] }
  inputs count := { collision := count ∈ [3, 9, 19, 27, 37, 43] }

def drawingConfig : Config :=
  { Config.brief with slotBytes := 2, maxCollisions := 3, backoffLimit := 4 }

def drawingRun : Run drawingConfig ScriptedSource ListedWords :=
  (drawingScenario.run? drawingConfig 46).get (by decide +kernel)

theorem draws_for_retries_only_drawingRun :
    (drawingRun.engine 10).verdict = some (.retry 2 4) ∧
      (2 = (WordSource.word drawingRun.words 1).toNat % 2 ^ min (drawingRun.collisionsMet 10) 4 ∧
        drawingRun.collisionsMet 10 = 2) ∧
      (drawingRun.engine 20).verdict = some .giveUp ∧
      (drawingRun.engine 38).verdict = some .late ∧
      (drawingRun.engine 44).verdict = some (.retry 0 0) ∧
      (0 = (WordSource.word drawingRun.words 3).toNat % 2 ^ min (drawingRun.collisionsMet 44) 4 ∧
        drawingRun.collisionsMet 44 = 1) ∧
      (drawingRun.engine 46).window.words = WordSource.after drawingRun.words 4 := by
  obtain ⟨position, decided⟩ := draws_for_retries_only drawingRun
  have second : (drawingRun.engine 10).verdict = some (.retry 2 4) := by decide +kernel
  have last : (drawingRun.engine 44).verdict = some (.retry 0 0) := by decide +kernel
  have drawnSecond := decided 9 2 4 (by decide +kernel) (by decide +kernel) second
  have drawnLast := decided 43 0 0 (by decide +kernel) (by decide +kernel) last
  have words := (position 46 (by decide +kernel)).1
  have beforeSecond : Nat.count drawingRun.Retries 9 = 1 := by decide +kernel
  have beforeLast : Nat.count drawingRun.Retries 43 = 3 := by decide +kernel
  have total : Nat.count drawingRun.Retries 46 = 4 := by decide +kernel
  rw [beforeSecond] at drawnSecond
  rw [beforeLast] at drawnLast
  rw [total] at words
  exact ⟨second, ⟨drawnSecond.1, by decide +kernel⟩, by decide +kernel, by decide +kernel, last,
    ⟨drawnLast.1, by decide +kernel⟩, words⟩

end Run

end HalfDuplex
