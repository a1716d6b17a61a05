import HalfDuplex.Proofs.Session
import HalfDuplex.Proofs.Simulation

/-!
# Runs that mirror a run

A run is mirrored over another kind of source: the readings of the timer are later by a
constant, the inputs are the same, and the other source is fed in its own way.  If that source
is alike to begin with, and answers alike whenever it is asked, the two runs are in accord
after every tick.

A mirrored run can always be had.  It is as long as the run that it mirrors, unless a sum
does not fit in it.
-/

namespace HalfDuplex

variable {config : Config} {σ τ γ : Type}

theorem Deferral.ofConfig_later {deferral : Deferral} {now : Tick}
    (setUp : Deferral.ofConfig config now = .ok deferral)
    (delay : Tick) :
    Deferral.ofConfig config (now + delay) = .ok (deferral.later delay) := by
  obtain ⟨earlyTicks, gapTicks, state⟩ := Deferral.ofConfig_eq_ok setUp
  unfold ofConfig
  rw [earlyTicks, gapTicks]
  simp [later, moved, state, DeferralState.later, bind, Except.bind, pure, Except.pure]

/-- An engine that is set up `delay` ticks later is the same engine `delay` ticks later. -/
theorem Engine.ofConfig_later {engine : Engine σ γ} {source : σ} {words : γ} {now : Tick}
    (setUp : (Engine.ofConfig config source words now).value = .ok (.ok engine))
    (delay : Tick) (image : τ) :
    (Engine.ofConfig config image words (now + delay)).value =
      .ok (.ok (engine.later delay image)) := by
  obtain ⟨accepted, deferral, sequencer, deferralEqual, sequencerEqual, rfl⟩ :=
    ofConfig_eq_ok setUp
  obtain ⟨_, gapTicks, _⟩ := Deferral.ofConfig_eq_ok deferralEqual
  have checked : config.firstError = .ok none := accepted
  have deferralLater := Deferral.ofConfig_later deferralEqual delay
  simp only [Engine.ofConfig, Traced.value_bind_eq_ok_iff, Traced.value_lift]
  refine ⟨none, checked, ?_⟩
  simp only [Traced.value_bind_eq_ok_iff, Traced.value_lift, Traced.value_record,
    Traced.value_pure, Except.ok.injEq]
  exact ⟨_, gapTicks, (), trivial, _, deferralLater, sequencer, sequencerEqual, rfl⟩

namespace Run

variable [ByteSource σ] [ByteSource τ] [WordSource γ]

/-- The second run is given what the first one is given, with all readings of the timer later
by `delay`, over a source that is `image` to begin with and supplied by `feed`. -/
structure Mirrors (delay : Tick) (image : τ) (feed : Nat → τ → τ) (run : Run config σ γ)
    (other : Run config τ γ) : Prop where
  source : other.source = image
  words : other.words = run.words
  origin : other.origin = run.origin + delay
  supply : ∀ tick, tick < run.length → tick < other.length → other.supply tick = feed tick
  reading : ∀ tick, tick < run.length → tick < other.length →
    other.reading tick = run.reading tick + delay
  inputs : ∀ tick, tick < run.length → tick < other.length →
    other.inputs tick = run.inputs tick

/-- After a number of ticks the second engine is the first one `delay` ticks later, over a
source that is alike. -/
structure Accords (likeness : Likeness σ τ) (delay : Tick) (run : Run config σ γ)
    (other : Run config τ γ) (count : Nat) : Prop where
  alike : likeness.Alike (run.engine count).source (other.engine count).source
  engine : other.engine count = (run.engine count).later delay (other.engine count).source

/-- The source of a mirrored run is alike to begin with, stays alike when it is supplied, and
answers alike. -/
structure Feeds (likeness : Likeness σ τ) (delay : Tick) (image : τ) (feed : Nat → τ → τ)
    (run : Run config σ γ) : Prop where
  begins : likeness.Alike run.source image
  supplied : ∀ tick before, tick < run.length →
    likeness.Alike (run.engine tick).source before →
      likeness.Alike (run.entering tick).source (feed tick before)
  answers : ∀ other : Run config τ γ, Mirrors delay image feed run other →
    ∀ tick, tick < run.length → tick ≤ other.length → Accords likeness delay run other tick →
      (run.entering tick).sequencer.Asks →
        likeness.Answers (run.reading tick) (run.reading tick + delay)
          (run.entering tick).source (feed tick (other.engine tick).source)

/-- The tick after the second run stops because a sum does not fit. -/
def Overflows (delay : Tick) (feed : Nat → τ → τ) (run : Run config σ γ)
    (other : Run config τ γ) : Prop :=
  (((other.engine other.length).supplied (feed other.length)).tick
    (run.reading other.length + delay) (run.inputs other.length)).value =
      .error .additionOverflow

variable {likeness : Likeness σ τ} {delay : Tick} {image : τ} {feed : Nat → τ → τ}
  {run : Run config σ γ} {other : Run config τ γ}

/-- What a tick of a mirrored run comes to. -/
theorem Feeds.tick_shadows {tick : Nat}
    (feeds : Feeds likeness delay image feed run)
    (mirrors : Mirrors delay image feed run other)
    (within : tick < run.length)
    (reached : tick ≤ other.length)
    (accords : Accords likeness delay run other tick) :
    Shadows (Engine.Alongside likeness delay) (.ok (run.engine (tick + 1), run.outputs tick))
      (((other.engine tick).supplied (feed tick)).tick (run.reading tick + delay)
        (run.inputs tick)).value := by
  obtain ⟨early, gap, timing⟩ := run.accepted.timing
  have conforms := (run.conforms (Nat.le_of_lt within)).supplied (run.supply tick)
  have ticked : ((run.entering tick).tick (run.reading tick) (run.inputs tick)).value =
      .ok (run.engine (tick + 1), run.outputs tick) :=
    congrArg Traced.value (run.ticked tick within)
  have entering : (other.engine tick).supplied (feed tick) =
      (run.entering tick).later delay (feed tick (other.engine tick).source) := by
    rw [accords.engine]
    rfl
  rw [← ticked, entering]
  exact Engine.tick_shadows delay (feeds.supplied tick _ within accords.alike) conforms timing
    (feeds.answers other mirrors tick within reached accords)

namespace Mirrors

theorem set_up
    (mirrors : Mirrors delay image feed run other)
    (alike : likeness.Alike run.source image) :
    Accords likeness delay run other 0 := by
  have setUp := Engine.ofConfig_later run.setUp delay image
  rw [← mirrors.words, ← mirrors.origin, ← mirrors.source, other.setUp] at setUp
  have engine := Except.ok.inj (Except.ok.inj setUp)
  obtain ⟨_, _, _, _, _, started⟩ := Engine.ofConfig_eq_ok run.setUp
  have source : (other.engine 0).source = image := by
    rw [engine]
    exact mirrors.source
  constructor
  case alike =>
    rw [started, source]
    exact alike
  case engine =>
    rw [source, ← mirrors.source]
    exact engine

theorem ticks {tick : Nat}
    (mirrors : Mirrors delay image feed run other)
    (feeds : Feeds likeness delay image feed run)
    (within : tick < run.length)
    (withinOther : tick < other.length)
    (accords : Accords likeness delay run other tick) :
    Accords likeness delay run other (tick + 1) ∧ other.outputs tick = run.outputs tick := by
  have shadows := feeds.tick_shadows mirrors within (Nat.le_of_lt withinOther) accords
  have ticked : ((other.entering tick).tick (other.reading tick) (other.inputs tick)).value =
      .ok (other.engine (tick + 1), other.outputs tick) :=
    congrArg Traced.value (other.ticked tick withinOther)
  unfold entering at ticked
  rw [mirrors.supply tick within withinOther, mirrors.reading tick within withinOther,
    mirrors.inputs tick within withinOther] at ticked
  rw [ticked] at shadows
  cases shadows with
  | value values =>
      obtain ⟨after, alike, same⟩ := values
      obtain ⟨engine, outputs⟩ := Prod.mk.inj same
      have source : (other.engine (tick + 1)).source = after := by
        rw [engine]
        rfl
      refine ⟨⟨?_, ?_⟩, outputs⟩
      · rw [source]
        exact alike
      · rw [source]
        exact engine

/-- Two runs are in accord as far as both of them go. -/
theorem accords {count : Nat}
    (mirrors : Mirrors delay image feed run other)
    (feeds : Feeds likeness delay image feed run)
    (within : count ≤ run.length)
    (withinOther : count ≤ other.length) :
    Accords likeness delay run other count := by
  induction count with
  | zero => exact mirrors.set_up feeds.begins
  | succ count inductionHypothesis =>
      have before := inductionHypothesis (Nat.le_of_lt within) (Nat.le_of_lt withinOther)
      exact (mirrors.ticks feeds within withinOther before).1

theorem outputs {tick : Nat}
    (mirrors : Mirrors delay image feed run other)
    (feeds : Feeds likeness delay image feed run)
    (within : tick < run.length)
    (withinOther : tick < other.length) :
    other.outputs tick = run.outputs tick := by
  have before := mirrors.accords feeds (Nat.le_of_lt within) (Nat.le_of_lt withinOther)
  exact (mirrors.ticks feeds within withinOther before).2

theorem longer {further : other.Further}
    (mirrors : Mirrors delay image feed run other)
    (supply : further.supply = feed other.length)
    (reading : further.reading = run.reading other.length + delay)
    (inputs : further.inputs = run.inputs other.length) :
    Mirrors delay image feed run further.longer where
  source := mirrors.source
  words := mirrors.words
  origin := mirrors.origin
  supply := by
    intro tick within before
    rcases Nat.lt_succ_iff_lt_or_eq.mp before with earlier | rfl
    · rw [further.supply_longer earlier]
      exact mirrors.supply tick within earlier
    · rw [further.supply_last]
      exact supply
  reading := by
    intro tick within before
    rcases Nat.lt_succ_iff_lt_or_eq.mp before with earlier | rfl
    · rw [further.reading_longer earlier]
      exact mirrors.reading tick within earlier
    · rw [further.reading_last]
      exact reading
  inputs := by
    intro tick within before
    rcases Nat.lt_succ_iff_lt_or_eq.mp before with earlier | rfl
    · rw [further.inputs_longer earlier]
      exact mirrors.inputs tick within earlier
    · rw [further.inputs_last]
      exact inputs

/-- A mirrored run goes on for one more tick, unless a sum does not fit. -/
theorem goes_on
    (mirrors : Mirrors delay image feed run other)
    (feeds : Feeds likeness delay image feed run)
    (within : other.length < run.length) :
    Overflows delay feed run other ∨
      ∃ longer : Run config τ γ, Mirrors delay image feed run longer ∧
        longer.length = other.length + 1 := by
  have accords := mirrors.accords feeds (Nat.le_of_lt within) (Nat.le_refl _)
  have shadows := feeds.tick_shadows mirrors within (Nat.le_refl _) accords
  cases ticked : (((other.engine other.length).supplied (feed other.length)).tick
      (run.reading other.length + delay) (run.inputs other.length)).value with
  | error fault =>
      rw [ticked] at shadows
      cases shadows with
      | overflow => exact .inl ticked
  | ok result =>
      let further : other.Further := {
        supply := feed other.length
        reading := run.reading other.length + delay
        inputs := run.inputs other.length
        engine := result.1
        outputs := result.2
        events := _
        ticked := Traced.yields_of_value ticked }
      exact .inr ⟨further.longer, mirrors.longer rfl rfl rfl, rfl⟩

end Mirrors

/-- The mirrored run of no ticks. -/
theorem mirrored_set_up (run : Run config σ γ) (delay : Tick) (image : τ)
    (feed : Nat → τ → τ) :
    ∃ other : Run config τ γ, Mirrors delay image feed run other ∧ other.length = 0 := by
  let other : Run config τ γ := {
    length := 0
    source := image
    words := run.words
    origin := run.origin + delay
    supply := feed
    reading := run.reading
    inputs := run.inputs
    engine := fun _ => (run.engine 0).later delay image
    outputs := run.outputs
    events := run.events
    setUp := Engine.ofConfig_later run.setUp delay image
    ticked := nofun }
  exact ⟨other, ⟨rfl, rfl, rfl, nofun, nofun, nofun⟩, rfl⟩

/-- A run can be mirrored as far as all sums fit. -/
theorem Feeds.exists_mirrored {count : Nat}
    (feeds : Feeds likeness delay image feed run)
    (within : count ≤ run.length) :
    ∃ other : Run config τ γ, Mirrors delay image feed run other ∧
      (other.length = count ∨ other.length < count ∧ Overflows delay feed run other) := by
  induction count with
  | zero =>
      obtain ⟨other, mirrors, empty⟩ := mirrored_set_up run delay image feed
      exact ⟨other, mirrors, .inl empty⟩
  | succ count inductionHypothesis =>
      obtain ⟨other, mirrors, rfl | ⟨shorter, overflows⟩⟩ :=
        inductionHypothesis (Nat.le_of_succ_le within)
      · rcases mirrors.goes_on feeds within with overflows | ⟨longer, mirrorsLonger, length⟩
        · exact ⟨other, mirrors, .inr ⟨Nat.lt_succ_self _, overflows⟩⟩
        · exact ⟨longer, mirrorsLonger, .inl length⟩
      · exact ⟨other, mirrors, .inr ⟨Nat.lt_succ_of_lt shorter, overflows⟩⟩

end Run

end HalfDuplex
