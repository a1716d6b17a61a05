import HalfDuplex.Proofs.CutShort
import HalfDuplex.Proofs.Simulation

/-!
# Attempts that forget the past

`Sequencer.start` sets the counters of an attempt back.  The byte in flight, its mark, the
signals that are held and the trailer stay as an earlier attempt left them, half driven, jammed,
marked as broken, or of another frame.

Nothing of that comes to light, because each of them is overwritten before it is looked at.
`Sequencer.SameButStale` lets two sequencers differ in the ones that are not in use, and
`step_inStep` says that a tick shows the same and asks the source the same, and leaves the two
in that relation.  A stored trailer can stay a stranger for long: it is not replaced before the
frame and its padding are over.
-/

namespace HalfDuplex

namespace Sequencer

/-- The states that a sequencer can get into: attempts are begun at any time, and each tick
has its own source, time and collision input. -/
inductive Reachable (fresh : Sequencer) : Sequencer → Prop
  | fresh : Reachable fresh fresh
  | starts {sequencer : Sequencer}
      (reached : Reachable fresh sequencer) :
      Reachable fresh sequencer.start
  | steps {σ : Type} [ByteSource σ] {now : Tick} {collision : Bool}
      {sequencer next : Sequencer} {source after : σ} {step : SequencerStep}
      (reached : Reachable fresh sequencer)
      (stepped : (sequencer.step now collision source).value = .ok (next, after, step)) :
      Reachable fresh next

variable {fresh sequencer : Sequencer}

/-- Nothing that a sequencer does changes its plan. -/
theorem Reachable.plan (reached : fresh.Reachable sequencer) :
    sequencer.plan = fresh.plan := by
  induction reached with
  | fresh => rfl
  | starts reached inductionHypothesis => exact inductionHypothesis
  | steps reached stepped inductionHypothesis =>
      obtain ⟨moves, _⟩ := step_yields (Traced.yields_of_value stepped)
      exact moves.plan.trans inductionHypothesis

/-! ## What an attempt leaves behind -/

/-- The two are the same but for what is overwritten before it is looked at: the byte in flight
and its mark once both nibbles are driven, the signals once the next nibble is due, and the
trailer before its first byte is due.  In a jam the mark is looked at as well. -/
inductive SameButStale (sequencer : Sequencer) : Sequencer → Prop
  | intro {byte : UInt8} {error : Bool} {held : Signals}
      {trailer : Vector UInt8 Checksum.trailerLength}
      (byteInUse : sequencer.highNext = true → byte = sequencer.byte)
      (errorInUse : sequencer.highNext = true ∨ (∃ remaining, sequencer.stage = .jam remaining) →
        error = sequencer.error)
      (heldInUse : sequencer.elapsed % sequencer.plan.nibbleTicks ≠ 0 → held = sequencer.held)
      (trailerInUse : sequencer.stage = .trailer → sequencer.position ≠ 0 →
        trailer = sequencer.trailer) :
      SameButStale sequencer { sequencer with byte, error, held, trailer }

/-- The two drive the same nibble, and are the same afterwards but for what is overwritten
before it is looked at.  Of a jam the byte in flight is no part. -/
inductive Primed (sequencer : Sequencer) : Sequencer → Prop
  | intro {byte : UInt8} {held : Signals} {trailer : Vector UInt8 Checksum.trailerLength}
      (byteInUse : byte = sequencer.byte ∨
        sequencer.highNext = false ∧ ∃ remaining, sequencer.stage = .jam remaining)
      (trailerInUse : sequencer.stage = .trailer → sequencer.position ≠ 0 →
        trailer = sequencer.trailer) :
      Primed sequencer { sequencer with byte, held, trailer }

variable {sequencer other : Sequencer}

/-- The beginning of an attempt leaves nothing in use. -/
theorem start_sameButStale (samePlan : other.plan = sequencer.plan) :
    sequencer.start.SameButStale other.start := by
  have begun : other.start = { sequencer.start with
      byte := other.byte
      error := other.error
      held := other.held
      trailer := other.trailer } := by
    rw [start, samePlan]
    rfl
  rw [begun]
  exact .intro nofun (by simp [start]) (fun between => absurd (Nat.zero_mod _) between) nofun

namespace SameButStale

theorem symm (same : sequencer.SameButStale other) : other.SameButStale sequencer := by
  cases same with
  | intro byteInUse errorInUse heldInUse trailerInUse =>
      exact .intro (fun high => (byteInUse high).symm) (fun looked => (errorInUse looked).symm)
        (fun between => (heldInUse between).symm)
        (fun stage begun => (trailerInUse stage begun).symm)

theorem stage (same : sequencer.SameButStale other) : other.stage = sequencer.stage := by
  cases same
  rfl

theorem length (same : sequencer.SameButStale other) : other.length = sequencer.length := by
  cases same
  rfl

/-- Between the nibbles of a byte all of it is in use. -/
theorem primed (high : sequencer.highNext = true) (same : sequencer.SameButStale other) :
    sequencer.Primed other := by
  cases same with
  | intro byteInUse errorInUse heldInUse trailerInUse =>
      rw [errorInUse (.inl high)]
      exact .intro (.inl (byteInUse high)) trailerInUse

end SameButStale

/-- What two sequencers leave, with the same of everything else. -/
def InStep {α : Type} (left right : Sequencer × α) : Prop :=
  left.1.SameButStale right.1 ∧ right.2 = left.2

theorem sample_inStep {collision clockEnable : Bool}
    (same : sequencer.SameButStale other)
    (held : other.held = sequencer.held) :
    Shadows InStep (sequencer.sample collision clockEnable).value
      (other.sample collision clockEnable).value := by
  cases same with
  | intro byteInUse errorInUse heldInUse trailerInUse =>
      cases held
      unfold sample
      dsimp only
      split
      · exact .recorded (.value ⟨.intro byteInUse errorInUse heldInUse trailerInUse, rfl⟩)
      · exact .value ⟨.intro byteInUse errorInUse heldInUse trailerInUse, rfl⟩

theorem hold_inStep (collision : Bool)
    (between : sequencer.elapsed % sequencer.plan.nibbleTicks ≠ 0)
    (same : sequencer.SameButStale other) :
    Shadows InStep (sequencer.hold collision).value (other.hold collision).value := by
  cases same with
  | intro byteInUse errorInUse heldInUse trailerInUse =>
      refine Shadows.bind (Shadows.refl _) ?_
      rintro elapsed _ - rfl
      exact sample_inStep (.intro byteInUse errorInUse (fun _ => heldInUse between) trailerInUse)
        (heldInUse between)

namespace Primed

theorem dueSignals (primed : sequencer.Primed other) :
    other.dueSignals = sequencer.dueSignals := by
  cases primed with
  | intro byteInUse trailerInUse =>
      rcases byteInUse with rfl | ⟨_, remaining, stage⟩
      · rfl
      · simp only [Sequencer.dueSignals, dueNibble, stage]

theorem advance (primed : sequencer.Primed other) :
    Shadows Primed sequencer.advance other.advance := by
  cases primed with
  | intro byteInUse trailerInUse =>
      unfold Sequencer.advance
      dsimp only
      split
      · refine Shadows.chain (Shadows.refl _) ?_
        rintro remaining _ - rfl
        exact .value (.intro (byteInUse.imp_right fun jam => ⟨jam.1, remaining, rfl⟩) nofun)
      · rename_i notJam
        exact .value (.intro (.inl (byteInUse.resolve_right
          fun ⟨_, remaining, stage⟩ => notJam remaining stage)) trailerInUse)

/-- The signals that are held now are the ones that were due. -/
theorem sameButStale {held : Signals} {nibbles elapsed : Nat} (primed : sequencer.Primed other) :
    SameButStale { sequencer with held, nibbles, elapsed }
      { other with held, nibbles, elapsed } := by
  cases primed with
  | intro byteInUse trailerInUse =>
      refine .intro (fun high => ?_) (fun _ => rfl) (fun _ => rfl) trailerInUse
      exact byteInUse.resolve_right fun jam => Bool.false_ne_true (jam.1.symm.trans high)

end Primed

theorem present_inStep (collision : Bool) (primed : sequencer.Primed other) :
    Shadows InStep (sequencer.present collision).value (other.present collision).value := by
  unfold present
  rw [primed.dueSignals]
  refine Shadows.bind primed.advance ?_
  rintro advanced otherAdvanced - primedThen
  have counts : otherAdvanced.nibbles = advanced.nibbles ∧
      otherAdvanced.elapsed = advanced.elapsed := by
    cases primedThen
    exact ⟨rfl, rfl⟩
  rw [counts.1, counts.2]
  refine Shadows.bind (Shadows.refl _) ?_
  rintro nibbles _ - rfl
  refine Shadows.bind (Shadows.refl _) ?_
  rintro elapsed _ - rfl
  exact sample_inStep primedThen.sameButStale rfl

/-! ### Byte boundaries -/

/-- What a byte boundary brings two sequencers: the same byte to drive, or the same ending. -/
inductive Brings {σ : Type} : Sequencer × σ × Option Ending → Sequencer × σ × Option Ending → Prop
  | goesOn {loaded other : Sequencer} {source : σ}
      (primed : loaded.Primed other) :
      Brings (loaded, source, none) (other, source, none)
  | ends {loaded other : Sequencer} {source : σ} {ending : Ending}
      (rests : loaded.rest.SameButStale other.rest) :
      Brings (loaded, source, some ending) (other, source, some ending)

/-- The byte that is taken up replaces the one in flight. -/
theorem takeUp_primed {stage : Stage} {octet : Octet}
    (untrailed : stage ≠ .trailer)
    (same : sequencer.SameButStale other) :
    Shadows Primed (sequencer.takeUp stage octet) (other.takeUp stage octet) := by
  cases same with
  | intro byteInUse errorInUse heldInUse trailerInUse =>
      refine Shadows.chain (Shadows.refl _) ?_
      rintro length _ - rfl
      exact .value (.intro (.inl rfl) fun trailed => absurd trailed untrailed)

namespace SameButStale

theorem rest
    (low : sequencer.highNext = false)
    (same : sequencer.SameButStale other) :
    sequencer.rest.SameButStale other.rest := by
  cases same with
  | intro byteInUse errorInUse heldInUse trailerInUse =>
      exact .intro byteInUse (by simp [Sequencer.rest, low]) (fun _ => rfl) nofun

theorem beginTrailer
    (low : sequencer.highNext = false)
    (same : sequencer.SameButStale other) :
    sequencer.beginTrailer.SameButStale other.beginTrailer := by
  cases same with
  | intro byteInUse errorInUse heldInUse trailerInUse =>
      exact .intro byteInUse (by simp [Sequencer.beginTrailer, low]) heldInUse
        fun _ begun => absurd rfl begun

/-- Until its first byte is due the trailer is that of the frame, and not the one stored. -/
theorem dueTrailer
    (stage : sequencer.stage = .trailer)
    (same : sequencer.SameButStale other) :
    other.dueTrailer = sequencer.dueTrailer := by
  cases same with
  | intro byteInUse errorInUse heldInUse trailerInUse =>
      unfold Sequencer.dueTrailer
      dsimp only
      split
      · rfl
      · rename_i begun
        exact trailerInUse stage begun

/-- Counting the bytes anew leaves nothing more in use. -/
theorem rewound
    (same : sequencer.SameButStale other) :
    SameButStale { sequencer with position := 0 } { other with position := 0 } := by
  cases same with
  | intro byteInUse errorInUse heldInUse trailerInUse =>
      exact .intro byteInUse errorInUse heldInUse fun _ begun => absurd rfl begun

theorem relieved
    (same : sequencer.SameButStale other) :
    sequencer.relieved.SameButStale other.relieved := by
  cases same with
  | intro byteInUse errorInUse heldInUse trailerInUse =>
      exact .intro byteInUse errorInUse heldInUse trailerInUse

end SameButStale

theorem takeUpMarker_primed (same : sequencer.SameButStale other) :
    sequencer.takeUpMarker.Primed other.takeUpMarker := by
  cases same with
  | intro => exact .intro (.inl rfl) nofun

section Source

variable {σ : Type} (source : σ)

theorem loadTrailer_brings
    (low : sequencer.highNext = false)
    (stage : sequencer.stage = .trailer)
    (same : sequencer.SameButStale other) :
    Brings (sequencer.loadTrailer.1, source, sequencer.loadTrailer.2)
      (other.loadTrailer.1, source, other.loadTrailer.2) := by
  have rests := same.rest low
  have due := same.dueTrailer stage
  cases same with
  | intro byteInUse errorInUse heldInUse trailerInUse =>
      unfold loadTrailer
      rw [due]
      dsimp only
      split
      · exact .goesOn (.intro (.inl rfl) fun _ _ => rfl)
      · exact .ends rests

theorem loadPad_brings
    (low : sequencer.highNext = false)
    (same : sequencer.SameButStale other) :
    Shadows (fun left right => Brings (left.1, source, left.2) (right.1, source, right.2))
      sequencer.loadPad other.loadPad := by
  have takes : Shadows Primed (sequencer.takeUp .pad (.byte 0)) (other.takeUp .pad (.byte 0)) :=
    takeUp_primed nofun same
  have begins : Brings
      (sequencer.beginTrailer.loadTrailer.1, source, sequencer.beginTrailer.loadTrailer.2)
      (other.beginTrailer.loadTrailer.1, source, other.beginTrailer.loadTrailer.2) :=
    loadTrailer_brings source low rfl (same.beginTrailer low)
  cases same with
  | intro byteInUse errorInUse heldInUse trailerInUse =>
      unfold loadPad
      dsimp only
      split
      · refine takes.chain ?_
        rintro padded other - primed
        exact .value (.goesOn primed)
      · exact .value begins

theorem beginJam_brings
    (low : sequencer.highNext = false)
    (same : sequencer.SameButStale other) :
    Shadows (fun left right => Brings (left.1, source, left.2) (right.1, source, right.2))
      sequencer.beginJam.value other.beginJam.value := by
  cases same with
  | intro byteInUse errorInUse heldInUse trailerInUse =>
      refine Shadows.bind (Shadows.refl _) ?_
      rintro owed _ - rfl
      refine Shadows.bind (Shadows.refl _) ?_
      rintro nibbles _ - rfl
      refine .recorded (.value ?_)
      dsimp only
      split
      · exact .ends (.intro byteInUse (by simp [Sequencer.rest, low]) (fun _ => rfl) nofun)
      · exact .goesOn (.intro (.inr ⟨low, nibbles, rfl⟩) nofun)

variable [ByteSource σ] (now : Tick)

theorem loadData_brings
    (low : sequencer.highNext = false)
    (same : sequencer.SameButStale other) :
    Shadows Brings (sequencer.loadData now source).value (other.loadData now source).value := by
  have takes (octet : Octet) :
      Shadows Primed (sequencer.takeUp .data octet) (other.takeUp .data octet) :=
    takeUp_primed nofun same
  refine Shadows.bind (Shadows.refl _) ?_
  rintro ⟨after, answer⟩ _ - rfl
  rcases answer with (octet | _ | _)
  · cases octet with
    | byte value =>
        refine Shadows.bind (takes (.byte value)) ?_
        rintro taken otherTaken - primed
        exact .value (.goesOn primed)
    | poisoned =>
        refine .recorded (Shadows.bind (takes .poisoned) ?_)
        rintro taken otherTaken - primed
        exact .value (.goesOn primed)
  · refine Shadows.bind (loadPad_brings after low same.rewound) ?_
    rintro ⟨loaded, ending⟩ ⟨otherLoaded, otherEnding⟩ - brings
    exact .value brings
  · exact .recorded (.value (.goesOn (takeUpMarker_primed same)))

theorem load_brings
    (active : sequencer.stage ≠ .idle)
    (low : sequencer.highNext = false)
    (same : sequencer.SameButStale other) :
    Shadows Brings (sequencer.load now source).value (other.load now source).value := by
  have data := loadData_brings source now low same
  have pads := loadPad_brings source low same
  have rests := same.rest low
  cases same with
  | @intro byte error held trailer byteInUse errorInUse heldInUse trailerInUse =>
      have same : sequencer.SameButStale { sequencer with byte, error, held, trailer } :=
        .intro byteInUse errorInUse heldInUse trailerInUse
      unfold load
      dsimp only
      split
      case h_1 idle => exact absurd idle active
      case h_2 preamble =>
        split
        · exact .value (.goesOn (.intro (.inl rfl) fun trailed => by
            cases preamble.symm.trans trailed))
        · exact data
      case h_3 => exact data
      case h_4 =>
        refine Shadows.bind pads ?_
        rintro ⟨loaded, ending⟩ ⟨otherLoaded, otherEnding⟩ - brings
        exact .value brings
      case h_5 stage => exact .value (loadTrailer_brings source low stage same)
      case h_6 => exact .value (.ends rests)
      case h_7 remaining jam =>
        -- A jam looks at the mark, which is the same in both, and at no byte.
        rw [errorInUse (.inr ⟨remaining, jam⟩)] at rests ⊢
        split
        · exact .value (.ends rests)
        · exact .value (.goesOn (.intro (.inr ⟨low, remaining, jam⟩) trailerInUse))

theorem abandon_brings
    (low : sequencer.highNext = false)
    (same : sequencer.SameButStale other) :
    Shadows Brings (sequencer.abandon now source).value (other.abandon now source).value := by
  have jams (after : σ) :
      Shadows (fun left right => Brings (left.1, after, left.2) (right.1, after, right.2))
        sequencer.relieved.beginJam.value other.relieved.beginJam.value :=
    beginJam_brings after low same.relieved
  have marks := takeUpMarker_primed same.relieved
  cases same with
  | intro byteInUse errorInUse heldInUse trailerInUse =>
      unfold abandon
      dsimp only
      split
      · refine Shadows.bind (Shadows.refl _) ?_
        rintro ⟨after, answer⟩ _ - rfl
        dsimp only
        split
        · exact .recorded (.value (.goesOn marks))
        · refine Shadows.bind (jams after) ?_
          rintro ⟨jam, ending⟩ ⟨otherJam, otherEnding⟩ - brings
          exact .value brings
      · refine Shadows.bind (jams source) ?_
        rintro ⟨jam, ending⟩ ⟨otherJam, otherEnding⟩ - brings
        exact .value brings

theorem boundary_brings
    (active : sequencer.stage ≠ .idle)
    (low : sequencer.highNext = false)
    (same : sequencer.SameButStale other) :
    Shadows Brings (sequencer.boundary now source).value (other.boundary now source).value := by
  have abandons := abandon_brings source now low same
  have loads := load_brings source now active low same
  cases same with
  | intro =>
      unfold boundary
      dsimp only
      split
      · exact abandons
      · exact loads

theorem stepBoundary_inStep (collision : Bool)
    (active : sequencer.stage ≠ .idle)
    (low : sequencer.highNext = false)
    (same : sequencer.SameButStale other) :
    Shadows InStep (sequencer.stepBoundary now collision source).value
      (other.stepBoundary now collision source).value := by
  refine Shadows.bind (boundary_brings source now active low same) ?_
  rintro _ _ - brings
  cases brings with
  | goesOn primed =>
      refine Shadows.bind (present_inStep collision primed) ?_
      rintro ⟨driven, shown⟩ ⟨otherDriven, _⟩ - ⟨sameThen, rfl⟩
      exact .value ⟨sameThen, rfl⟩
  | ends rests => exact .recorded (.value ⟨rests, rfl⟩)

/-- A tick shows the same, and asks the source the same, whatever is stale. -/
theorem step_inStep (collision : Bool) (same : sequencer.SameButStale other) :
    Shadows InStep (sequencer.step now collision source).value
      (other.step now collision source).value := by
  have boundary (active : sequencer.stage ≠ .idle) (low : sequencer.highNext = false) :=
    stepBoundary_inStep source now collision active low same
  have holds (between : sequencer.elapsed % sequencer.plan.nibbleTicks ≠ 0) :=
    hold_inStep collision between same
  have presents (high : sequencer.highNext = true) :=
    present_inStep collision (same.primed high)
  cases same with
  | intro byteInUse errorInUse heldInUse trailerInUse =>
      unfold Sequencer.step
      dsimp only
      split
      · exact .value ⟨.intro byteInUse errorInUse heldInUse trailerInUse, rfl⟩
      · rename_i active
        refine Shadows.bind (Shadows.refl _) ?_
        rintro phase _ computed rfl
        split
        · rename_i between
          obtain ⟨_, rfl⟩ := checkedMod_eq_ok_iff.mp computed
          refine Shadows.bind (holds between) ?_
          rintro ⟨held, shown⟩ ⟨otherHeld, _⟩ - ⟨sameThen, rfl⟩
          exact .value ⟨sameThen, rfl⟩
        · split
          · rename_i high
            refine Shadows.bind (presents high) ?_
            rintro ⟨driven, shown⟩ ⟨otherDriven, _⟩ - ⟨sameThen, rfl⟩
            exact .value ⟨sameThen, rfl⟩
          · rename_i low
            exact boundary active (by simpa using low)

end Source

theorem value_step_map {σ τ : Type} [ByteSource σ] [ByteSource τ] (f : PullMap σ τ) (now : Tick)
    (collision : Bool) (source : σ) :
    (sequencer.step now collision (f.apply source)).value =
      (sequencer.step now collision source).value.map (along f) := by
  rw [step_map, ← bind_pure_comp, Traced.value_bind]
  cases (sequencer.step now collision source).value <;> rfl

end Sequencer

namespace Trial

variable {σ τ : Type}

/-- The same attempt with another sequencer. -/
def taking (trial : Trial σ) (sequencer : Sequencer) : Trial σ :=
  { trial with sequencer }

/-- The same attempt with another source. -/
def mapSource (trial : Trial σ) (change : σ → τ) : Trial τ :=
  { trial with source := change trial.source }

variable [ByteSource σ]

/-- The stage of the sequencer and the length that it counted, before a tick. -/
def stands (trial : Trial σ) (tick : Nat) : Except Fault (Stage × Nat) :=
  (trial.entering tick).map fun (sequencer, _) => (sequencer.stage, sequencer.length)

/-- What the source was asked before a tick: on each pull the source and its answer. -/
def pulls (trial : Trial σ) (tick : Nat) : Except Fault (List (σ × Pull)) :=
  ((trial.mapSource Watched.watch).entering tick).map fun (_, watched) => watched.asked

theorem entering_map [ByteSource τ] (f : PullMap σ τ) (trial : Trial σ) (tick : Nat) :
    (trial.mapSource f.apply).entering tick =
      (trial.entering tick).map fun (sequencer, source) => (sequencer, f.apply source) := by
  induction tick with
  | zero => rfl
  | succ tick inductionHypothesis =>
      rw [entering, entering, inductionHypothesis]
      cases trial.entering tick with
      | error fault => rfl
      | ok standing =>
          show Except.map _ (standing.1.step (trial.reading tick) (trial.collision tick)
              (f.apply standing.2)).value = _
          rw [Sequencer.value_step_map]
          show _ = Except.map _ (Except.map _ (standing.1.step (trial.reading tick)
            (trial.collision tick) standing.2).value)
          cases (standing.1.step (trial.reading tick) (trial.collision tick) standing.2).value <;>
            rfl

/-- An attempt goes the same way whether or not its source is watched. -/
theorem entering_watched (trial : Trial σ) (tick : Nat) :
    trial.entering tick =
      ((trial.mapSource Watched.watch).entering tick).map
        fun (sequencer, watched) => (sequencer, watched.source) :=
  entering_map Watched.forget.toPullMap (trial.mapSource Watched.watch) tick

variable {trial : Trial σ} {fresh past sequencer : Sequencer} {source : σ} {tick : Nat}

theorem exists_step_of_entering {next : Sequencer} {after : σ}
    (enters : trial.entering (tick + 1) = .ok (next, after)) :
    ∃ sequencer source step, trial.entering tick = .ok (sequencer, source) ∧
      (sequencer.step (trial.reading tick) (trial.collision tick) source).value =
        .ok (next, after, step) := by
  rw [entering] at enters
  cases before : trial.entering tick with
  | error fault =>
      rw [before] at enters
      cases enters
  | ok standing =>
      rw [before] at enters
      replace enters : Except.map _ (standing.1.step (trial.reading tick)
        (trial.collision tick) standing.2).value = _ := enters
      cases stepped : (standing.1.step (trial.reading tick) (trial.collision tick)
          standing.2).value with
      | error fault =>
          rw [stepped] at enters
          cases enters
      | ok left =>
          rw [stepped] at enters
          cases enters
          exact ⟨standing.1, standing.2, left.2.2, rfl, stepped⟩

/-- Whatever state an attempt gets into can be reached. -/
theorem reachable_of_entering
    (reached : fresh.Reachable trial.sequencer)
    (enters : trial.entering tick = .ok (sequencer, source)) :
    fresh.Reachable sequencer := by
  induction tick generalizing sequencer source with
  | zero =>
      cases enters
      exact .starts reached
  | succ tick inductionHypothesis =>
      obtain ⟨earlier, asked, step, before, stepped⟩ := exists_step_of_entering enters
      exact .steps (inductionHypothesis before) stepped

/-- Attempts of one plan stay in step, whatever their sequencers did before. -/
theorem entering_inStep {left right : Sequencer}
    (samePlan : right.plan = left.plan)
    (trial : Trial σ) (tick : Nat) :
    Shadows Sequencer.InStep ((trial.taking left).entering tick)
      ((trial.taking right).entering tick) := by
  induction tick with
  | zero => exact .value ⟨Sequencer.start_sameButStale samePlan, rfl⟩
  | succ tick inductionHypothesis =>
      refine inductionHypothesis.chain ?_
      rintro ⟨sequencer, _⟩ ⟨other, source⟩ - ⟨same, rfl⟩
      refine (Sequencer.step_inStep source (trial.reading tick) (trial.collision tick) same).map ?_
      rintro ⟨next, after, step⟩ ⟨otherNext, _, _⟩ ⟨sameThen, equal⟩
      cases equal
      exact ⟨sameThen, rfl⟩

theorem shows_inStep {left right : Sequencer}
    (samePlan : right.plan = left.plan)
    (trial : Trial σ) (tick : Nat) :
    Shadows Eq ((trial.taking left).shows tick) ((trial.taking right).shows tick) := by
  refine (entering_inStep samePlan trial tick).chain ?_
  rintro ⟨sequencer, _⟩ ⟨other, source⟩ - ⟨same, rfl⟩
  refine (Sequencer.step_inStep source (trial.reading tick) (trial.collision tick) same).map ?_
  rintro ⟨next, after, step⟩ ⟨otherNext, _, _⟩ ⟨sameThen, equal⟩
  cases equal
  rfl

theorem pulls_inStep {left right : Sequencer}
    (samePlan : right.plan = left.plan)
    (trial : Trial σ) (tick : Nat) :
    Shadows Eq ((trial.taking left).pulls tick) ((trial.taking right).pulls tick) :=
  (entering_inStep samePlan (trial.mapSource Watched.watch) tick).map
    fun _ _ inStep => congrArg Watched.asked inStep.2.symm

theorem stands_inStep {left right : Sequencer}
    (samePlan : right.plan = left.plan)
    (trial : Trial σ) (tick : Nat) :
    Shadows Eq ((trial.taking left).stands tick) ((trial.taking right).stands tick) :=
  (entering_inStep samePlan trial tick).map
    fun _ _ inStep => Prod.ext inStep.1.stage.symm inStep.1.length.symm

/-- An attempt does not depend on what its sequencer did before: what it shows on each tick,
when and with which answers it asks its source, and the stage and length on the way are those of
the sequencer as it was set up.  That holds for faults as well. -/
theorem forgets_past
    (reached : fresh.Reachable past)
    (trial : Trial σ) (tick : Nat) :
    (trial.taking past).shows tick = (trial.taking fresh).shows tick ∧
      (trial.taking past).pulls tick = (trial.taking fresh).pulls tick ∧
        (trial.taking past).stands tick = (trial.taking fresh).stands tick := by
  have plan := reached.plan
  exact ⟨(shows_inStep plan.symm trial tick).antisymm (shows_inStep plan trial tick),
    (pulls_inStep plan.symm trial tick).antisymm (pulls_inStep plan trial tick),
    (stands_inStep plan.symm trial tick).antisymm (stands_inStep plan trial tick)⟩

/-- An attempt on a frame of one octet, under the timing of `stalling`. -/
def sending (octet : UInt8) : Trial ScriptedSource :=
  { stalling 0 with
    source := { frames := [{ entries := [.octet (.byte octet)] }] }
    collision := fun _ => false }

/-- A frame is sent, and the attempt after it is broken off half a byte into the error marker.
The next one begins with a clean nibble of the preamble, asks its source for the one octet and
once more, and sends the checksum of that octet, with another trailer still stored. -/
theorem forgets_broken_attempt :
    ∃ sent past emptied asked, (sending 0x42).entering 15 = .ok (sent, emptied) ∧
      ((stalling 5).taking sent).entering 7 = .ok (past, asked) ∧
      past.stage = .underflow ∧ past.highNext = true ∧ past.held.error = true ∧
        past.trailer = #v[0x31, 0xCF, 0xD0, 0x4A] ∧
      ((sending 0x17).taking past).shows 0 =
          .ok { signals := { clockEnable := true, enable := true, data := 0x5 } } ∧
        ((sending 0x17).taking past).shows 6 =
          .ok { signals := { clockEnable := true, enable := true, data := 0xA } } ∧
        (((sending 0x17).taking past).pulls 7).map (List.map Prod.snd) =
          .ok [.octet (.byte 0x17), .finished] ∧
        ((sending 0x17).taking past).stands 7 = .ok (.trailer, 1) := by
  obtain ⟨sent, emptied, sends⟩ :
      ∃ sent emptied, (sending 0x42).entering 15 = .ok (sent, emptied) := ⟨_, _, rfl⟩
  obtain ⟨past, asked, enters, stage, high, error, stored⟩ :
      ∃ past asked, ((stalling 5).taking sent).entering 7 = .ok (past, asked) ∧
        past.stage = .underflow ∧ past.highNext = true ∧ past.held.error = true ∧
        past.trailer = #v[0x31, 0xCF, 0xD0, 0x4A] := by
    cases sends
    exact ⟨_, _, rfl, rfl, rfl, rfl, rfl⟩
  have reachedSent : (sending 0x42).sequencer.Reachable sent :=
    reachable_of_entering .fresh sends
  have reached : (sending 0x42).sequencer.Reachable past :=
    reachable_of_entering reachedSent enters
  have same := forgets_past reached (sending 0x17)
  refine ⟨sent, past, emptied, asked, sends, enters, stage, high, error, stored,
    (same 0).1, (same 6).1.trans rfl, ?_, (same 7).2.2⟩
  rw [(same 7).2.1]
  rfl

end Trial

end HalfDuplex
