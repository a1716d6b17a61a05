import HalfDuplex.Proofs.Delivery

/-!
# The pace of an attempt

An attempt drives one nibble after the other without a pause, so the ticks that it has
taken and the nibbles that it has driven tell the same.  `Sequencer.Beats` counts the
bytes that it has begun, and it counts them from the first nibble of the preamble to the
last nibble of a jam: a jam is as long as the plan says, and longer by what was left of
the preamble when it began.

Nothing here depends on the octets of a frame, on the source that supplies them, or on
the readings of the timer.
-/

namespace HalfDuplex

namespace Sequencer

/-- How many bytes an attempt has begun that nothing stopped, as its stage tells. -/
inductive Placed (sequencer : Sequencer) : Nat → Prop
  | preamble
      (stage : sequencer.stage = .preamble)
      (within : sequencer.position ≤ sequencer.plan.preambleBytes)
      (blank : sequencer.length = 0) :
      Placed sequencer sequencer.position
  | data
      (stage : sequencer.stage = .data) :
      Placed sequencer (sequencer.plan.preambleBytes + sequencer.length)
  | pad
      (stage : sequencer.stage = .pad)
      (within : sequencer.length ≤ sequencer.plan.minFrame) :
      Placed sequencer (sequencer.plan.preambleBytes + sequencer.length)
  | trailer
      (stage : sequencer.stage = .trailer)
      (within : sequencer.position ≤ Checksum.trailerLength) :
      Placed sequencer
        (sequencer.plan.preambleBytes + sequencer.length + sequencer.position)

/-- The nibbles of a jam that begins after so many bytes of an attempt, with those of the
preamble that are owed. -/
def jamLength (sequencer : Sequencer) (begun : Nat) : Nat :=
  sequencer.plan.jamNibbles + 2 * (sequencer.plan.preambleBytes - begun)

/-- An attempt keeps its pace.  It is in the last of the bytes that it has begun, in the
marker that follows them, or in the jam. -/
inductive Beats (sequencer : Sequencer) (begun : Nat) : Prop
  | writes
      (placed : sequencer.Placed begun)
      (paced : sequencer.Paced begun)
  | marks
      (stage : sequencer.stage = .underflow)
      (place : begun = sequencer.plan.preambleBytes + sequencer.length)
      (paced : sequencer.Paced (begun + 1))
  | jams {remaining driven : Nat}
      (stage : sequencer.stage = .jam remaining)
      (low : sequencer.highNext = false)
      (within : begun ≤
        sequencer.plan.preambleBytes + sequencer.length + Checksum.trailerLength)
      (nibbles : sequencer.nibbles = 2 * begun + driven)
      (total : driven + remaining = sequencer.jamLength begun)
      (timed : sequencer.Timed)

variable {sequencer next loaded : Sequencer} {begun : Nat}

/-- After the preamble nothing of it is owed. -/
theorem preambleOwed_of_opened
    (opened : sequencer.stage ≠ .preamble)
    (spent : sequencer.plan.preambleBytes ≤ begun) :
    sequencer.preambleOwed = .ok (2 * (sequencer.plan.preambleBytes - begun)) := by
  rw [Nat.sub_eq_zero_of_le spent, preambleOwed]
  split
  · rename_i stage
    exact absurd stage opened
  · rfl

namespace Placed

theorem abortable (placed : sequencer.Placed begun) : sequencer.stage.abortable = true := by
  cases placed with
  | preamble stage | data stage | pad stage | trailer stage => simp [stage, Stage.abortable]

theorem of_preamble
    (stage : sequencer.stage = .preamble)
    (placed : sequencer.Placed begun) :
    begun = sequencer.position ∧ sequencer.position ≤ sequencer.plan.preambleBytes ∧
      sequencer.length = 0 := by
  cases placed with
  | preamble other within blank => exact ⟨rfl, within, blank⟩
  | data other | pad other | trailer other => cases stage.symm.trans other

theorem of_trailer
    (stage : sequencer.stage = .trailer)
    (placed : sequencer.Placed begun) :
    begun = sequencer.plan.preambleBytes + sequencer.length + sequencer.position := by
  cases placed with
  | preamble other | data other | pad other => cases stage.symm.trans other
  | trailer => rfl

theorem of_pulling
    (pulling : sequencer.Pulling)
    (placed : sequencer.Placed begun) :
    begun = sequencer.plan.preambleBytes + sequencer.length := by
  rcases pulling with data | ⟨preamble, complete⟩
  · cases placed with
    | data => rfl
    | preamble other | pad other | trailer other => cases data.symm.trans other
  · obtain ⟨rfl, within, blank⟩ := placed.of_preamble preamble
    rw [blank]
    exact Nat.le_antisymm within complete

theorem of_exhausted {σ : Type} [ByteSource σ] {now : Tick} {source after : σ}
    {position : Nat}
    (exhausted : Exhausted now sequencer source position after)
    (placed : sequencer.Placed begun) :
    begun = sequencer.plan.preambleBytes + sequencer.length := by
  cases exhausted with
  | finished pulling pulled => exact placed.of_pulling pulling
  | padding stage =>
      cases placed with
      | pad => rfl
      | preamble other | data other | trailer other => cases stage.symm.trans other

theorem le_trailer (placed : sequencer.Placed begun) :
    begun ≤ sequencer.plan.preambleBytes + sequencer.length + Checksum.trailerLength := by
  cases placed with
  | preamble stage within => omega
  | data stage => omega
  | pad stage => omega
  | trailer stage within => omega

/-- At a byte boundary the preamble is owed as far as it was not driven. -/
theorem preambleOwed_eq
    (whole : sequencer.plan.preambleNibbles = 2 * sequencer.plan.preambleBytes)
    (nibbles : sequencer.nibbles = 2 * begun)
    (placed : sequencer.Placed begun) :
    sequencer.preambleOwed = .ok (2 * (sequencer.plan.preambleBytes - begun)) := by
  cases placed with
  | preamble stage within =>
      rw [preambleOwed, stage]
      simp only [checkedSub_eq_ok_iff]
      omega
  | data stage => exact preambleOwed_of_opened (by simp [stage]) (Nat.le_add_right _ _)
  | pad stage => exact preambleOwed_of_opened (by simp [stage]) (Nat.le_add_right _ _)
  | trailer stage => exact preambleOwed_of_opened (by simp [stage]) (by omega)

theorem keep
    (placed : sequencer.Placed begun)
    (level : sequencer.Level next) :
    next.Placed begun := by
  obtain ⟨stage, plan, position, length, _, _⟩ := level
  cases placed with
  | preamble begunStage within blank =>
      rw [← position]
      exact .preamble (stage.trans begunStage) (by rw [plan, position]; exact within)
        (length.trans blank)
  | data current =>
      rw [← plan, ← length]
      exact .data (stage.trans current)
  | pad current within =>
      rw [← plan, ← length]
      exact .pad (stage.trans current) (by rw [plan, length]; exact within)
  | trailer current within =>
      rw [← plan, ← length, ← position]
      exact .trailer (stage.trans current) (position ▸ within)

end Placed

variable {σ : Type} [ByteSource σ] {now : Tick} {collision : Bool} {source after : σ}
  {step : SequencerStep}

/-- Where a byte boundary takes an attempt that nothing stopped. -/
inductive Reaches (sequencer loaded : Sequencer) (begun : Nat) : Option Ending → Prop
  | byte
      (placed : loaded.Placed (begun + 1))
      (calm : sequencer.aborting = false)
      (calmThen : loaded.aborting = false) :
      Reaches sequencer loaded begun none
  | marker
      (stage : loaded.stage = .underflow)
      (length : loaded.length = sequencer.length)
      (place : begun = sequencer.plan.preambleBytes + sequencer.length) :
      Reaches sequencer loaded begun none
  | jam {owed nibbles : Nat} {ending : Option Ending}
      (stage : loaded.stage = .jam nibbles)
      (length : loaded.length = sequencer.length)
      (aborting : sequencer.aborting = true)
      (owes : sequencer.preambleOwed = .ok owed)
      (total : sequencer.plan.jamNibbles + owed = nibbles)
      (ends : ending = if nibbles = 0 then some .jammed else none) :
      Reaches sequencer loaded begun ending
  | sent
      (complete : sequencer.plan.preambleBytes + sequencer.length + Checksum.trailerLength ≤
        begun) :
      Reaches sequencer loaded begun (some .sent)

theorem Placed.boundary {ending : Option Ending}
    (boundary : Boundary now sequencer source loaded after ending)
    (placed : sequencer.Placed begun) :
    Reaches sequencer loaded begun ending := by
  have abortable := placed.abortable
  cases boundary with
  | preamble stage missing calm =>
      obtain ⟨rfl, _, blank⟩ := placed.of_preamble stage
      exact .byte (.preamble stage missing blank) calm calm
  | octet pulling pulled calm =>
      rw [placed.of_pulling pulling]
      exact .byte (.data rfl) calm calm
  | starved pulling pulled calm => exact .marker rfl rfl (placed.of_pulling pulling)
  | pad exhausted short calm =>
      rw [placed.of_exhausted exhausted]
      exact .byte (.pad rfl short) calm calm
  | firstCheck exhausted full place calm =>
      rw [placed.of_exhausted exhausted]
      exact .byte (.trailer rfl Checksum.trailerLength_pos) calm calm
  | check stage place calm =>
      obtain ⟨inside, _⟩ := Vector.getElem?_eq_some_iff.mp place
      rw [placed.of_trailer stage]
      exact .byte (.trailer stage inside) calm calm
  | sent stage complete calm =>
      rw [placed.of_trailer stage]
      exact .sent (Nat.add_le_add_left complete _)
  | marked stage => simp [stage, Stage.abortable] at abortable
  | jamming stage => simp [stage, Stage.abortable] at abortable
  | jamOver stage => simp [stage, Stage.abortable] at abortable
  | abandoned aborting abortable discards owes total ends =>
      exact .jam rfl rfl aborting owes total ends
  | abandonedStarved aborting stage pulled =>
      exact .marker rfl rfl (placed.of_pulling (.inl stage))

/-- How a tick goes on with an attempt that keeps its pace. -/
inductive KeepsPace (sequencer next : Sequencer) (begun : Nat) (step : SequencerStep) : Prop
  | goesOn {more : Nat}
      (beats : next.Beats more)
      (unended : step.ending = none)
      (kept : sequencer.Struck → more = begun)
  | ends {ending : Ending}
      (ended : step.ending = some ending)
      (lasted : ending = .jammed →
        sequencer.elapsed =
          (2 * begun + sequencer.jamLength begun) * sequencer.plan.nibbleTicks)

theorem Beats.active (beats : sequencer.Beats begun) : sequencer.stage ≠ .idle := by
  intro idle
  cases beats with
  | writes placed =>
      have abortable := placed.abortable
      simp [idle, Stage.abortable] at abortable
  | marks stage => cases idle.symm.trans stage
  | jams stage => cases idle.symm.trans stage

theorem Beats.timed (beats : sequencer.Beats begun) : sequencer.Timed := by
  cases beats with
  | writes placed paced => exact paced.timed
  | marks stage place paced => exact paced.timed
  | jams stage low within nibbles total timed => exact timed

theorem Beats.holding
    (between : sequencer.elapsed % sequencer.plan.nibbleTicks ≠ 0)
    (beats : sequencer.Beats begun) :
    (sequencer.holding.sampled collision).Beats begun := by
  cases beats with
  | writes placed paced =>
      exact .writes (placed.keep (sequencer.level_holding collision)) (paced.holding between)
  | marks stage place paced => exact .marks stage place (paced.holding between)
  | jams stage low within nibbles total timed =>
      exact .jams stage low within nibbles total (timed.holding between)

/-- The second nibble of a byte ends it. -/
theorem Beats.continuing
    (positive : 0 < sequencer.plan.nibbleTicks)
    (due : sequencer.elapsed % sequencer.plan.nibbleTicks = 0)
    (high : sequencer.highNext = true)
    (beats : sequencer.Beats begun) :
    (sequencer.driving.sampled collision).Beats begun := by
  cases beats with
  | writes placed paced =>
      have unjammed := abortable_unjammed placed.abortable
      exact .writes (placed.keep (level_driving _ unjammed))
        (paced.continues positive due high unjammed)
  | marks stage place paced =>
      have unjammed : ∀ remaining, sequencer.stage ≠ .jam remaining := by simp [stage]
      exact .marks ((driving_stage unjammed).trans stage) place
        (paced.continues positive due high unjammed)
  | jams stage low => cases high.symm.trans low

/-- A nibble of the jam. -/
theorem jam_beats {remaining driven : Nat}
    (positive : 0 < loaded.plan.nibbleTicks)
    (due : loaded.elapsed % loaded.plan.nibbleTicks = 0)
    (stage : loaded.stage = .jam (remaining + 1))
    (low : loaded.highNext = false)
    (within : begun ≤ loaded.plan.preambleBytes + loaded.length + Checksum.trailerLength)
    (nibbles : loaded.nibbles = 2 * begun + driven)
    (total : driven + (remaining + 1) = loaded.jamLength begun)
    (timed : loaded.Timed) :
    (loaded.driving.sampled collision).Beats begun := by
  have stageNext : (loaded.driving.sampled collision).stage = .jam remaining := by
    show loaded.nextStage = .jam remaining
    rw [nextStage, stage]
    rfl
  have lowNext : (loaded.driving.sampled collision).highNext = false := by
    show loaded.nextHigh = false
    rw [nextHigh, stage, low]
  have nibblesNext : (loaded.driving.sampled collision).nibbles = 2 * begun + (driven + 1) := by
    show loaded.nibbles + 1 = 2 * begun + (driven + 1)
    rw [nibbles, Nat.add_assoc]
  refine .jams stageNext lowNext within nibblesNext ?_ (timed.driving positive due)
  show driven + 1 + remaining = loaded.jamLength begun
  omega

/-- No collision is pending at a boundary that begins another byte. -/
theorem Placed.not_struck
    (calm : sequencer.aborting = false)
    (placed : sequencer.Placed begun) :
    ¬ sequencer.Struck := by
  intro struck
  cases struck with
  | pending aborting => cases calm.symm.trans aborting
  | jam stage => exact abortable_unjammed placed.abortable _ stage
  | marker stage =>
      have abortable := placed.abortable
      rw [stage] at abortable
      cases abortable

/-- A boundary at the end of a byte begins another byte, the marker or the jam. -/
theorem Placed.beginning
    (whole : sequencer.plan.preambleNibbles = 2 * sequencer.plan.preambleBytes)
    (positive : 0 < sequencer.plan.nibbleTicks)
    (due : sequencer.elapsed % sequencer.plan.nibbleTicks = 0)
    (low : sequencer.highNext = false)
    (boundary : Boundary now sequencer source loaded after none)
    (notOver : loaded.stage ≠ .jam 0)
    (placed : sequencer.Placed begun)
    (paced : sequencer.Paced begun) :
    ∃ more, (loaded.driving.sampled collision).Beats more ∧
      (sequencer.Struck → more = begun) := by
  obtain ⟨plan, highEqual, elapsed, _⟩ := boundary.counters
  have positiveThen : 0 < loaded.plan.nibbleTicks := plan ▸ positive
  have lowThen : loaded.highNext = false := highEqual.trans low
  have dueThen : loaded.elapsed % loaded.plan.nibbleTicks = 0 := by
    rw [elapsed, plan]
    exact due
  have pacedThen : loaded.Paced begun := boundary.paced paced
  cases placed.boundary boundary with
  | byte placedThen calm =>
      have unjammed := abortable_unjammed placedThen.abortable
      exact ⟨begun + 1, .writes (placedThen.keep (level_driving _ unjammed))
        (pacedThen.begins positiveThen dueThen lowThen unjammed),
        fun struck => absurd struck (placed.not_struck calm)⟩
  | marker stage length place =>
      have unjammed : ∀ remaining, loaded.stage ≠ .jam remaining := by simp [stage]
      refine ⟨begun, .marks ((driving_stage unjammed).trans stage) ?_
        (pacedThen.begins positiveThen dueThen lowThen unjammed), fun _ => rfl⟩
      show begun = loaded.plan.preambleBytes + loaded.length
      rw [plan, length]
      exact place
  | @jam owed nibbles _ stage length aborting owes total ends =>
      obtain ⟨remaining, rfl⟩ : ∃ remaining, nibbles = remaining + 1 := by
        refine Nat.exists_eq_succ_of_ne_zero ?_
        rintro rfl
        exact notOver stage
      rw [placed.preambleOwed_eq whole (paced.nibbles_of_low low), Except.ok.injEq] at owes
      have undriven : loaded.nibbles = 2 * begun + 0 := pacedThen.nibbles_of_low lowThen
      refine ⟨begun, jam_beats positiveThen dueThen stage lowThen ?_ undriven ?_
        pacedThen.timed, fun _ => rfl⟩
      · rw [plan, length]
        exact placed.le_trailer
      · rw [jamLength, plan, owes]
        omega

/-- A boundary begins another byte, the marker or the jam. -/
theorem Beats.beginning
    (whole : sequencer.plan.preambleNibbles = 2 * sequencer.plan.preambleBytes)
    (positive : 0 < sequencer.plan.nibbleTicks)
    (due : sequencer.elapsed % sequencer.plan.nibbleTicks = 0)
    (low : sequencer.highNext = false)
    (boundary : Boundary now sequencer source loaded after none)
    (notOver : loaded.stage ≠ .jam 0)
    (beats : sequencer.Beats begun) :
    ∃ more, (loaded.driving.sampled collision).Beats more ∧
      (sequencer.Struck → more = begun) := by
  cases beats with
  | writes placed paced =>
      exact placed.beginning whole positive due low boundary notOver paced
  | marks stage =>
      obtain ⟨_, ended⟩ := marked_boundary stage boundary
      cases ended
  | jams stage _ within nibbles total timed =>
      obtain ⟨rfl, ⟨_, ended⟩ | ⟨nonempty, _⟩⟩ := jam_boundary stage boundary
      · cases ended
      · obtain ⟨less, rfl⟩ := Nat.exists_eq_succ_of_ne_zero nonempty
        exact ⟨begun, jam_beats positive due stage low within nibbles total timed,
          fun _ => rfl⟩

/-- A jam ends when it is as long as the plan says. -/
theorem Beats.ending {ending : Ending}
    (whole : sequencer.plan.preambleNibbles = 2 * sequencer.plan.preambleBytes)
    (due : sequencer.elapsed % sequencer.plan.nibbleTicks = 0)
    (low : sequencer.highNext = false)
    (boundary : Boundary now sequencer source loaded after (some ending))
    (jammed : ending = .jammed)
    (beats : sequencer.Beats begun) :
    sequencer.elapsed =
      (2 * begun + sequencer.jamLength begun) * sequencer.plan.nibbleTicks := by
  subst jammed
  cases beats with
  | writes placed paced =>
      have nibbles := paced.nibbles_of_low low
      cases placed.boundary boundary with
      | @jam owed jamNibbles _ stage length aborting owes total ends =>
          have empty : jamNibbles = 0 := by
            refine Decidable.byContradiction fun nonempty => ?_
            rw [if_neg nonempty] at ends
            cases ends
          rw [placed.preambleOwed_eq whole nibbles, Except.ok.injEq] at owes
          have unjammed : sequencer.jamLength begun = 0 := by
            rw [jamLength, owes, total, empty]
          rw [unjammed, Nat.add_zero, ← nibbles]
          exact paced.timed.due due
  | marks stage =>
      obtain ⟨_, ended⟩ := marked_boundary stage boundary
      cases ended
  | jams stage _ within nibbles total timed =>
      obtain ⟨_, ⟨rfl, _⟩ | ⟨_, unended⟩⟩ := jam_boundary stage boundary
      · rw [← total, Nat.add_zero, ← nibbles]
        exact timed.due due
      · cases unended

/-- An attempt keeps its pace from tick to tick. -/
theorem Beats.moves
    (whole : sequencer.plan.preambleNibbles = 2 * sequencer.plan.preambleBytes)
    (positive : 0 < sequencer.plan.nibbleTicks)
    (moves : Moves now collision sequencer source next after step)
    (beats : sequencer.Beats begun) :
    KeepsPace sequencer next begun step := by
  cases moves with
  | rests idle => exact absurd idle beats.active
  | holds active between => exact .goesOn (beats.holding between) rfl fun _ => rfl
  | continues active due high notOver =>
      exact .goesOn (beats.continuing positive due high) rfl fun _ => rfl
  | begins active due low boundary notOver =>
      obtain ⟨more, beatsNext, kept⟩ :=
        beats.beginning whole positive due low boundary notOver
      exact .goesOn beatsNext rfl kept
  | ends active due low boundary =>
      exact .ends rfl fun jammed => beats.ending whole due low boundary jammed

/-- The first tick of an attempt begins the first byte of its preamble. -/
theorem start_beats
    (preamblePositive : 0 < sequencer.plan.preambleBytes)
    (positive : 0 < sequencer.plan.nibbleTicks)
    (moves : Moves now collision sequencer.start source next after step) :
    step.ending = none ∧ next.elapsed = 1 ∧ next.Beats 1 := by
  obtain ⟨rfl, rfl, _⟩ := start_moves preamblePositive moves
  have timed : sequencer.start.loadPreamble.Timed := (start_timed positive).keep rfl rfl rfl
  have paced : sequencer.start.loadPreamble.Paced 0 := .of_timed timed rfl
  have placed : sequencer.start.loadPreamble.Placed 1 := .preamble rfl preamblePositive rfl
  have unjammed := abortable_unjammed placed.abortable
  exact ⟨rfl, rfl, .writes (placed.keep (level_driving _ unjammed))
    (paced.begins positive (Nat.zero_mod _) rfl unjammed)⟩

end Sequencer

namespace Run

variable {config : Config} {σ γ : Type} [ByteSource σ] [WordSource γ]

/-- The pace of the attempt in progress, whose first tick is known, if there is one. -/
inductive Paces (run : Run config σ γ) (count : Nat) : Prop
  | rests
      (idle : (run.engine count).sequencer.stage = .idle)
  | tries {start begun : Nat}
      (lastStart : run.LastStart start count)
      (elapsed : count = start + (run.engine count).sequencer.elapsed)
      (beats : (run.engine count).sequencer.Beats begun)

variable {run : Run config σ γ} {early gap count : Nat}

theorem plan_whole (within : count ≤ run.length) :
    (run.engine count).sequencer.plan.preambleNibbles =
      2 * (run.engine count).sequencer.plan.preambleBytes := by
  rw [LinePlan.ofConfig_eq_ok (run.conforms within).plan]
  exact Nat.mul_comm _ _

theorem plan_jam (within : count ≤ run.length) :
    (run.engine count).sequencer.plan.jamNibbles = 2 * config.jamBytes.toNat := by
  rw [LinePlan.ofConfig_eq_ok (run.conforms within).plan]
  exact Nat.mul_comm _ _

/-- A new attempt starts to keep its pace. -/
theorem Paces.of_leaves {sequencer : Sequencer} {source : σ} {shown : Signals}
    (preamblePositive : 0 < sequencer.plan.preambleBytes)
    (positive : 0 < sequencer.plan.nibbleTicks)
    (leaves :
      Engine.Leaves (run.reading count) (run.inputs count) sequencer source
        (run.engine (count + 1)) shown (run.marks count)) :
    run.Paces (count + 1) := by
  cases leaves with
  | rests idle => exact .rests idle
  | starts waiting moves same started =>
      obtain ⟨_, elapsed, beats⟩ := Sequencer.start_beats preamblePositive positive moves
      have starts : run.Starts count := started
      exact .tries starts.lastStart (congrArg (count + ·) elapsed.symm) beats

theorem Paces.ticks
    (timing : config.Timing early gap)
    (within : count < run.length)
    (paces : run.Paces count) :
    run.Paces (count + 1) := by
  obtain ⟨preamblePositive, positive⟩ := plan_positive timing (Nat.le_of_lt within)
  have whole := plan_whole (Nat.le_of_lt within)
  have unstarted {step : SequencerStep} {now : Tick}
      (marked : run.marks count = Sequencer.marksOfStep now step) :
      ¬ run.Starts count := by
    unfold Starts
    rw [marked]
    exact Sequencer.not_hasStart_marksOfStep now step
  cases (run.ticks within).turns with
  | goesOn active moves unended shown unraised marked =>
      cases paces with
      | rests idle => exact absurd idle active
      | tries lastStart elapsed beats =>
          cases beats.moves whole positive moves with
          | goesOn beatsNext =>
              refine .tries (lastStart.next (unstarted marked)) ?_ beatsNext
              rw [moves.elapsed active unended, ← Nat.add_assoc]
              exact congrArg (· + 1) elapsed
          | ends ended => cases unended.symm.trans ended
  | stops moves ended settles status leaves =>
      refine .of_leaves ?_ ?_ leaves
      · rw [moves.plan]
        exact preamblePositive
      · rw [moves.plan]
        exact positive
  | waits idle unraised leaves => exact .of_leaves preamblePositive positive leaves

/-- Every attempt keeps its pace. -/
theorem paces
    (timing : config.Timing early gap)
    (within : count ≤ run.length) :
    run.Paces count := by
  induction count with
  | zero => exact .rests run.idle_at_setUp
  | succ count inductionHypothesis =>
      exact (inductionHypothesis (Nat.le_of_succ_le within)).ticks timing within

end Run

end HalfDuplex
