import HalfDuplex.Proofs.Encoding
import HalfDuplex.Proofs.Realization

/-!
# Attempts on their own

A `Trial` is one attempt of the sequencer without an engine around it: any byte source, any
readings of the timer and any collision input.  Its ticks are counted from its first one on.

`lineImage` is what a list of nibbles looks like on the line, tick by tick.  The attempt
`HasDriven` a list of nibbles when its ticks so far have shown that image and it is about to
drive the next nibble, or to end.  A nibble takes one tick that presents it and further ticks
that hold it, and `HasDriven.nibble` takes all of them at once, so that what follows can count
in nibbles.
-/

namespace HalfDuplex

/-- The nibbles of octets as they are driven, of each octet the low one first. -/
def drivenNibbles (octets : List Octet) : List Signals :=
  octets.flatMap fun octet => [octet.drives false, octet.drives true]

/-- A nibble of the jam as it is driven. -/
def jamSignals : Signals where
  clockEnable := true
  enable := true
  data := jamNibble

/-- An attempt of the sequencer: the state before it, and what is sampled on each tick. -/
structure Trial (σ : Type) where
  sequencer : Sequencer
  source : σ
  reading : Nat → Tick
  collision : Nat → Bool

/-- The signals of a line on which each nibble is held for a number of ticks. -/
def lineImage (nibbleTicks : Nat) (nibbles : List Signals) (tick : Nat) : Signals :=
  match nibbles[tick / nibbleTicks]? with
  | some signals => { signals with clockEnable := decide (tick % nibbleTicks = 0) }
  | none => .quiet

@[simp]
theorem drivenNibbles_append (first second : List Octet) :
    drivenNibbles (first ++ second) = drivenNibbles first ++ drivenNibbles second :=
  List.flatMap_append

theorem drivenNibbles_singleton (octet : Octet) :
    drivenNibbles [octet] = [octet.drives false, octet.drives true] :=
  rfl

theorem length_drivenNibbles (octets : List Octet) :
    (drivenNibbles octets).length = 2 * octets.length := by
  induction octets with
  | nil => rfl
  | cons octet octets inductionHypothesis =>
      rw [← List.singleton_append, drivenNibbles_append, List.length_append,
        inductionHypothesis, drivenNibbles_singleton, List.length_append]
      show 2 + 2 * octets.length = 2 * (1 + octets.length)
      lia

theorem lineImage_append_of_lt {nibbleTicks tick : Nat} {nibbles : List Signals}
    (more : List Signals)
    (before : tick < nibbles.length * nibbleTicks) :
    lineImage nibbleTicks (nibbles ++ more) tick = lineImage nibbleTicks nibbles tick := by
  have place : tick / nibbleTicks < nibbles.length :=
    Nat.div_lt_of_lt_mul (by rwa [Nat.mul_comm])
  rw [lineImage, lineImage, List.getElem?_append_left place]

theorem lineImage_append_add {nibbleTicks : Nat} (nibbles more : List Signals) (offset : Nat)
    (positive : 0 < nibbleTicks) :
    lineImage nibbleTicks (nibbles ++ more) (nibbles.length * nibbleTicks + offset) =
      lineImage nibbleTicks more offset := by
  have place : (nibbles.length * nibbleTicks + offset) / nibbleTicks =
      nibbles.length + offset / nibbleTicks := by
    rw [Nat.mul_comm, Nat.mul_add_div positive]
  have phase : (nibbles.length * nibbleTicks + offset) % nibbleTicks = offset % nibbleTicks := by
    rw [Nat.mul_comm, Nat.mul_add_mod]
  rw [lineImage, place, phase, List.getElem?_append_right (Nat.le_add_right _ _),
    Nat.add_sub_cancel_left]
  rfl

/-- A tick of the image is one of a nibble, which begins on it or is held. -/
theorem exists_mem_lineImage {nibbleTicks tick : Nat} {nibbles : List Signals}
    (before : tick < nibbles.length * nibbleTicks) :
    ∃ signals ∈ nibbles, lineImage nibbleTicks nibbles tick =
      { signals with clockEnable := decide (tick % nibbleTicks = 0) } := by
  have place : tick / nibbleTicks < nibbles.length :=
    Nat.div_lt_of_lt_mul (by rwa [Nat.mul_comm])
  refine ⟨_, List.getElem_mem place, ?_⟩
  rw [lineImage, List.getElem?_eq_getElem place]

theorem lineImage_last {nibbleTicks offset : Nat} (nibbles : List Signals) (signals : Signals)
    (within : offset < nibbleTicks) :
    lineImage nibbleTicks (nibbles ++ [signals]) (nibbles.length * nibbleTicks + offset) =
      { signals with clockEnable := decide (offset = 0) } := by
  rw [lineImage_append_add _ _ _ (Nat.zero_lt_of_lt within), lineImage,
    Nat.div_eq_of_lt within, Nat.mod_eq_of_lt within]
  rfl

namespace Sequencer

variable {sequencer loaded : Sequencer} {noticed : Option Nat} {collision : Bool}
  {tick ticks : Nat}

/-- Whether a collision that was noticed on an earlier tick is pending. -/
def pendingAt (sequencer : Sequencer) (noticed : Option Nat) (tick : Nat) : Bool :=
  sequencer.stage.abortable && noticed.any (· < tick)

/-- The collision input of a tick is noticed if this is the tick to notice one on. -/
def Heeds (sequencer : Sequencer) (noticed : Option Nat) (tick : Nat) (collision : Bool) :
    Prop :=
  (collision && !sequencer.pendingAt noticed tick && sequencer.stage.abortable) =
    decide (noticed = some tick)

/-- The sequencer after it drove the nibble that is due for a number of ticks. -/
def drivenFor (loaded : Sequencer) (ticks : Nat) (aborting : Bool) : Sequencer :=
  { loaded.driving with elapsed := loaded.elapsed + ticks, aborting }

theorem level_drivenFor {aborting : Bool} (sequencer : Sequencer)
    (unjammed : ∀ remaining, sequencer.stage ≠ .jam remaining) :
    sequencer.Level (sequencer.drivenFor ticks aborting) :=
  ⟨driving_stage unjammed, rfl, rfl, rfl, rfl, rfl⟩

theorem Jams.shows {remaining : Nat} (jams : sequencer.Jams remaining) :
    sequencer.dueSignals = jamSignals :=
  jams.dueSignals

theorem Heeds.keep {other : Sequencer}
    (heeds : sequencer.Heeds noticed tick collision)
    (same : other.stage.abortable = sequencer.stage.abortable) :
    other.Heeds noticed tick collision := by
  rw [Heeds, pendingAt, same]
  exact heeds

theorem abortable_nextStage (sequencer : Sequencer) :
    sequencer.nextStage.abortable = sequencer.stage.abortable := by
  unfold nextStage
  split
  · rename_i remaining stage
    rw [stage]
    rfl
  · rfl

theorem nextStage_ne_idle (active : sequencer.stage ≠ .idle) : sequencer.nextStage ≠ .idle := by
  unfold nextStage
  split
  · nofun
  · exact active

theorem pendingAt_succ (heeds : loaded.Heeds noticed tick collision) :
    (loaded.pendingAt noticed tick || decide (noticed = some tick)) =
      loaded.pendingAt noticed (tick + 1) := by
  unfold Heeds at heeds
  unfold pendingAt at heeds ⊢
  cases noticed with
  | none => simp
  | some struck =>
      by_cases now : struck = tick
      · subst now
        simp_all
      · have other : some struck ≠ some tick := fun same => now (Option.some.inj same)
        have earlier : struck < tick + 1 ↔ struck < tick := by omega
        simp only [Option.any_some, earlier, decide_eq_false other, Bool.or_false]

theorem notices_drivenFor (heeds : loaded.Heeds noticed tick collision) :
    (loaded.drivenFor ticks (loaded.pendingAt noticed tick)).notices collision =
      decide (noticed = some tick) := by
  rw [← heeds]
  show (collision && !loaded.pendingAt noticed tick && loaded.nextStage.abortable) = _
  rw [abortable_nextStage]

theorem sampled_drivenFor (heeds : loaded.Heeds noticed tick collision) :
    (loaded.drivenFor ticks (loaded.pendingAt noticed tick)).sampled collision =
      loaded.drivenFor ticks (loaded.pendingAt noticed (tick + 1)) := by
  rw [sampled, notices_drivenFor heeds, ← pendingAt_succ heeds]
  rfl

theorem shown_drivenFor {clockEnable : Bool} (heeds : loaded.Heeds noticed tick collision) :
    (loaded.drivenFor ticks (loaded.pendingAt noticed tick)).shown collision clockEnable =
      { signals := { loaded.dueSignals with clockEnable }
        collided := decide (noticed = some tick) } := by
  rw [shown, notices_drivenFor heeds]
  rfl

end Sequencer

namespace Trial

variable {σ : Type} [ByteSource σ]

/-- Sequencer and source as they enter a tick. -/
def entering (trial : Trial σ) : (tick : Nat) → Except Fault (Sequencer × σ)
  | 0 => .ok (trial.sequencer.start, trial.source)
  | tick + 1 => do
      let (sequencer, source) ← trial.entering tick
      (sequencer.step (trial.reading tick) (trial.collision tick) source).value.map
        fun (next, after, _) => (next, after)

/-- What the sequencer shows on a tick. -/
def shows (trial : Trial σ) (tick : Nat) : Except Fault SequencerStep := do
  let (sequencer, source) ← trial.entering tick
  (sequencer.step (trial.reading tick) (trial.collision tick) source).value.map
    fun (_, _, step) => step

/-- The time of a nibble. -/
abbrev nibbleTicks (trial : Trial σ) : Tick :=
  trial.sequencer.plan.nibbleTicks

/-- The attempt has driven some nibbles, and one collision at most was noticed meanwhile. -/
structure HasDriven (trial : Trial σ) (noticed : Option Nat) (nibbles : List Signals) (sequencer : Sequencer)
    (source : σ) : Prop where
  enters : trial.entering (nibbles.length * trial.nibbleTicks) = .ok (sequencer, source)
  plan : sequencer.plan = trial.sequencer.plan
  elapsed : sequencer.elapsed = nibbles.length * trial.nibbleTicks
  counted : sequencer.nibbles = nibbles.length
  pending : sequencer.aborting =
    sequencer.pendingAt noticed (nibbles.length * trial.nibbleTicks)
  shown : ∀ tick < nibbles.length * trial.nibbleTicks, trial.shows tick = .ok {
    signals := lineImage trial.nibbleTicks nibbles tick
    collided := decide (noticed = some tick) }

/-- The collision input of a span of ticks is noticed on the tick to notice one on. -/
def HeedsOver (trial : Trial σ) (loaded : Sequencer) (noticed : Option Nat)
    (first finish : Nat) : Prop :=
  ∀ tick, first ≤ tick → tick < finish → loaded.Heeds noticed tick (trial.collision tick)

variable {trial : Trial σ} {sequencer next loaded : Sequencer} {source after : σ} {step : SequencerStep}
  {noticed : Option Nat} {nibbles : List Signals} {tick : Nat}

theorem entering_succ
    (enters : trial.entering tick = .ok (sequencer, source))
    (steps : (sequencer.step (trial.reading tick) (trial.collision tick) source).value =
      .ok (next, after, step)) :
    trial.entering (tick + 1) = .ok (next, after) := by
  rw [entering, enters]
  show Except.map _ (sequencer.step _ _ _).value = _
  rw [steps]
  rfl

theorem shows_of_entering
    (enters : trial.entering tick = .ok (sequencer, source))
    (steps : (sequencer.step (trial.reading tick) (trial.collision tick) source).value =
      .ok (next, after, step)) :
    trial.shows tick = .ok step := by
  rw [shows, enters]
  show Except.map _ (sequencer.step _ _ _).value = _
  rw [steps]
  rfl

/-- On a tick the attempt presents the nibble that is due in `loaded`. -/
structure Presents (trial : Trial σ) (noticed : Option Nat) (tick : Nat) (loaded : Sequencer)
    (after : σ) : Prop where
  entering : trial.entering (tick + 1) =
    .ok (loaded.driving.sampled (trial.collision tick), after)
  shown : trial.shows tick = .ok (loaded.driving.shown (trial.collision tick) true)
  active : loaded.stage ≠ .idle
  plan : loaded.plan = trial.sequencer.plan
  elapsed : loaded.elapsed = tick
  pending : loaded.aborting = loaded.pendingAt noticed tick

theorem Presents.of_step
    (enters : trial.entering tick = .ok (sequencer, source))
    (steps : (sequencer.step (trial.reading tick) (trial.collision tick) source).value =
      .ok (loaded.driving.sampled (trial.collision tick), after,
        loaded.driving.shown (trial.collision tick) true))
    (active : loaded.stage ≠ .idle)
    (plan : loaded.plan = trial.sequencer.plan)
    (elapsed : loaded.elapsed = tick)
    (pending : loaded.aborting = loaded.pendingAt noticed tick) :
    trial.Presents noticed tick loaded after :=
  ⟨entering_succ enters steps, shows_of_entering enters steps, active, plan, elapsed, pending⟩

/-- A tick on which the sequencer holds the nibble that it presents. -/
theorem Presents.holds_next {ticks : Nat}
    (presents : trial.Presents noticed tick loaded after)
    (due : tick % trial.nibbleTicks = 0)
    (heeds : loaded.Heeds noticed (tick + (ticks + 1)) (trial.collision (tick + (ticks + 1))))
    (room : tick + trial.nibbleTicks < wideLimit)
    (within : ticks + 1 < trial.nibbleTicks) :
    ((loaded.drivenFor (ticks + 1) (loaded.pendingAt noticed (tick + (ticks + 1)))).step
        (trial.reading (tick + (ticks + 1))) (trial.collision (tick + (ticks + 1)))
        after).value =
      .ok (loaded.drivenFor (ticks + 2) (loaded.pendingAt noticed (tick + (ticks + 2))), after, {
        signals := { loaded.dueSignals with clockEnable := false }
        collided := decide (noticed = some (tick + (ticks + 1))) }) := by
  let last := loaded.drivenFor (ticks + 1) (loaded.pendingAt noticed (tick + (ticks + 1)))
  have active : last.stage ≠ .idle := Sequencer.nextStage_ne_idle presents.active
  have positive : 0 < last.plan.nibbleTicks := by
    show 0 < loaded.plan.nibbleTicks
    rw [presents.plan]
    exact Nat.zero_lt_of_lt within
  have between : last.elapsed % last.plan.nibbleTicks ≠ 0 := by
    show (loaded.elapsed + (ticks + 1)) % loaded.plan.nibbleTicks ≠ 0
    rw [presents.elapsed, presents.plan, Nat.add_mod, due, Nat.zero_add, Nat.mod_mod,
      Nat.mod_eq_of_lt within]
    exact Nat.succ_ne_zero ticks
  have reached : last.elapsed + 1 < wideLimit := by
    show loaded.elapsed + (ticks + 1) + 1 < wideLimit
    rw [presents.elapsed]
    lia
  have held : last.holding = loaded.drivenFor (ticks + 2)
      (loaded.pendingAt noticed (tick + (ticks + 1))) := rfl
  rw [Sequencer.step_holds active positive between reached, held,
    Sequencer.sampled_drivenFor heeds, Sequencer.shown_drivenFor heeds]
  rfl

/-- The ticks of a nibble: the sequencer presents it on the first of them and holds it on
the others. -/
theorem Presents.holds {ticks : Nat}
    (presents : trial.Presents noticed tick loaded after)
    (due : tick % trial.nibbleTicks = 0)
    (heeds : ∀ offset < trial.nibbleTicks,
      loaded.Heeds noticed (tick + offset) (trial.collision (tick + offset)))
    (room : tick + trial.nibbleTicks < wideLimit)
    (within : ticks < trial.nibbleTicks) :
    trial.entering (tick + (ticks + 1)) =
        .ok (loaded.drivenFor (ticks + 1) (loaded.pendingAt noticed (tick + (ticks + 1))),
          after) ∧
      ∀ offset ≤ ticks, trial.shows (tick + offset) = .ok {
        signals := { loaded.dueSignals with clockEnable := decide (offset = 0) }
        collided := decide (noticed = some (tick + offset)) } := by
  induction ticks with
  | zero =>
      have first : loaded.driving = loaded.drivenFor 1 (loaded.pendingAt noticed tick) := by
        rw [Sequencer.drivenFor, ← presents.pending]
        rfl
      have heedsFirst : loaded.Heeds noticed tick (trial.collision tick) := heeds 0 within
      have enters := presents.entering
      have shown := presents.shown
      rw [first, Sequencer.sampled_drivenFor heedsFirst] at enters
      rw [first, Sequencer.shown_drivenFor heedsFirst] at shown
      refine ⟨enters, fun offset only => ?_⟩
      obtain rfl := Nat.le_zero.mp only
      exact shown
  | succ ticks inductionHypothesis =>
      obtain ⟨enters, shown⟩ := inductionHypothesis (Nat.lt_of_succ_lt within)
      have heedsLast := heeds (ticks + 1) within
      have steps := presents.holds_next due heedsLast room within
      refine ⟨entering_succ enters steps, fun offset upTo => ?_⟩
      rcases Nat.lt_or_eq_of_le upTo with before | rfl
      · exact shown offset (Nat.le_of_lt_succ before)
      · exact shows_of_entering enters steps

/-! ## Nibble by nibble -/

omit [ByteSource σ] in
/-- Time and nibbles that are within their bounds together leave room for the ticks. -/
theorem ticks_lt_wideLimit {count : Nat}
    (narrow : trial.nibbleTicks < countLimit)
    (few : count < countLimit) :
    count * trial.nibbleTicks < wideLimit :=
  calc count * trial.nibbleTicks < countLimit * countLimit :=
        Nat.mul_lt_mul'' few narrow
    _ = wideLimit := by decide

/-- The attempt drives one more nibble. -/
theorem HasDriven.nibble
    (driven : trial.HasDriven noticed nibbles sequencer source)
    (presents :
      trial.Presents noticed (nibbles.length * trial.nibbleTicks) loaded after)
    (counted : loaded.nibbles = sequencer.nibbles)
    (heeds : trial.HeedsOver loaded noticed (nibbles.length * trial.nibbleTicks)
      ((nibbles.length + 1) * trial.nibbleTicks))
    (positive : 0 < trial.nibbleTicks)
    (narrow : trial.nibbleTicks < countLimit)
    (few : nibbles.length + 1 < countLimit) :
    trial.HasDriven noticed (nibbles ++ [loaded.dueSignals])
      (loaded.drivenFor trial.nibbleTicks
        (loaded.pendingAt noticed ((nibbles.length + 1) * trial.nibbleTicks)))
      after := by
  have longer : (nibbles ++ [loaded.dueSignals]).length = nibbles.length + 1 := by
    rw [List.length_append, List.length_singleton]
  have finish : nibbles.length * trial.nibbleTicks + trial.nibbleTicks =
      (nibbles.length + 1) * trial.nibbleTicks :=
    (Nat.succ_mul _ _).symm
  have room := ticks_lt_wideLimit narrow few
  obtain ⟨last, length⟩ : ∃ last, trial.nibbleTicks = last + 1 :=
    Nat.exists_eq_succ_of_ne_zero (Nat.ne_of_gt positive)
  obtain ⟨enters, shown⟩ := presents.holds (Nat.mul_mod_left _ _)
    (fun offset within => heeds _ (Nat.le_add_right _ _) (by lia)) (by lia)
    (show last < trial.nibbleTicks by lia)
  rw [← length, finish] at enters
  constructor
  case enters =>
    rw [longer]
    exact enters
  case plan => exact presents.plan
  case elapsed =>
    rw [longer, ← finish, ← presents.elapsed]
    rfl
  case counted =>
    rw [longer, ← driven.counted, ← counted]
    rfl
  case pending =>
    rw [longer, Sequencer.pendingAt]
    show _ = (loaded.nextStage.abortable && _)
    rw [Sequencer.abortable_nextStage]
    rfl
  case shown =>
    -- The ticks so far show what they did, and those of the new nibble count from its first.
    intro tick before
    rw [longer, ← finish] at before
    rcases Nat.lt_or_ge tick (nibbles.length * trial.nibbleTicks) with earlier | within
    · rw [lineImage_append_of_lt _ earlier]
      exact driven.shown tick earlier
    · obtain ⟨offset, rfl⟩ := Nat.exists_eq_add_of_le within
      rw [lineImage_last _ _ (by lia)]
      exact shown offset (by lia)

/-- An attempt that begins has driven nothing. -/
theorem hasDriven_start (trial : Trial σ) (noticed : Option Nat) :
    trial.HasDriven noticed [] trial.sequencer.start trial.source := by
  have start : ([] : List Signals).length * trial.nibbleTicks = 0 := Nat.zero_mul _
  constructor
  case enters =>
    rw [start]
    rfl
  case plan => rfl
  case elapsed => exact start.symm
  case counted => rfl
  case pending =>
    rw [start]
    cases noticed <;> rfl
  case shown =>
    intro tick before
    rw [start] at before
    exact absurd before (Nat.not_lt_zero tick)

namespace HasDriven

variable (driven : trial.HasDriven noticed nibbles sequencer source)
  (positive : 0 < trial.nibbleTicks)
  (narrow : trial.nibbleTicks < countLimit)

include driven

theorem due : sequencer.elapsed % sequencer.plan.nibbleTicks = 0 := by
  rw [driven.elapsed, driven.plan, Nat.mul_mod_left]

include positive narrow

theorem reached (few : nibbles.length + 1 < countLimit) : sequencer.elapsed + 1 < wideLimit := by
  have fits := ticks_lt_wideLimit narrow few
  rw [Nat.succ_mul] at fits
  rw [driven.elapsed]
  lia

/-- The first nibble after a byte boundary. -/
theorem begins
    (active : sequencer.stage ≠ .idle)
    (activeThen : loaded.stage ≠ .idle)
    (low : sequencer.highNext = false)
    (boundary : Sequencer.Boundary (trial.reading (nibbles.length * trial.nibbleTicks))
      sequencer source loaded after none)
    (room : loaded.Room)
    (pending : loaded.aborting =
      loaded.pendingAt noticed (nibbles.length * trial.nibbleTicks))
    (heeds : trial.HeedsOver loaded noticed (nibbles.length * trial.nibbleTicks)
      ((nibbles.length + 1) * trial.nibbleTicks))
    (few : nibbles.length + 1 < countLimit) :
    trial.HasDriven noticed (nibbles ++ [loaded.dueSignals])
      (loaded.drivenFor trial.nibbleTicks
        (loaded.pendingAt noticed ((nibbles.length + 1) * trial.nibbleTicks)))
      after := by
  obtain ⟨plan, _, elapsed, counted⟩ := boundary.counters
  have reached := driven.reached positive narrow few
  have steps : (sequencer.step (trial.reading (nibbles.length * trial.nibbleTicks))
      (trial.collision (nibbles.length * trial.nibbleTicks)) source).value = _ :=
    Sequencer.step_begins active (driven.plan ▸ positive) driven.due low boundary room reached
      (driven.counted ▸ few)
  have presents := Presents.of_step driven.enters steps activeThen (plan.trans driven.plan)
    (elapsed.trans driven.elapsed) pending
  exact driven.nibble presents counted heeds positive narrow few

/-- The second nibble of a byte. -/
theorem continues
    (active : sequencer.stage ≠ .idle)
    (high : sequencer.highNext = true)
    (unjammed : ∀ remaining, sequencer.stage ≠ .jam remaining)
    (heeds : trial.HeedsOver sequencer noticed (nibbles.length * trial.nibbleTicks)
      ((nibbles.length + 1) * trial.nibbleTicks))
    (few : nibbles.length + 1 < countLimit) :
    trial.HasDriven noticed (nibbles ++ [sequencer.dueSignals])
      (sequencer.drivenFor trial.nibbleTicks
        (sequencer.pendingAt noticed ((nibbles.length + 1) * trial.nibbleTicks)))
      source := by
  have reached := driven.reached positive narrow few
  have steps : (sequencer.step (trial.reading (nibbles.length * trial.nibbleTicks))
      (trial.collision (nibbles.length * trial.nibbleTicks)) source).value = _ :=
    Sequencer.step_continues active (driven.plan ▸ positive) driven.due high (unjammed 0)
      reached (driven.counted ▸ few)
  have presents := Presents.of_step driven.enters steps active driven.plan driven.elapsed
    driven.pending
  exact driven.nibble presents rfl heeds positive narrow few

/-- The byte that a byte boundary takes up. -/
theorem byte
    (active : sequencer.stage ≠ .idle)
    (activeThen : loaded.stage ≠ .idle)
    (low : sequencer.highNext = false)
    (boundary : Sequencer.Boundary (trial.reading (nibbles.length * trial.nibbleTicks))
      sequencer source loaded after none)
    (room : loaded.Room)
    (unjammed : ∀ remaining, loaded.stage ≠ .jam remaining)
    (pending : loaded.aborting =
      loaded.pendingAt noticed (nibbles.length * trial.nibbleTicks))
    (heeds : trial.HeedsOver loaded noticed (nibbles.length * trial.nibbleTicks)
      ((nibbles.length + 2) * trial.nibbleTicks))
    (few : nibbles.length + 2 < countLimit) :
    ∃ next, trial.HasDriven noticed (nibbles ++ drivenNibbles [loaded.current]) next after ∧
      next.highNext = false ∧ loaded.Level next := by
  have lowThen : loaded.highNext = false := boundary.counters.2.1.trans low
  have half := driven.begins positive narrow active activeThen low boundary room pending
    (fun tick atLeast before => heeds tick atLeast (by lia)) (by lia)
  generalize equality : loaded.drivenFor trial.nibbleTicks
    (loaded.pendingAt noticed ((nibbles.length + 1) * trial.nibbleTicks)) = middle at half
  have level : loaded.Level middle := by
    rw [← equality]
    exact loaded.level_drivenFor unjammed
  have stage := level.stage
  have high : middle.highNext = true := by
    rw [← equality]
    show loaded.nextHigh = true
    rw [Sequencer.nextHigh_of_unjammed unjammed, lowThen, Bool.not_false]
  have unjammedThen : ∀ remaining, middle.stage ≠ .jam remaining := by rwa [stage]
  have longer : (nibbles ++ [loaded.dueSignals]).length = nibbles.length + 1 := by
    rw [List.length_append, List.length_singleton]
  have heedsThen : trial.HeedsOver middle noticed
      ((nibbles ++ [loaded.dueSignals]).length * trial.nibbleTicks)
      (((nibbles ++ [loaded.dueSignals]).length + 1) * trial.nibbleTicks) := by
    intro tick atLeast before
    rw [longer] at atLeast before
    rw [Nat.succ_mul] at atLeast
    exact (heeds tick (by lia) before).keep (by rw [stage])
  have whole := half.continues positive narrow (stage ▸ activeThen) high unjammedThen heedsThen
    (by lia)
  have zero := boundary.zero_of_error unjammed
  have zeroThen : middle.error = true → middle.byte = 0 := by rwa [← equality]
  have sent : nibbles ++ [loaded.dueSignals] ++ [middle.dueSignals] =
      nibbles ++ drivenNibbles [loaded.current] := by
    rw [Sequencer.dueSignals_of_unjammed unjammed zero,
      Sequencer.dueSignals_of_unjammed unjammedThen zeroThen, lowThen, high, List.append_assoc,
      ← equality]
    rfl
  rw [sent] at whole
  refine ⟨_, whole, ?_, (middle.level_drivenFor unjammedThen).trans level⟩
  show middle.nextHigh = false
  rw [Sequencer.nextHigh_of_unjammed unjammedThen, high, Bool.not_true]

/-- What is left of a jam, nibble by nibble. -/
theorem jam {remaining : Nat}
    (jams : sequencer.Jams remaining)
    (low : sequencer.highNext = false)
    (short : sequencer.length < wideLimit)
    (heeds : trial.HeedsOver sequencer noticed (nibbles.length * trial.nibbleTicks)
      ((nibbles.length + remaining) * trial.nibbleTicks))
    (few : nibbles.length + remaining < countLimit) :
    ∃ next, trial.HasDriven noticed (nibbles ++ List.replicate remaining jamSignals) next
        source ∧
      next.highNext = false ∧ next.stage = .jam 0 ∧ next.length = sequencer.length := by
  induction remaining generalizing nibbles sequencer with
  | zero =>
      rw [List.replicate_zero, List.append_nil]
      exact ⟨sequencer, driven, low, jams.stage, rfl⟩
  | succ remaining inductionHypothesis =>
      have stage := jams.stage
      have active : sequencer.stage ≠ .idle := by simp [stage]
      have room : sequencer.Room := by
        refine ⟨short, fun left same => ?_⟩
        cases stage.symm.trans same
        lia
      have longer : (nibbles ++ [sequencer.dueSignals]).length = nibbles.length + 1 := by
        rw [List.length_append, List.length_singleton]
      have drivenNext := driven.begins positive narrow active active low (.jamming stage) room
        driven.pending
        (fun tick atLeast before => heeds tick atLeast (Nat.lt_of_lt_of_le before
          (Nat.mul_le_mul_right _ (by lia)))) (by lia)
      generalize equality : sequencer.drivenFor trial.nibbleTicks
        (sequencer.pendingAt noticed ((nibbles.length + 1) * trial.nibbleTicks)) = next
        at drivenNext
      have jamsNext : next.Jams remaining := by
        rw [← equality]
        exact ⟨jams.driving.stage, jams.driving.unmarked⟩
      have lowNext : next.highNext = false := by
        rw [← equality]
        show sequencer.nextHigh = false
        rw [Sequencer.nextHigh, stage, low]
      have lengthNext : next.length = sequencer.length := by
        rw [← equality]
        rfl
      have heedsNext : trial.HeedsOver next noticed
          ((nibbles ++ [sequencer.dueSignals]).length * trial.nibbleTicks)
          (((nibbles ++ [sequencer.dueSignals]).length + remaining) * trial.nibbleTicks) := by
        intro tick atLeast before
        rw [longer] at atLeast before
        rw [Nat.succ_mul] at atLeast
        rw [Nat.add_assoc, Nat.add_comm 1] at before
        exact (heeds tick (by lia) before).keep (by rw [stage, jamsNext.stage]; rfl)
      obtain ⟨last, whole, lowLast, stageLast, lengthLast⟩ :=
        inductionHypothesis drivenNext jamsNext lowNext (lengthNext ▸ short) heedsNext
          (by lia)
      rw [jams.shows, List.append_assoc, List.singleton_append,
        ← List.replicate_succ] at whole
      exact ⟨last, whole, lowLast, stageLast, lengthLast.trans lengthNext⟩

omit narrow in
/-- The tick after the last nibble. -/
theorem ends {ending : Ending}
    (active : sequencer.stage ≠ .idle)
    (low : sequencer.highNext = false)
    (boundary : Sequencer.Boundary (trial.reading (nibbles.length * trial.nibbleTicks))
      sequencer source loaded after (some ending))
    (room : loaded.Room) :
    trial.shows (nibbles.length * trial.nibbleTicks) = .ok { ending := some ending } ∧
      trial.entering (nibbles.length * trial.nibbleTicks + 1) = .ok (loaded.rest, after) := by
  have steps : (sequencer.step (trial.reading (nibbles.length * trial.nibbleTicks))
      (trial.collision (nibbles.length * trial.nibbleTicks)) source).value = _ :=
    Sequencer.step_ends active (driven.plan ▸ positive) driven.due low boundary room
  exact ⟨shows_of_entering driven.enters steps, entering_succ driven.enters steps⟩

end HasDriven

end Trial

end HalfDuplex
