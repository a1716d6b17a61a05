import HalfDuplex.Proofs.WireImage

/-!
# Attempts that are cut short

A collision is noticed on the tick on which it is sampled and takes effect at the end of the
byte in which it falls; a source that starves is found out when it is asked.  `Trial.Fate` says
what comes of an attempt, by what its source answers and by the first collision.  Starvation
wins over a collision in the last byte before it, because the source is asked once more before
the attempt gives way, except that nothing is asked before the preamble is complete.

Main result: `Trial.runs_as_fated`.
-/

namespace HalfDuplex

namespace Trial

variable {σ : Type} [ByteSource σ]

/-- The collision input is high for the first time. -/
structure FirstCollision (trial : Trial σ) (struck : Nat) : Prop where
  high : trial.collision struck = true
  earlier : ∀ tick < struck, trial.collision tick = false

/-- What comes of an attempt with the given times of a byte, preamble and jam: the collision
that is noticed, the nibbles that are driven, the tick after the last of them and the ending. -/
inductive Fate (trial : Trial σ) (byteTicks preambleBytes jamBytes : Nat) :
    Option Nat → List Signals → Nat → Ending → Prop
  | sent {octets : List Octet}
      (finishes : trial.Finishes octets)
      (calm : ∀ tick < (trial.frame octets).length * byteTicks, trial.collision tick = false) :
      Fate trial byteTicks preambleBytes jamBytes none
        (drivenNibbles (trial.frame octets))
        ((trial.frame octets).length * byteTicks) .sent
  | starved {octets : List Octet}
      (starves : trial.Starves octets)
      (calm : ∀ tick < (preambleBytes + octets.length) * byteTicks,
        trial.collision tick = false) :
      Fate trial byteTicks preambleBytes jamBytes none
        (drivenNibbles (preambleOctets preambleBytes ++ octets ++ [.poisoned]))
        ((preambleBytes + octets.length + 1) * byteTicks) .underflow
  | starvedFirst {octets : List Octet} {struck : Nat}
      (starves : trial.Starves octets)
      (first : trial.FirstCollision struck)
      (late : (preambleBytes + max octets.length 1 - 1) * byteTicks ≤ struck)
      (before : struck < (preambleBytes + octets.length) * byteTicks) :
      Fate trial byteTicks preambleBytes jamBytes (some struck)
        (drivenNibbles (preambleOctets preambleBytes ++ octets ++ [.poisoned]))
        ((preambleBytes + octets.length + 1) * byteTicks) .underflow
  | jammed {octets : List Octet} {struck : Nat}
      (supplies : trial.Supplies octets)
      (first : trial.FirstCollision struck)
      (inTime : trial.answer octets.length = .ok .finished ∧
          struck < (trial.frame octets).length * byteTicks ∨
        struck < (preambleBytes + max octets.length 1 - 1) * byteTicks) :
      Fate trial byteTicks preambleBytes jamBytes (some struck)
        (drivenNibbles ((trial.frame octets).take (struck / byteTicks + 1)) ++
          List.replicate (2 * (jamBytes + (preambleBytes - (struck / byteTicks + 1)))) jamSignals)
        ((max (struck / byteTicks + 1) preambleBytes + jamBytes) * byteTicks) .jammed

variable {trial : Trial σ} {sequencer loaded : Sequencer} {source after : σ}
  {noticed : Option Nat} {nibbles : List Signals} {octets bytes : List Octet} {cursor : Nat}

omit [ByteSource σ] in
theorem FirstCollision.strikes {struck : Nat} (first : trial.FirstCollision struck)
    (start finish : Nat) :
    trial.Strikes (some struck) start finish := by
  intro tick _ _
  rcases Nat.lt_trichotomy tick struck with before | rfl | past
  · rw [first.earlier tick before]
    simp [Nat.ne_of_gt before]
  · simp [first.high]
  · simp [past, Nat.ne_of_lt past]

omit [ByteSource σ] in
/-- After the collision input was heeded it matters no more. -/
theorem heeds_of_past {first finish : Nat}
    (unabortable : loaded.stage.abortable = false)
    (past : ∀ struck, noticed = some struck → struck < first) :
    trial.HeedsOver loaded noticed first finish := by
  intro tick atLeast _
  have other : noticed ≠ some tick := fun struck =>
    absurd (past tick struck) (Nat.not_lt.mpr atLeast)
  rw [Sequencer.Heeds, unabortable, Bool.and_false, decide_eq_false other]

/-- An attempt that begins the error marker drives it and ends. -/
theorem HasDriven.marks
    (positive : 0 < trial.nibbleTicks)
    (narrow : trial.nibbleTicks < countLimit)
    (active : sequencer.stage ≠ .idle)
    (low : sequencer.highNext = false)
    (boundary : Sequencer.Boundary (trial.reading (nibbles.length * trial.nibbleTicks))
      sequencer source loaded after none)
    (stage : loaded.stage = .underflow)
    (marker : loaded.current = .poisoned)
    (calm : loaded.aborting = false)
    (short : loaded.length < wideLimit)
    (past : ∀ struck, noticed = some struck → struck < nibbles.length * trial.nibbleTicks)
    (few : nibbles.length + 2 < countLimit)
    (driven : trial.HasDriven noticed nibbles sequencer source) :
    trial.Runs noticed (nibbles ++ drivenNibbles [.poisoned])
        ((nibbles.length + 2) * trial.nibbleTicks) .underflow ∧
      ∃ last, trial.entering ((nibbles.length + 2) * trial.nibbleTicks) = .ok (last, after) := by
  have unabortable : loaded.stage.abortable = false := by rw [stage]; rfl
  have room : loaded.Room := ⟨short, fun nibbles jam => by cases stage.symm.trans jam⟩
  have pending : loaded.aborting =
      loaded.pendingAt noticed (nibbles.length * trial.nibbleTicks) := by
    rw [calm, Sequencer.pendingAt, unabortable, Bool.false_and]
  obtain ⟨last, whole, lowLast, level⟩ :=
    driven.byte positive narrow active (by simp [stage]) low boundary room (by simp [stage])
      pending (heeds_of_past unabortable past) few
  have stageLast := level.stage
  have ending : Sequencer.Boundary
      (trial.reading ((nibbles ++ drivenNibbles [loaded.current]).length * trial.nibbleTicks))
      last after last after (some .underflow) := .marked (stageLast.trans stage)
  have runs := whole.runs positive (by simp [stageLast, stage]) lowLast ending
    ⟨level.length ▸ short, fun nibbles jam => by cases (stageLast.trans stage).symm.trans jam⟩
  have enters := whole.enters
  rw [marker, List.length_append] at runs enters
  exact ⟨runs, last, enters⟩

/-- An attempt that gives way to a collision drives its jam and ends. -/
theorem HasDriven.jams {count : Nat}
    (positive : 0 < trial.nibbleTicks)
    (narrow : trial.nibbleTicks < countLimit)
    (active : sequencer.stage ≠ .idle)
    (low : sequencer.highNext = false)
    (boundary : Sequencer.Boundary (trial.reading (nibbles.length * trial.nibbleTicks))
      sequencer source (sequencer.jammed count) after (if count = 0 then some .jammed else none))
    (short : sequencer.length < wideLimit)
    (past : ∀ struck, noticed = some struck → struck < nibbles.length * trial.nibbleTicks)
    (few : nibbles.length + count < countLimit)
    (driven : trial.HasDriven noticed nibbles sequencer source) :
    trial.Runs noticed (nibbles ++ List.replicate count jamSignals)
      ((nibbles.length + count) * trial.nibbleTicks) .jammed := by
  have room : (sequencer.jammed count).Room := by
    refine ⟨short, fun nibbles stage => ?_⟩
    cases stage
    omega
  cases count with
  | zero =>
      rw [List.replicate_zero, List.append_nil, Nat.add_zero]
      exact driven.runs positive active low boundary room
  | succ count =>
      have first := driven.begins positive narrow active (by simp [Sequencer.jammed]) low
        boundary room rfl (heeds_of_past rfl past) (by omega)
      have longer : (nibbles ++ [(sequencer.jammed (count + 1)).dueSignals]).length =
          nibbles.length + 1 := by
        rw [List.length_append, List.length_singleton]
      have later : nibbles.length * trial.nibbleTicks ≤
          (nibbles.length + 1) * trial.nibbleTicks :=
        Nat.mul_le_mul_right _ (Nat.le_succ _)
      have jams : (sequencer.jammed (count + 1)).Jams (count + 1) := ⟨rfl, rfl⟩
      obtain ⟨last, whole, lowLast, stageLast, lengthLast⟩ :=
        first.jam positive narrow ⟨jams.driving.stage, jams.driving.unmarked⟩ low short
          (heeds_of_past rfl fun struck equality => by
            rw [longer]
            exact Nat.lt_of_lt_of_le (past struck equality) later)
          (by rw [longer]; omega)
      rw [jams.shows, List.append_assoc, List.singleton_append,
        ← List.replicate_succ] at whole
      have jamOver : Sequencer.Boundary (trial.reading
          ((nibbles ++ List.replicate (count + 1) jamSignals).length * trial.nibbleTicks))
          last after last after (some .jammed) := .jamOver stageLast
      have shortLast : last.length < wideLimit := by
        rw [lengthLast]
        exact short
      have runs := whole.runs positive (by simp [stageLast]) lowLast jamOver
        ⟨shortLast, fun nibbles stage => by
          cases stageLast.symm.trans stage
          decide⟩
      rwa [List.length_append, List.length_replicate] at runs

/-- Before the octets of the frame are over the source is asked for the next one as soon as the
preamble is complete. -/
theorem Writes.pulling
    (length : bytes.length = trial.sequencer.plan.preambleBytes + octets.length)
    (writes : trial.Writes noticed octets bytes sequencer source cursor) :
    sequencer.Pulling := by
  rcases writes.early (Nat.le_of_eq length) with data | preamble
  · exact .inl data
  · obtain ⟨begun, _⟩ := writes.placed.of_preamble preamble
    refine .inr ⟨preamble, ?_⟩
    rw [writes.driven.plan]
    omega

omit [ByteSource σ] in
theorem take_frame_octets (trial : Trial σ) (octets : List Octet)
    (regular : trial.sequencer.plan.Regular) :
    (trial.frame octets).take (trial.sequencer.plan.preambleBytes + octets.length) =
      preambleOctets trial.sequencer.plan.preambleBytes ++ octets := by
  rw [take_frame_late octets regular (Nat.le_add_right _ _), Nat.add_sub_cancel_left,
    sealedOctets, paddedOctets, List.append_assoc, List.take_left]

/-- A collision that is noticed comes too late to win over a source that starves after these
octets. -/
def TooLate (trial : Trial σ) (noticed : Option Nat) (octets : List Octet) : Prop :=
  ∀ struck, noticed = some struck →
    (trial.sequencer.plan.preambleBytes + max octets.length 1 - 1) * trial.byteTicks ≤ struck ∧
      struck < (trial.sequencer.plan.preambleBytes + octets.length) * trial.byteTicks

/-- A late collision is pending in the last octet, and not in a preamble that was just
completed. -/
theorem Writes.data_of_late
    (length : bytes.length = trial.sequencer.plan.preambleBytes + octets.length)
    (late : trial.TooLate noticed octets)
    (aborting : sequencer.aborting = true)
    (writes : trial.Writes noticed octets bytes sequencer source cursor) :
    sequencer.stage = .data := by
  rcases writes.pulling length with data | ⟨preamble, complete⟩
  · exact data
  · -- The preamble has just been completed, too early for a collision to be late.
    obtain ⟨begun, spent, _⟩ := writes.placed.of_preamble preamble
    rw [writes.driven.plan] at spent
    have pending := writes.driven.pending
    rw [aborting, Sequencer.pendingAt, eq_comm, Bool.and_eq_true, Option.any_eq_true] at pending
    obtain ⟨_, struck, noticed, _⟩ := pending
    obtain ⟨atLeast, before⟩ := late struck noticed
    have none : octets.length = 0 := by omega
    rw [none] at atLeast before
    exact absurd before (Nat.not_lt.mpr atLeast)

/-- An attempt that finds its source starving drives the error marker and ends. -/
theorem Writes.marks
    (regular : trial.sequencer.plan.Regular)
    (starves : trial.Starves octets)
    (length : bytes.length = trial.sequencer.plan.preambleBytes + octets.length)
    (late : trial.TooLate noticed octets)
    (few : 2 * (bytes.length + 1) < countLimit)
    (writes : trial.Writes noticed octets bytes sequencer source cursor) :
    trial.Runs noticed (drivenNibbles (bytes ++ [.poisoned]))
        ((bytes.length + 1) * trial.byteTicks) .underflow ∧
      ∃ last after, trial.entering ((bytes.length + 1) * trial.byteTicks) = .ok (last, after) ∧
        trial.asked (octets.length + 1) = .ok after := by
  have pulling := writes.pulling length
  have asked : cursor = octets.length := by
    have place := writes.cursor_eq regular pulling
    omega
  obtain ⟨after, pulled, askedThen⟩ := writes.pulls regular pulling (asked ▸ starves.starved)
  have short : sequencer.length < wideLimit := by
    have wide : countLimit ≤ wideLimit := by decide
    have placed := writes.placed.length_le
    omega
  have past : ∀ struck, noticed = some struck →
      struck < (drivenNibbles bytes).length * trial.nibbleTicks := by
    intro struck noticed
    rw [drivenTicks, length]
    exact (late struck noticed).2
  have fewNibbles : (drivenNibbles bytes).length + 2 < countLimit := by
    rwa [length_drivenNibbles]
  have finish : ((drivenNibbles bytes).length + 2) * trial.nibbleTicks =
      (bytes.length + 1) * trial.byteTicks := by
    rw [Nat.add_mul, drivenTicks, ← Nat.succ_mul]
  rw [asked] at askedThen
  rw [drivenNibbles_append, ← finish]
  cases aborting : sequencer.aborting with
  | false =>
      obtain ⟨runs, last, enters⟩ := writes.driven.marks regular.nibblePositive
        regular.nibbleNarrow writes.active writes.low (.starved pulling pulled aborting) rfl rfl
        aborting short past fewNibbles
      exact ⟨runs, last, after, enters, askedThen⟩
  | true =>
      have data := writes.data_of_late length late aborting
      obtain ⟨runs, last, enters⟩ := writes.driven.marks regular.nibblePositive
        regular.nibbleNarrow writes.active writes.low (.abandonedStarved aborting data pulled)
        rfl rfl rfl short past fewNibbles
      exact ⟨runs, last, after, enters, askedThen⟩

/-- After the octets that it supplies a source is asked for one more. -/
theorem Supplies.writes
    (regular : trial.sequencer.plan.Regular)
    (supplies : trial.Supplies octets)
    (late : ∀ struck, noticed = some struck →
      (trial.sequencer.plan.preambleBytes + octets.length - 1) * trial.byteTicks ≤ struck)
    (strikes : trial.Strikes noticed 0
      ((trial.sequencer.plan.preambleBytes + octets.length) * trial.byteTicks))
    (few : 2 * (trial.sequencer.plan.preambleBytes + octets.length) < countLimit) :
    ∃ sequencer source,
      trial.Writes noticed octets (preambleOctets trial.sequencer.plan.preambleBytes ++ octets)
        sequencer source octets.length ∧ sequencer.Pulling := by
  have within : trial.sequencer.plan.preambleBytes + octets.length ≤
      (trial.frame octets).length := by
    rw [length_frameOctets regular.preamblePositive]
    omega
  obtain ⟨sequencer, source, cursor, writes⟩ := writes_of_calm regular supplies
    (.inl (Nat.le_refl _)) within late strikes few
  rw [take_frame_octets trial octets regular] at writes
  have length := length_preambled regular.preamblePositive octets
  have pulling := writes.pulling length
  have place := writes.cursor_eq regular pulling
  have asked : cursor = octets.length := by omega
  exact ⟨sequencer, source, asked ▸ writes, pulling⟩

/-- On a source that starves an attempt drives the octets before, and the error marker.  The
source is not asked again. -/
theorem Starves.runs
    (regular : trial.sequencer.plan.Regular)
    (starves : trial.Starves octets)
    (strikes : trial.Strikes noticed 0
      ((trial.sequencer.plan.preambleBytes + octets.length) * trial.byteTicks))
    (late : trial.TooLate noticed octets)
    (few : 2 * (trial.sequencer.plan.preambleBytes + octets.length + 1) < countLimit) :
    trial.Runs noticed
        (drivenNibbles (preambleOctets trial.sequencer.plan.preambleBytes ++ octets ++
          [.poisoned]))
        ((trial.sequencer.plan.preambleBytes + octets.length + 1) * trial.byteTicks)
        .underflow ∧
      ∃ last after,
        trial.entering ((trial.sequencer.plan.preambleBytes + octets.length + 1) *
          trial.byteTicks) = .ok (last, after) ∧
        trial.asked (octets.length + 1) = .ok after := by
  obtain ⟨sequencer, source, writes, _⟩ := starves.supplies.writes regular
    (fun struck noticed => (Nat.mul_le_mul_right _ (by omega)).trans (late struck noticed).1)
    strikes (by omega)
  have length := length_preambled regular.preamblePositive octets
  have runs := writes.marks regular starves length late (by rwa [length])
  rwa [length] at runs

/-- Without a collision pending the attempt drives this many bytes of its frame, and goes on. -/
def InReach (trial : Trial σ) (octets : List Octet) (count : Nat) : Prop :=
  trial.answer octets.length = .ok .finished ∧ count ≤ (trial.frame octets).length ∨
    count ≤ trial.sequencer.plan.preambleBytes + max octets.length 1 - 1

/-- The byte in which a collision falls that is noticed in time. -/
theorem inReach_of_inTime {struck : Nat}
    (regular : trial.sequencer.plan.Regular)
    (inTime : trial.answer octets.length = .ok .finished ∧
        struck < (trial.frame octets).length * trial.byteTicks ∨
      struck < (trial.sequencer.plan.preambleBytes + max octets.length 1 - 1) *
        trial.byteTicks) :
    trial.InReach octets (struck / trial.byteTicks + 1) := by
  have positive : 0 < trial.byteTicks := Nat.mul_pos (by decide) regular.nibblePositive
  refine inTime.imp (And.imp_right fun late => ?_) fun early => ?_
  · exact (Nat.div_lt_iff_lt_mul positive).mpr late
  · exact (Nat.div_lt_iff_lt_mul positive).mpr early

theorem InReach.le_frame {count : Nat}
    (regular : trial.sequencer.plan.Regular)
    (inReach : trial.InReach octets count) :
    count ≤ (trial.frame octets).length := by
  have length : (trial.frame octets).length = trial.sequencer.plan.preambleBytes +
      max octets.length trial.sequencer.plan.minFrame + Checksum.trailerLength :=
    length_frameOctets regular.preamblePositive _ _
  rcases inReach with ⟨_, atMost⟩ | atMost
  · exact atMost
  · omega

theorem InReach.inSight {count : Nat}
    (regular : trial.sequencer.plan.Regular)
    (inReach : trial.InReach octets count) :
    count ≤ trial.sequencer.plan.preambleBytes + octets.length ∨
      trial.answer octets.length = .ok .finished := by
  have positive := regular.preamblePositive
  rcases inReach with ⟨finished, _⟩ | atMost
  · exact .inr finished
  · exact .inl (by omega)

/-- A source that is asked once more by an attempt that gives way does not starve. -/
theorem Writes.discards
    (regular : trial.sequencer.plan.Regular)
    (supplies : trial.Supplies octets)
    (inReach : trial.InReach octets bytes.length)
    (writes : trial.Writes noticed octets bytes sequencer source cursor) :
    ∃ after, Sequencer.Discards
      (trial.reading ((drivenNibbles bytes).length * trial.nibbleTicks)) sequencer source
      after := by
  by_cases data : sequencer.stage = .data
  · have asked := writes.cursor_eq regular (.inl data)
    have some := writes.stands.begun_of_data data
    have atMost := writes.cursor_le regular (.inl data)
    have supplied : ∃ answer, trial.answer cursor = .ok answer ∧ answer ≠ .starved := by
      rcases Nat.lt_or_eq_of_le atMost with inside | atEnd
      · exact ⟨_, supplies _ _ (List.getElem?_eq_getElem inside), by simp⟩
      · rcases inReach with ⟨finished, _⟩ | early
        · exact ⟨.finished, atEnd ▸ finished, by simp⟩
        · omega
    obtain ⟨answer, answers, supplied⟩ := supplied
    obtain ⟨after, pulled, _⟩ := writes.pulls regular (.inl data) answers
    exact ⟨after, .asked data pulled supplied⟩
  · exact ⟨source, .unasked data⟩

/-- An attempt that gives way at a byte boundary completes its preamble and drives its jam. -/
theorem Writes.jams {struck jamBytes : Nat}
    (regular : trial.sequencer.plan.Regular)
    (jam : trial.sequencer.plan.jamNibbles = 2 * jamBytes)
    (supplies : trial.Supplies octets)
    (inReach : trial.InReach octets bytes.length)
    (before : struck < bytes.length * trial.byteTicks)
    (few : 2 * bytes.length +
      2 * (jamBytes + (trial.sequencer.plan.preambleBytes - bytes.length)) < countLimit)
    (writes : trial.Writes (some struck) octets bytes sequencer source cursor) :
    trial.Runs (some struck)
      (drivenNibbles bytes ++ List.replicate (2 * (jamBytes +
        (trial.sequencer.plan.preambleBytes - bytes.length))) jamSignals)
      ((max bytes.length trial.sequencer.plan.preambleBytes + jamBytes) * trial.byteTicks)
      .jammed := by
  have plan := writes.driven.plan
  have wide : countLimit ≤ wideLimit := by decide
  have abortable := writes.stands.abortable
  have aborting : sequencer.aborting = true := by
    rw [writes.driven.pending, Sequencer.pendingAt, abortable, drivenTicks]
    exact decide_eq_true before
  obtain ⟨after, discards⟩ := writes.discards regular supplies inReach
  have driven : sequencer.nibbles = 2 * bytes.length := by
    rw [writes.driven.counted, length_drivenNibbles]
  have owes := writes.stands.preambleOwed_eq (plan ▸ regular.preamblePositive)
    (plan ▸ regular.whole) driven
  have total : sequencer.plan.jamNibbles + 2 * (sequencer.plan.preambleBytes - bytes.length) =
      2 * (jamBytes + (trial.sequencer.plan.preambleBytes - bytes.length)) := by
    rw [plan, jam, Nat.mul_add]
  have short : sequencer.length < wideLimit := by
    have placed := writes.placed.length_le
    omega
  have past : ∀ other, some struck = some other →
      other < (drivenNibbles bytes).length * trial.nibbleTicks := by
    rintro _ ⟨⟩
    rwa [drivenTicks]
  have runs := writes.driven.jams regular.nibblePositive regular.nibbleNarrow writes.active
    writes.low (.abandoned aborting abortable discards owes total rfl) short past
    (by rwa [length_drivenNibbles])
  have finish : ((drivenNibbles bytes).length +
      2 * (jamBytes + (trial.sequencer.plan.preambleBytes - bytes.length))) * trial.nibbleTicks =
        (max bytes.length trial.sequencer.plan.preambleBytes + jamBytes) * trial.byteTicks := by
    have whole : max bytes.length trial.sequencer.plan.preambleBytes + jamBytes =
        bytes.length + (jamBytes + (trial.sequencer.plan.preambleBytes - bytes.length)) := by
      omega
    rw [whole, length_drivenNibbles, ← Nat.mul_add, Nat.mul_comm 2, Nat.mul_assoc]
  rwa [finish] at runs

/-- A collision that is noticed in time cuts the attempt off after the byte in which it falls. -/
theorem runs_jammed {struck jamBytes : Nat}
    (regular : trial.sequencer.plan.Regular)
    (jam : trial.sequencer.plan.jamNibbles = 2 * jamBytes)
    (supplies : trial.Supplies octets)
    (first : trial.FirstCollision struck)
    (inReach : trial.InReach octets (struck / trial.byteTicks + 1))
    (few : 2 * (struck / trial.byteTicks + 1) + 2 * (jamBytes +
      (trial.sequencer.plan.preambleBytes - (struck / trial.byteTicks + 1))) < countLimit) :
    trial.Runs (some struck)
      (drivenNibbles ((trial.frame octets).take (struck / trial.byteTicks + 1)) ++
        List.replicate (2 * (jamBytes + (trial.sequencer.plan.preambleBytes -
          (struck / trial.byteTicks + 1)))) jamSignals)
      ((max (struck / trial.byteTicks + 1) trial.sequencer.plan.preambleBytes + jamBytes) *
        trial.byteTicks) .jammed := by
  have positive : 0 < trial.byteTicks := Nat.mul_pos (by decide) regular.nibblePositive
  have before : struck < (struck / trial.byteTicks + 1) * trial.byteTicks :=
    (Nat.div_lt_iff_lt_mul positive).mp (Nat.lt_succ_self _)
  have begun : (struck / trial.byteTicks + 1 - 1) * trial.byteTicks ≤ struck :=
    Nat.div_mul_le_self _ _
  obtain ⟨sequencer, source, cursor, writes⟩ := writes_of_calm regular supplies
    (inReach.inSight regular) (inReach.le_frame regular)
    (by
      rintro _ ⟨⟩
      exact begun)
    (first.strikes 0 _) (by omega)
  have length : ((trial.frame octets).take (struck / trial.byteTicks + 1)).length =
      struck / trial.byteTicks + 1 := by
    rw [List.length_take, Nat.min_eq_left (inReach.le_frame regular)]
  have runs := writes.jams regular jam supplies (by rwa [length]) (by rwa [length])
    (by rwa [length])
  rwa [length] at runs

/-- An attempt runs as its fate tells. -/
theorem Fate.runs {jamBytes finish : Nat} {ending : Ending}
    (regular : trial.sequencer.plan.Regular)
    (jam : trial.sequencer.plan.jamNibbles = 2 * jamBytes)
    (few : nibbles.length < countLimit)
    (fate : trial.Fate trial.byteTicks trial.sequencer.plan.preambleBytes jamBytes noticed
      nibbles finish ending) :
    trial.Runs noticed nibbles finish ending := by
  have marked (octets : List Octet) : (drivenNibbles (preambleOctets
      trial.sequencer.plan.preambleBytes ++ octets ++ [.poisoned])).length =
        2 * (trial.sequencer.plan.preambleBytes + octets.length + 1) := by
    rw [length_drivenNibbles, List.length_append, List.length_append,
      length_preambleOctets regular.preamblePositive, List.length_singleton]
  cases fate with
  | sent finishes calm =>
      rw [length_drivenNibbles] at few
      exact (finishes.runs regular calm few).1
  | starved starves calm =>
      rw [marked] at few
      exact (starves.runs regular (strikes_of_calm calm) (by intro _ same; cases same) few).1
  | starvedFirst starves first late before =>
      rw [marked] at few
      refine (starves.runs regular (first.strikes 0 _) (fun struck same => ?_) few).1
      cases same
      exact ⟨late, before⟩
  | @jammed octets struck supplies first inTime =>
      have inReach := inReach_of_inTime regular inTime
      rw [List.length_append, length_drivenNibbles, List.length_take, List.length_replicate,
        Nat.min_eq_left (inReach.le_frame regular)] at few
      exact runs_jammed regular jam supplies first inReach few

omit [ByteSource σ] in
/-- The collision input of the first ticks is low, or it is high for the first time. -/
theorem calm_or_first (trial : Trial σ) (finish : Nat) :
    (∀ tick < finish, trial.collision tick = false) ∨
      ∃ struck < finish, trial.FirstCollision struck := by
  induction finish with
  | zero => exact .inl fun tick before => absurd before (Nat.not_lt_zero tick)
  | succ finish inductionHypothesis =>
      rcases inductionHypothesis with calm | ⟨struck, before, first⟩
      · cases high : trial.collision finish with
        | true => exact .inr ⟨finish, Nat.lt_succ_self finish, high, calm⟩
        | false =>
            refine .inl fun tick before => ?_
            rcases Nat.lt_succ_iff_lt_or_eq.mp before with earlier | rfl
            · exact calm tick earlier
            · exact high
      · exact .inr ⟨struck, Nat.lt_succ_of_lt before, first⟩

/-- An attempt has a fate if its source comes to an end or starves, or if a collision comes
before the last of the octets that the source supplies. -/
theorem exists_fate (byteTicks preambleBytes jamBytes : Nat)
    (decided : trial.Finishes octets ∨ trial.Starves octets ∨
      trial.Supplies octets ∧
        ∃ struck < (preambleBytes + max octets.length 1 - 1) * byteTicks,
          trial.collision struck = true) :
    ∃ noticed nibbles finish ending,
      trial.Fate byteTicks preambleBytes jamBytes noticed nibbles finish ending := by
  rcases decided with finishes | starves | ⟨supplies, high, inTime, collides⟩
  · rcases trial.calm_or_first ((trial.frame octets).length * byteTicks) with
      calm | ⟨struck, before, first⟩
    · exact ⟨_, _, _, _, .sent finishes calm⟩
    · exact ⟨_, _, _, _, .jammed finishes.supplies first (.inl ⟨finishes.finished, before⟩)⟩
  · rcases trial.calm_or_first ((preambleBytes + octets.length) * byteTicks) with
      calm | ⟨struck, before, first⟩
    · exact ⟨_, _, _, _, .starved starves calm⟩
    · rcases Nat.lt_or_ge struck ((preambleBytes + max octets.length 1 - 1) * byteTicks) with
        inTime | late
      · exact ⟨_, _, _, _, .jammed starves.supplies first (.inr inTime)⟩
      · exact ⟨_, _, _, _, .starvedFirst starves first late before⟩
  · rcases trial.calm_or_first ((preambleBytes + max octets.length 1 - 1) * byteTicks) with
      calm | ⟨struck, before, first⟩
    · exact absurd collides (Bool.eq_false_iff.mp (calm high inTime))
    · exact ⟨_, _, _, _, .jammed supplies first (.inr before)⟩

/-- An attempt of an accepted configuration has a fate, unless its source goes on for ever and no
collision comes, and it runs as that tells as long as its nibbles can be counted. -/
theorem runs_as_fated {config : Config}
    (accepted : config.Accepted)
    (trial : Trial σ)
    (planned : LinePlan.ofConfig config = .ok trial.sequencer.plan) :
    (∀ octets, trial.Finishes octets ∨ trial.Starves octets ∨
        trial.Supplies octets ∧ (∃ struck < (config.preambleBytes.toNat +
          max octets.length 1 - 1) * config.byteTime, trial.collision struck = true) →
      ∃ noticed nibbles finish ending, trial.Fate config.byteTime config.preambleBytes.toNat
        config.jamBytes.toNat noticed nibbles finish ending) ∧
    ∀ noticed nibbles finish ending, nibbles.length < countLimit →
      trial.Fate config.byteTime config.preambleBytes.toNat config.jamBytes.toNat noticed
        nibbles finish ending →
      trial.Runs noticed nibbles finish ending := by
  have follows := LinePlan.follows_of_accepted accepted planned
  refine ⟨fun octets decided => exists_fate _ _ _ decided, ?_⟩
  intro noticed nibbles finish ending few fate
  rw [follows.byteTime, follows.preamble] at fate
  exact fate.runs follows.regular follows.jam few

/-- An attempt on a source that stalls after one octet, with the collision input high on one
tick, under the shortest timing but for a preamble of two bytes. -/
def stalling (struck : Nat) : Trial ScriptedSource where
  sequencer := {
    plan := {
      nibbleTicks := 1
      preambleBytes := 2
      preambleNibbles := 4
      jamNibbles := 2
      minFrame := 0 } }
  source := { frames := [{ entries := [.octet (.byte 0x42), .stall] }] }
  reading := fun tick => tick
  collision := fun tick => decide (tick = struck)

/-- A collision in the last octet is noticed and the attempt underflows; one that falls in the
delimiter brings a jam. -/
theorem stalling_as_fated :
    (stalling 5).Runs (some 5)
        (drivenNibbles (preambleOctets 2 ++ [.byte 0x42] ++ [.poisoned])) 8 .underflow ∧
      (stalling 3).Runs (some 3)
        (drivenNibbles (preambleOctets 2) ++ List.replicate 2 jamSignals) 6 .jammed := by
  have accepted : ({ Config.brief with preambleBytes := 2 } : Config).Accepted := by decide
  have first (struck : Nat) : (stalling struck).FirstCollision struck :=
    ⟨decide_eq_true rfl, fun tick before => decide_eq_false (Nat.ne_of_lt before)⟩
  have starves (struck : Nat) : (stalling struck).Starves [.byte 0x42] := by
    refine ⟨fun place octet found => ?_, rfl⟩
    match place with
    | 0 =>
        cases found
        rfl
    | place + 1 => cases found
  exact ⟨(runs_as_fated accepted (stalling 5) rfl).2 _ _ _ _ (by decide)
      (.starvedFirst (starves 5) (first 5) (by decide) (by decide)),
    (runs_as_fated accepted (stalling 3) rfl).2 _ _ _ _ (by decide)
      (.jammed (starves 3).supplies (first 3) (.inr (by decide)))⟩

end Trial

end HalfDuplex
