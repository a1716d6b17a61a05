import HalfDuplex.Proofs.Attempt

/-!
# Scripted frames that starve an attempt

An attempt asks for one octet in a byte time.  What a scripted source answers then depends on
the frame in front alone: its end comes before its pace, and its pace before a stall.  The first
octet is not paced, so that a pace that is too slow for the line starves the attempt at the
second one, unless the frame is over by then.

`ScriptedFrame.starvesAt?` is the place at which that happens.  Where there is none the frame
is sent.

Main result: `Run.settles_as_scripted`.
-/

namespace HalfDuplex

/-- What holds of each item of a list and its place holds of one item more if it holds of that. -/
theorem forall_getElem?_concat {α : Type} {holds : Nat → α → Prop} {items : List α} {item : α}
    (all : ∀ place other, items[place]? = some other → holds place other)
    (last : holds items.length item) :
    ∀ place other, (items ++ [item])[place]? = some other → holds place other := by
  intro place other found
  rcases Nat.lt_trichotomy place items.length with before | rfl | past
  · rw [List.getElem?_append_left before] at found
    exact all place other found
  · rw [List.getElem?_concat_length] at found
    cases found
    exact last
  · rw [List.getElem?_eq_none (by rw [List.length_append]; exact past)] at found
    cases found

/-- How many octets an answer takes from the source. -/
def Pull.taken : Pull → Nat
  | .octet _ => 1
  | .finished | .starved => 0

namespace ScriptedFrame

/-- What the frame answers when it is asked for one octet after the other, once in a byte
time. -/
def reply (frame : ScriptedFrame) (byteTime : Tick) (place : Nat) : Pull :=
  match frame.entries[place]? with
  | none => .finished
  | some .stall => .starved
  | some (.octet octet) =>
      if 0 < place ∧ byteTime < frame.cadence then .starved else .octet octet

/-- The place at which an attempt on the frame starves, if it does. -/
def starvesAt? (frame : ScriptedFrame) (byteTime : Tick) : Option Nat :=
  if frame.entries[0]? = some .stall then
    some 0
  else if 2 ≤ frame.entries.length ∧ byteTime < frame.cadence then
    some 1
  else
    frame.entries.findIdx? (· = .stall)

/-- The frame answers its first places with these octets. -/
def Hands (frame : ScriptedFrame) (byteTime : Tick) (octets : List Octet) : Prop :=
  ∀ place octet, octets[place]? = some octet → frame.reply byteTime place = .octet octet

/-- For how many bytes an attempt on the frame lasts that meets no collision. -/
def attemptBytes (frame : ScriptedFrame) (config : Config) : Nat :=
  match frame.starvesAt? config.byteTime with
  | none =>
      config.preambleBytes.toNat + max frame.entries.length config.minFrameBytes.toNat +
        Checksum.trailerLength
  | some place => config.preambleBytes.toNat + place + 1

variable {frame : ScriptedFrame} {byteTime : Tick} {place : Nat} {octet : Octet}
  {octets : List Octet}

theorem Hands.of_append {more : List Octet}
    (hands : frame.Hands byteTime (octets ++ more)) :
    frame.Hands byteTime octets := by
  intro place octet found
  have within := (List.getElem?_eq_some_iff.mp found).1
  exact hands place octet ((List.getElem?_append_left within).trans found)

theorem exists_hands
    (supplies : ∀ earlier < place, ∃ octet, frame.reply byteTime earlier = .octet octet) :
    ∃ octets, octets.length = place ∧ frame.Hands byteTime octets := by
  induction place with
  | zero => exact ⟨[], rfl, nofun⟩
  | succ place inductionHypothesis =>
      obtain ⟨octets, rfl, hands⟩ :=
        inductionHypothesis fun earlier before => supplies earlier (Nat.lt_succ_of_lt before)
      obtain ⟨octet, reply⟩ := supplies octets.length (Nat.lt_succ_self _)
      exact ⟨octets ++ [octet], List.length_append, forall_getElem?_concat hands reply⟩

theorem reply_stall (found : frame.entries[place]? = some .stall) :
    frame.reply byteTime place = .starved := by
  simp only [reply, found]

theorem exists_reply
    (within : place < frame.entries.length)
    (unstalled : frame.entries[place]? ≠ some .stall)
    (quick : place = 0 ∨ frame.cadence ≤ byteTime) :
    ∃ octet, frame.reply byteTime place = .octet octet := by
  have found := List.getElem?_eq_getElem within
  have unpaced : ¬ (0 < place ∧ byteTime < frame.cadence) := by lia
  cases entry : frame.entries[place] with
  | octet octet =>
      rw [entry] at found
      refine ⟨octet, ?_⟩
      simp only [reply, found, if_neg unpaced]
  | stall =>
      rw [entry] at found
      exact absurd found unstalled

theorem reply_slow
    (within : place < frame.entries.length)
    (later : 0 < place)
    (slow : byteTime < frame.cadence) :
    frame.reply byteTime place = .starved := by
  have found := List.getElem?_eq_getElem within
  cases entry : frame.entries[place] with
  | octet octet =>
      rw [entry] at found
      simp only [reply, found, if_pos (And.intro later slow)]
  | stall =>
      rw [entry] at found
      exact reply_stall found

/-- A frame that is quick enough for the line is slow at no place that it has. -/
theorem quick_of_within
    (quick : ¬ (2 ≤ frame.entries.length ∧ byteTime < frame.cadence))
    (within : place < frame.entries.length) :
    place = 0 ∨ frame.cadence ≤ byteTime := by
  lia

/-- The place is the first one at which the frame does not supply an octet. -/
theorem starves_of_eq_some (starves : frame.starvesAt? byteTime = some place) :
    ∃ octets, octets.length = place ∧ frame.Hands byteTime octets ∧
      frame.reply byteTime place = .starved := by
  have first : (∀ earlier < place, ∃ octet, frame.reply byteTime earlier = .octet octet) ∧
      frame.reply byteTime place = .starved := by
    unfold starvesAt? at starves
    by_cases begins : frame.entries[0]? = some .stall
    · rw [if_pos begins] at starves
      cases starves
      exact ⟨nofun, reply_stall begins⟩
    · rw [if_neg begins] at starves
      by_cases slow : 2 ≤ frame.entries.length ∧ byteTime < frame.cadence
      · rw [if_pos slow] at starves
        cases starves
        refine ⟨fun earlier before => ?_, reply_slow slow.1 Nat.one_pos slow.2⟩
        obtain rfl := Nat.lt_one_iff.mp before
        exact exists_reply (Nat.lt_of_lt_of_le Nat.two_pos slow.1) begins (.inl rfl)
      · rw [if_neg slow] at starves
        obtain ⟨within, stall, earliest⟩ := List.findIdx?_eq_some_iff_getElem.mp starves
        refine ⟨fun earlier before => ?_, ?_⟩
        · have inside := Nat.lt_trans before within
          refine exists_reply inside ?_ (quick_of_within slow inside)
          rw [List.getElem?_eq_getElem inside]
          intro stalls
          exact earliest earlier before (decide_eq_true (Option.some.inj stalls))
        · apply reply_stall
          rw [List.getElem?_eq_getElem within, of_decide_eq_true stall]
  obtain ⟨octets, length, hands⟩ := exists_hands first.1
  exact ⟨octets, length, hands, first.2⟩

/-- Without such a place the frame supplies all its octets, and then it is over. -/
theorem finishes_of_eq_none (lasts : frame.starvesAt? byteTime = none) :
    ∃ octets, octets.length = frame.entries.length ∧ frame.Hands byteTime octets ∧
      frame.reply byteTime frame.entries.length = .finished := by
  unfold starvesAt? at lasts
  by_cases begins : frame.entries[0]? = some .stall
  · rw [if_pos begins] at lasts
    cases lasts
  · rw [if_neg begins] at lasts
    by_cases slow : 2 ≤ frame.entries.length ∧ byteTime < frame.cadence
    · rw [if_pos slow] at lasts
      cases lasts
    · rw [if_neg slow] at lasts
      have unstalled := List.findIdx?_eq_none_iff.mp lasts
      have supplies : ∀ place < frame.entries.length,
          ∃ octet, frame.reply byteTime place = .octet octet := by
        intro place before
        apply exists_reply before _ (quick_of_within slow before)
        rw [List.getElem?_eq_getElem before]
        intro stalls
        have entry := unstalled _ (List.getElem_mem before)
        exact of_decide_eq_false entry (Option.some.inj stalls)
      obtain ⟨octets, length, hands⟩ := exists_hands supplies
      have missing : frame.entries[frame.entries.length]? = none :=
        List.getElem?_eq_none (Nat.le_refl _)
      refine ⟨octets, length, hands, ?_⟩
      simp only [reply, missing]

end ScriptedFrame

namespace Trial

variable {trial : Trial ScriptedSource} {frame : ScriptedFrame} {octets : List Octet}
  {place finish : Nat}

/-- The source after it supplied a number of octets of its frame. -/
def readTo (trial : Trial ScriptedSource) (frame : ScriptedFrame) (place : Nat) :
    ScriptedSource where
  frames := [frame]
  cursor := place
  last :=
    match place with
    | 0 => none
    | earlier + 1 => some (trial.askedOn earlier)

/-- The attempt is made on a frame of which nothing has been read.  Up to a tick the timer grows
by one per tick, and there is no collision and no fault. -/
structure Undisturbed (trial : Trial ScriptedSource) (frame : ScriptedFrame)
    (finish : Nat) : Prop where
  regular : trial.sequencer.plan.Regular
  unread : trial.source = { frames := [frame] }
  steady : ∀ tick < finish, trial.reading tick = trial.reading 0 + tick
  calm : ∀ tick < finish, trial.collision tick = false
  sound : trial.Sound finish

/-- The octets of a frame are asked for at intervals of a byte time. -/
theorem Undisturbed.askedOn_succ
    (undisturbed : trial.Undisturbed frame finish)
    (within : (trial.sequencer.plan.preambleBytes + (place + 1)) * trial.byteTicks < finish) :
    trial.askedOn (place + 1) = trial.askedOn place + trial.byteTicks := by
  have span : (trial.sequencer.plan.preambleBytes + (place + 1)) * trial.byteTicks =
      (trial.sequencer.plan.preambleBytes + place) * trial.byteTicks + trial.byteTicks := by
    rw [← Nat.add_assoc, Nat.succ_mul]
  have earlier : (trial.sequencer.plan.preambleBytes + place) * trial.byteTicks < finish :=
    Nat.lt_of_le_of_lt (span ▸ Nat.le_add_right _ _) within
  calc
    trial.askedOn (place + 1) = trial.reading 0 +
        (trial.sequencer.plan.preambleBytes + (place + 1)) * trial.byteTicks :=
      undisturbed.steady _ within
    _ = trial.reading 0 + (trial.sequencer.plan.preambleBytes + place) * trial.byteTicks +
        trial.byteTicks := by
      rw [span, Nat.add_assoc]
    _ = trial.askedOn place + trial.byteTicks := by
      rw [askedOn, undisturbed.steady _ earlier]

/-- The pace of a frame is measured from the last octet, a byte time before. -/
theorem Undisturbed.heldBack {early : Bool}
    (undisturbed : trial.Undisturbed frame finish)
    (within : (trial.sequencer.plan.preambleBytes + place) * trial.byteTicks < finish)
    (held : (trial.readTo frame place).heldBack frame.cadence (trial.askedOn place) =
      .ok early) :
    early = decide (0 < place ∧ trial.byteTicks < frame.cadence) := by
  cases place with
  | zero =>
      cases held
      exact (decide_eq_false fun later => Nat.lt_irrefl 0 later.1).symm
  | succ earlier =>
      have apart := undisturbed.askedOn_succ within
      replace held : Except.bind (checkedAdd wideLimit (trial.askedOn earlier) frame.cadence)
        (fun due => .ok (decide (trial.askedOn (earlier + 1) < due))) = .ok early := held
      cases sum : checkedAdd wideLimit (trial.askedOn earlier) frame.cadence with
      | error fault =>
          rw [sum] at held
          cases held
      | ok due =>
          obtain ⟨_, rfl⟩ := checkedAdd_eq_ok_iff.mp sum
          rw [sum] at held
          cases held
          simp only [apart, Nat.add_lt_add_iff_left, Nat.zero_lt_succ, true_and]

/-- What the source answers to an attempt that has taken all octets before. -/
theorem Undisturbed.pull {after : ScriptedSource} {answer : Pull}
    (undisturbed : trial.Undisturbed frame finish)
    (within : (trial.sequencer.plan.preambleBytes + place) * trial.byteTicks < finish)
    (pulled : ByteSource.pull (trial.readTo frame place) (trial.askedOn place) =
      .ok (after, answer)) :
    answer = frame.reply trial.byteTicks place ∧
      after = trial.readTo frame (place + answer.taken) := by
  replace pulled : ScriptedSource.pull _ _ = _ := pulled
  unfold ScriptedFrame.reply
  cases found : frame.entries[place]? with
  | none =>
      simp only [ScriptedSource.pull, readTo, found] at pulled
      cases pulled
      exact ⟨rfl, rfl⟩
  | some entry =>
      cases held : (trial.readTo frame place).heldBack frame.cadence (trial.askedOn place) with
      | error fault =>
          simp only [ScriptedSource.pull, readTo, found] at pulled held
          rw [held] at pulled
          cases pulled
      | ok early =>
          have paced := undisturbed.heldBack within held
          simp only [ScriptedSource.pull, readTo, found] at pulled held
          rw [held] at pulled
          cases early with
          | true =>
              cases pulled
              have slow := of_decide_eq_true paced.symm
              cases entry with
              | octet octet => exact ⟨(if_pos slow).symm, rfl⟩
              | stall => exact ⟨rfl, rfl⟩
          | false =>
              have quick := of_decide_eq_false paced.symm
              cases entry with
              | octet octet =>
                  cases pulled
                  exact ⟨(if_neg quick).symm, rfl⟩
              | stall =>
                  cases pulled
                  exact ⟨rfl, rfl⟩

theorem Undisturbed.answers
    (undisturbed : trial.Undisturbed frame finish)
    (within : (trial.sequencer.plan.preambleBytes + octets.length) * trial.byteTicks < finish)
    (supplies : trial.Supplies octets)
    (asked : trial.asked octets.length = .ok (trial.readTo frame octets.length)) :
    trial.answer octets.length = .ok (frame.reply trial.byteTicks octets.length) ∧
      trial.asked (octets.length + 1) = .ok (trial.readTo frame
        (octets.length + (frame.reply trial.byteTicks octets.length).taken)) := by
  obtain ⟨answer, answers⟩ := supplies.answers undisturbed.regular
    (fun tick before => undisturbed.calm tick (Nat.lt_trans before within))
    (undisturbed.sound.earlier within)
  obtain ⟨after, pulled, askedNext⟩ := pull_of_answer asked answers
  obtain ⟨rfl, rfl⟩ := undisturbed.pull within pulled
  exact ⟨answers, askedNext⟩

/-- An attempt is handed the octets that its frame hands out. -/
theorem Undisturbed.supplies
    (undisturbed : trial.Undisturbed frame finish)
    (within : (trial.sequencer.plan.preambleBytes + octets.length) * trial.byteTicks < finish)
    (hands : frame.Hands trial.byteTicks octets) :
    trial.Supplies octets ∧
      trial.asked octets.length = .ok (trial.readTo frame octets.length) := by
  induction octets using List.reverseRecOn with
  | nil => exact ⟨nofun, congrArg Except.ok undisturbed.unread⟩
  | append_singleton octets octet inductionHypothesis =>
      have length : (octets ++ [octet]).length = octets.length + 1 := List.length_append
      rw [length] at within ⊢
      have sooner : (trial.sequencer.plan.preambleBytes + octets.length) * trial.byteTicks <
          finish :=
        Nat.lt_of_le_of_lt (Nat.mul_le_mul_right _ (Nat.le_succ _)) within
      obtain ⟨supplies, asked⟩ := inductionHypothesis sooner hands.of_append
      obtain ⟨answer, askedNext⟩ := undisturbed.answers sooner supplies asked
      have reply := hands octets.length octet List.getElem?_concat_length
      rw [reply] at answer askedNext
      exact ⟨forall_getElem?_concat supplies answer, askedNext⟩

/-- An attempt on a frame that does not starve it is sent. -/
theorem Undisturbed.sends
    (lasts : frame.starvesAt? trial.byteTicks = none)
    (undisturbed : trial.Undisturbed frame ((trial.sequencer.plan.preambleBytes +
      max frame.entries.length trial.sequencer.plan.minFrame + Checksum.trailerLength) *
        trial.byteTicks)) :
    ∃ nibbles, trial.Runs none nibbles ((trial.sequencer.plan.preambleBytes +
      max frame.entries.length trial.sequencer.plan.minFrame + Checksum.trailerLength) *
        trial.byteTicks) .sent := by
  have regular := undisturbed.regular
  have positive : 0 < trial.byteTicks := Nat.mul_pos Nat.two_pos regular.nibblePositive
  obtain ⟨octets, length, hands, reply⟩ := ScriptedFrame.finishes_of_eq_none lasts
  rw [← length] at reply undisturbed ⊢
  have span := length_frameOctets regular.preamblePositive trial.sequencer.plan.minFrame octets
  rw [← span] at undisturbed ⊢
  have within : (trial.sequencer.plan.preambleBytes + octets.length) * trial.byteTicks <
      (trial.frame octets).length * trial.byteTicks := by
    apply Nat.mul_lt_mul_of_pos_right _ positive
    rw [span, Checksum.trailerLength]
    omega
  obtain ⟨supplies, asked⟩ := undisturbed.supplies within hands
  obtain ⟨answer, _⟩ := undisturbed.answers within supplies asked
  rw [reply] at answer
  have finishes : trial.Finishes octets := ⟨supplies, answer⟩
  have few := finishes.few regular undisturbed.calm undisturbed.sound
  exact ⟨_, (finishes.runs regular undisturbed.calm few).1⟩

/-- An attempt on a frame that starves it drives the octets before, and the error marker. -/
theorem Undisturbed.starves
    (starves : frame.starvesAt? trial.byteTicks = some place)
    (undisturbed : trial.Undisturbed frame
      ((trial.sequencer.plan.preambleBytes + place + 1) * trial.byteTicks)) :
    (∃ octets, octets.length = place ∧ trial.Runs none
        (drivenNibbles (preambleOctets trial.sequencer.plan.preambleBytes ++ octets ++
          [.poisoned]))
        ((trial.sequencer.plan.preambleBytes + place + 1) * trial.byteTicks) .underflow) ∧
      ∃ last, trial.entering ((trial.sequencer.plan.preambleBytes + place + 1) *
        trial.byteTicks) = .ok (last, trial.readTo frame place) := by
  have regular := undisturbed.regular
  have positive : 0 < trial.byteTicks := Nat.mul_pos Nat.two_pos regular.nibblePositive
  obtain ⟨octets, rfl, hands, reply⟩ := ScriptedFrame.starves_of_eq_some starves
  have within : (trial.sequencer.plan.preambleBytes + octets.length) * trial.byteTicks <
      (trial.sequencer.plan.preambleBytes + octets.length + 1) * trial.byteTicks :=
    Nat.mul_lt_mul_of_pos_right (Nat.lt_succ_self _) positive
  have calm (tick : Nat) (before : tick <
      (trial.sequencer.plan.preambleBytes + octets.length) * trial.byteTicks) :
      trial.collision tick = false :=
    undisturbed.calm tick (Nat.lt_trans before within)
  obtain ⟨supplies, asked⟩ := undisturbed.supplies within hands
  obtain ⟨answer, askedNext⟩ := undisturbed.answers within supplies asked
  rw [reply] at answer askedNext
  have starves : trial.Starves octets := ⟨supplies, answer⟩
  obtain ⟨runs, last, after, enters, askedThen⟩ := starves.runs regular (strikes_of_calm calm)
    (by
      intro _ struck
      cases struck)
    (starves.few regular calm undisturbed.sound)
  cases askedThen.symm.trans askedNext
  exact ⟨⟨octets, rfl, runs⟩, last, enters⟩

end Trial

/-! ## In a run -/

/-- The error marker is driven for a byte time, with transmit enable and the error signal. -/
theorem lineImage_marker {nibbleTicks offset : Nat} (bytes : List Octet)
    (within : offset < 2 * nibbleTicks) :
    let signals := lineImage nibbleTicks (drivenNibbles (bytes ++ [.poisoned]))
      (bytes.length * (2 * nibbleTicks) + offset)
    signals.enable = true ∧ signals.error = true ∧
      signals.clockEnable = decide (offset % nibbleTicks = 0) := by
  have positive : 0 < nibbleTicks := by omega
  have start : bytes.length * (2 * nibbleTicks) = (drivenNibbles bytes).length * nibbleTicks := by
    rw [length_drivenNibbles, Nat.mul_comm 2 bytes.length, Nat.mul_assoc]
  rw [start, drivenNibbles_append, lineImage_append_add _ _ _ positive]
  obtain ⟨signals, member, image⟩ :=
    @exists_mem_lineImage nibbleTicks offset (drivenNibbles [.poisoned]) within
  rw [image]
  rcases List.mem_pair.mp member with rfl | rfl
  · exact ⟨rfl, rfl, rfl⟩
  · exact ⟨rfl, rfl, rfl⟩

namespace Run

variable {config : Config} {γ : Type} [WordSource γ] {run : Run config ScriptedSource γ}
  {frame : ScriptedFrame} {rest : List ScriptedFrame} {start finish duration place : Nat}
  {early gap : Tick}

/-- The source starves the attempt that starts on a tick, after it supplied a number of octets. -/
structure StarvesFrame (run : Run config ScriptedSource γ) (frame : ScriptedFrame)
    (start finish place : Nat) : Prop where
  settles : run.SettlesFrame frame start finish .underflow
  taken : (run.entering start).source.cursor = 0 ∧ (run.entering finish).source.cursor = place
  marked : ∀ offset < config.byteTime,
    let signals := (run.outputs (finish - config.byteTime + offset)).signals
    signals.enable = true ∧ signals.error = true ∧
      signals.clockEnable = decide (offset % config.nibbleTicks = 0)
  received : ∀ minLength, (run.receiver minLength (finish + 1)).bursts =
    (run.receiver minLength start).bursts.push {
      start := run.reading start
      finish := run.reading finish
      result := .error .frameCheck }

section

variable (timing : config.Timing early gap)
  (consecutive : run.Consecutive)
  (unread : run.source.cursor = 0 ∧ run.source.last = none)
  (appends : ∀ tick, tick < run.length → FrameStore.Appends (run.supply tick))
  (starts : run.Starts start)

include timing consecutive unread appends starts

/-- An attempt starts on a frame of which nothing has been read, with the receiver silent. -/
theorem fresh_of_starts (minLength : Nat) (within : start < run.length) :
    (run.entering start).source.cursor = 0 ∧ (run.entering start).source.last = none ∧
      (run.receiver minLength start).active = none := by
  have idle := idle_of_starts timing consecutive within starts
  have spaced := run.spaced timing unread.2
    (fun tick before => appends tick (Nat.lt_trans before within)) (Nat.le_of_lt within)
  have unpaced : (run.engine start).source.last = none := by
    cases pulled : (run.engine start).source.last with
    | none => rfl
    | some last => exact absurd idle (spaced last pulled).active
  have last : (run.entering start).source.last = none :=
    (ScriptedSource.last_of_appends (appends start within) _).trans unpaced
  have delivers : run.Delivers minLength start :=
    run.delivers timing consecutive unread.1 appends (Nat.le_of_lt within)
  cases delivers with
  | idle _ cursor silent =>
      exact ⟨((appends start within).cursor _).trans cursor, last, silent⟩
  | writing driven => exact absurd idle driven.active
  | lost _ driven => exact absurd idle driven.active

/-- The attempt that starts on a tick without a collision, on its own. -/
theorem undisturbed_attempt
    (held : (run.entering start).source.frames = frame :: rest)
    (calm : ∀ tick, start ≤ tick → tick < start + duration →
      (run.inputs tick).collision = false)
    (within : start + duration < run.length) :
    (run.attempt start).Undisturbed frame duration := by
  have began : start < run.length := Nat.lt_of_le_of_lt (Nat.le_add_right _ _) within
  have planned := (run.conforms (Nat.le_of_lt began)).plan
  obtain ⟨cursor, last, _⟩ := fresh_of_starts timing consecutive unread appends starts 0 began
  constructor
  case regular => exact (LinePlan.follows_of_accepted run.accepted planned).regular
  case unread =>
    show ScriptedSource.front.apply (run.entering start).source = _
    rw [ScriptedSource.front_apply held, cursor, last]
  case steady =>
    intro tick before
    show run.reading (start + tick) = run.reading (start + 0) + tick
    exact consecutive.reading tick (Nat.lt_trans (Nat.add_lt_add_left before start) within)
  case calm =>
    exact fun tick before => calm _ (Nat.le_add_right _ _) (Nat.add_lt_add_left before start)
  case sound =>
    exact sound_attempt timing consecutive appends starts held (Nat.le_of_lt within)

/-- The source starves an attempt on a frame with a place that does so. -/
theorem starves_attempt
    (held : (run.entering start).source.frames = frame :: rest)
    (starves : frame.starvesAt? config.byteTime = some place)
    (undisturbed : (run.attempt start).Undisturbed frame
      ((config.preambleBytes.toNat + place + 1) * config.byteTime))
    (within : start + (config.preambleBytes.toNat + place + 1) * config.byteTime < run.length) :
    run.StarvesFrame frame start
      (start + (config.preambleBytes.toNat + place + 1) * config.byteTime) place := by
  have began : start < run.length := Nat.lt_of_le_of_lt (Nat.le_add_right _ _) within
  have follows : (run.attempt start).sequencer.plan.Follows config :=
    LinePlan.follows_of_accepted run.accepted (run.conforms (Nat.le_of_lt began)).plan
  have byteTime : (run.attempt start).byteTicks = config.byteTime := follows.byteTime.symm
  have nibbleTime : (run.attempt start).nibbleTicks = config.nibbleTicks :=
    plan_nibbleTicks (Nat.le_of_lt began)
  have begun : 0 < (config.preambleBytes.toNat + place + 1) * config.byteTime :=
    Nat.mul_pos (Nat.succ_pos _) timing.byteTime_pos
  rw [← byteTime] at starves
  rw [← byteTime, follows.preamble] at undisturbed
  obtain ⟨⟨octets, length, runs⟩, last, enters⟩ := undisturbed.starves starves
  rw [byteTime, ← follows.preamble] at runs enters
  have progress := inProgress_of_runs timing consecutive appends starts held begun
    (Nat.le_of_lt within) runs
  have bytes : (preambleOctets config.preambleBytes.toNat ++ octets).length =
      config.preambleBytes.toNat + place := by
    rw [length_preambled timing.preambleBytes_pos, length]
  constructor
  case settles =>
    exact settles_attempt timing consecutive appends starts held (.inr ⟨rfl, rfl⟩) begun within runs
  case taken =>
    have stands := Except.ok.inj (progress.enters.symm.trans enters)
    have cursor : (run.engine _).source.cursor = place :=
      congrArg (fun standing => standing.2.cursor) stands
    exact ⟨(fresh_of_starts timing consecutive unread appends starts 0 began).1,
      ((appends _ within).cursor _).trans cursor⟩
  case marked =>
    intro offset inside
    have span : (config.preambleBytes.toNat + place + 1) * config.byteTime =
        (config.preambleBytes.toNat + place) * config.byteTime + config.byteTime :=
      Nat.succ_mul _ _
    have before : (config.preambleBytes.toNat + place) * config.byteTime + offset <
        (config.preambleBytes.toNat + place + 1) * config.byteTime := by
      rw [span]
      exact Nat.add_lt_add_left inside _
    have signals := signals_attempt timing consecutive appends starts held begun within runs
      (Nat.le_of_lt before) (runs.shown _ before)
    have tick : start + (config.preambleBytes.toNat + place + 1) * config.byteTime -
        config.byteTime + offset =
          start + ((config.preambleBytes.toNat + place) * config.byteTime + offset) := by
      rw [span, ← Nat.add_assoc, Nat.add_sub_cancel, Nat.add_assoc]
    rw [← byteTime] at inside
    have marker := lineImage_marker (preambleOctets config.preambleBytes.toNat ++ octets) inside
    rw [bytes, show 2 * (run.attempt start).nibbleTicks = config.byteTime from byteTime] at marker
    rw [tick, signals, ← nibbleTime]
    exact marker
  case received =>
    intro minLength
    have silent := (fresh_of_starts timing consecutive unread appends starts minLength began).2.2
    have took := runs.took follows.regular.nibblePositive begun
      (fun _ member => enable_of_mem_drivenNibbles member) silent
    rw [received_attempt timing consecutive appends starts held begun within runs (Nat.le_refl _)]
      at took
    rw [Nat.add_assoc, Except.ok.inj took, Receiver.took, nibble_drivenNibbles,
      decode_marked]
    rfl

end

/-- What comes of the attempt that starts on a tick and meets no collision, told by the entries
and the pace of the frame in front.  If no place of it starves the attempt, the frame is sent.
Otherwise the attempt underflows a byte time after it asked for the octet of that place.  It has
taken the octets before from the source and ends with the error marker, so that a receiver finds
the checksum wrong.  Either way the frame is released, and no further attempt is made of it. -/
theorem settles_as_scripted
    (consecutive : run.Consecutive)
    (unread : run.source.cursor = 0 ∧ run.source.last = none)
    (appends : ∀ tick, tick < run.length → FrameStore.Appends (run.supply tick))
    (starts : run.Starts start)
    (held : (run.entering start).source.frames = frame :: rest)
    (lasts : finish = start + frame.attemptBytes config * config.byteTime)
    (within : finish < run.length)
    (calm : ∀ tick, start ≤ tick → tick < finish → (run.inputs tick).collision = false) :
    match frame.starvesAt? config.byteTime with
    | none => run.SettlesFrame frame start finish .ok
    | some place => run.StarvesFrame frame start finish place := by
  obtain ⟨early, gap, timing⟩ := run.accepted.timing
  subst lasts
  have began : start < run.length := Nat.lt_of_le_of_lt (Nat.le_add_right _ _) within
  have follows : (run.attempt start).sequencer.plan.Follows config :=
    LinePlan.follows_of_accepted run.accepted (run.conforms (Nat.le_of_lt began)).plan
  have undisturbed := undisturbed_attempt timing consecutive unread appends starts held calm within
  have positive : 0 < (run.attempt start).byteTicks :=
    Nat.mul_pos Nat.two_pos follows.regular.nibblePositive
  cases starves : frame.starvesAt? config.byteTime with
  | none =>
      have bytes : frame.attemptBytes config = config.preambleBytes.toNat +
          max frame.entries.length config.minFrameBytes.toNat + Checksum.trailerLength := by
        rw [ScriptedFrame.attemptBytes, starves]
      rw [bytes, follows.byteTime, follows.preamble, follows.minFrame] at undisturbed within ⊢
      rw [follows.byteTime] at starves
      obtain ⟨nibbles, runs⟩ := undisturbed.sends starves
      refine settles_attempt timing consecutive appends starts held (.inl ⟨rfl, rfl⟩) ?_ within runs
      have trailer : 0 < Checksum.trailerLength := by decide
      exact Nat.mul_pos (Nat.add_pos_right _ trailer) positive
  | some place =>
      have bytes : frame.attemptBytes config = config.preambleBytes.toNat + place + 1 := by
        rw [ScriptedFrame.attemptBytes, starves]
      rw [bytes] at undisturbed within ⊢
      exact starves_attempt timing consecutive unread appends starts held starves undisturbed within

/-- Three frames that are paced too slowly for the line.  The first one is over before that
matters, the second one starves at its second octet, and a stall comes ahead of that in the third
one. -/
def pacedFrames : List ScriptedFrame :=
  [{ entries := [.octet (.byte 0xA5)], cadence := 3 },
    { entries := [.octet (.byte 0x5A), .octet (.byte 0x69), .stall], cadence := 3 },
    { entries := [.stall, .octet (.byte 0x96)], cadence := 3 }]

def pacedScenario : Scenario ScriptedSource ZeroWords where
  source := { frames := pacedFrames }
  words := {}

def pacedRun : Run Config.brief ScriptedSource ZeroWords :=
  (pacedScenario.run? .brief 30).get (by decide +kernel)

theorem settles_as_scripted_pacedRun :
    pacedRun.Steady ∧ (pacedRun.source.cursor = 0 ∧ pacedRun.source.last = none) ∧
      (∀ tick, tick < pacedRun.length → FrameStore.Appends (pacedRun.supply tick)) ∧
      (pacedRun.Starts 2 ∧ pacedRun.SettlesFrame pacedFrames[0] 2 14 .ok) ∧
      (pacedRun.Starts 16 ∧ pacedRun.StarvesFrame pacedFrames[1] 16 22 1) ∧
      pacedRun.Starts 24 ∧ pacedRun.StarvesFrame pacedFrames[2] 24 28 0 := by
  have steady : pacedRun.Steady := fun tick _ => (Nat.zero_add tick).symm
  have unread : pacedRun.source.cursor = 0 ∧ pacedRun.source.last = none := ⟨rfl, rfl⟩
  have appends : ∀ tick, tick < pacedRun.length → FrameStore.Appends (pacedRun.supply tick) :=
    fun _ _ => ⟨[], fun _ => rfl⟩
  have starts : pacedRun.Starts 2 ∧ pacedRun.Starts 16 ∧ pacedRun.Starts 24 := by
    decide +kernel
  have held : (pacedRun.entering 2).source.frames = pacedFrames ∧
      (pacedRun.entering 16).source.frames = pacedFrames.drop 1 ∧
      (pacedRun.entering 24).source.frames = pacedFrames.drop 2 := by
    decide +kernel
  have lasts : 14 = 2 + pacedFrames[0].attemptBytes .brief * Config.brief.byteTime ∧
      22 = 16 + pacedFrames[1].attemptBytes .brief * Config.brief.byteTime ∧
      28 = 24 + pacedFrames[2].attemptBytes .brief * Config.brief.byteTime :=
    ⟨rfl, rfl, rfl⟩
  refine ⟨steady, unread, appends, ⟨starts.1, ?_⟩, ⟨starts.2.1, ?_⟩, starts.2.2, ?_⟩
  · exact settles_as_scripted steady.consecutive unread appends starts.1 held.1 lasts.1
      (by decide +kernel) (fun _ _ _ => rfl)
  · exact settles_as_scripted steady.consecutive unread appends starts.2.1 held.2.1 lasts.2.1
      (by decide +kernel) (fun _ _ _ => rfl)
  · exact settles_as_scripted steady.consecutive unread appends starts.2.2 held.2.2 lasts.2.2
      (by decide +kernel) (fun _ _ _ => rfl)

end Run

end HalfDuplex
