import HalfDuplex.Proofs.Acceptance
import HalfDuplex.Proofs.Outcomes
import HalfDuplex.Proofs.Session

/-!
# At most one delivery of each frame

On the test bench the receiver accepts a frame that is reported as sent exactly once, in the
burst that ends on the tick of the report, and it accepts no burst of a frame with another
outcome or with none so far.

Frames and reports are numbered in their order, from zero.  The frame in front has the number
of reports so far, so a burst belongs to the frame whose number is that of the reports before
the end of the burst (`Bench.acceptedOf`).  `Bench.Accounts` holds the books from tick to tick.
-/

namespace HalfDuplex

namespace Bench

variable {γ : Type}

/-- The number of reports before a tick. -/
def reportsBefore (bench : Bench γ) (now : Tick) : Nat :=
  bench.statuses.toList.countP fun report => report.1 < now

/-- What the receiver accepted of the frame with a number, each time with the tick on which the
burst ended. -/
def acceptedOf (bench : Bench γ) (number : Nat) : List (Tick × List UInt8) :=
  bench.receiver.accepted.filter fun accepted => bench.reportsBefore accepted.1 = number

/-- What became so far of the frame with a number: it is not reported and nothing of it was
accepted, or it is reported as sent and was accepted once, on the tick of the report, or it is
reported with another outcome and nothing of it was accepted. -/
inductive Fares (config : Config) (sent : List ScriptedFrame) (bench : Bench γ)
    (number : Nat) : Prop
  | unreported
      (unreported : bench.statuses[number]? = none)
      (unheard : bench.acceptedOf number = [])
  | delivered {tick : Tick} {frame : ScriptedFrame}
      (found : sent[number]? = some frame)
      (reported : bench.statuses[number]? = some (tick, Outcome.ok.indicators))
      (accepted : bench.acceptedOf number =
        [(tick, contentsOf config.minFrameBytes.toNat frame.entries)])
  | lost {tick : Tick} {frame : ScriptedFrame} {outcome : Outcome}
      (found : sent[number]? = some frame)
      (unsent : outcome ≠ .ok)
      (reported : bench.statuses[number]? = some (tick, outcome.indicators))
      (unheard : bench.acceptedOf number = [])

/-- The books of a bench. -/
structure Accounts (config : Config) (sent : List ScriptedFrame) (bench : Bench γ) : Prop where
  few : bench.statuses.size ≤ sent.length
  waiting : FrameStore.frames bench.engine.source =
    (sent.map ScriptedFrame.entries).drop bench.statuses.size
  reported : ∀ report ∈ bench.statuses, report.1 < bench.now
  heard : ∀ accepted ∈ bench.receiver.accepted, accepted.1 < bench.now
  fares : ∀ number, bench.Fares config sent number

/-- What a tick reports, and what the receiver accepts on it. -/
inductive Reports (config : Config) (bench next : Bench γ) : Prop
  | nothing
      (statuses : next.statuses = bench.statuses)
      (waiting : FrameStore.frames next.engine.source =
        FrameStore.frames bench.engine.source)
      (accepted : next.receiver.accepted = bench.receiver.accepted)
  | outcome {outcome : Outcome} {front : List ScriptEntry}
      (statuses : next.statuses = bench.statuses.push (bench.now, outcome.indicators))
      (released : FrameStore.frames bench.engine.source =
        front :: FrameStore.frames next.engine.source)
      (accepted : next.receiver.accepted = bench.receiver.accepted ++
        if outcome = .ok then [(bench.now, contentsOf config.minFrameBytes.toNat front)]
        else [])

variable {config : Config} {sent : List ScriptedFrame} {bench next : Bench γ} {number : Nat}

theorem reportsBefore_of_past
    (reported : ∀ report ∈ bench.statuses, report.1 < bench.now) :
    bench.reportsBefore bench.now = bench.statuses.size := by
  rw [reportsBefore, ← Array.length_toList, List.countP_eq_length]
  intro report member
  exact decide_eq_true (reported report (Array.mem_toList_iff.mp member))

/-- A report does not count before its own tick. -/
theorem reportsBefore_push {raised : Indicators} {tick : Tick}
    (statuses : next.statuses = bench.statuses.push (bench.now, raised))
    (before : tick ≤ bench.now) :
    next.reportsBefore tick = bench.reportsBefore tick := by
  have uncounted : ¬ bench.now < tick := Nat.not_lt.mpr before
  rw [reportsBefore, statuses, Array.toList_push, List.countP_append, List.countP_singleton,
    if_neg (by simpa using uncounted), Nat.add_zero]
  rfl

/-- What is accepted on the tick of a report belongs to the frame that is reported. -/
theorem acceptedOf_push {raised : Indicators} {more : List (Tick × List UInt8)}
    (accounts : bench.Accounts config sent)
    (statuses : next.statuses = bench.statuses.push (bench.now, raised))
    (accepted : next.receiver.accepted = bench.receiver.accepted ++ more)
    (current : ∀ accepted ∈ more, accepted.1 = bench.now)
    (number : Nat) :
    next.acceptedOf number =
      bench.acceptedOf number ++ if bench.statuses.size = number then more else [] := by
  -- The new report is not before anything that was accepted so far, nor before its own tick.
  have earlier : bench.receiver.accepted.filter
      (fun accepted => next.reportsBefore accepted.1 = number) = bench.acceptedOf number := by
    refine List.filter_congr fun accepted member => ?_
    rw [reportsBefore_push statuses (Nat.le_of_lt (accounts.heard accepted member))]
  have later : more.filter (fun accepted => next.reportsBefore accepted.1 = number) =
      if bench.statuses.size = number then more else [] := by
    have count : ∀ accepted ∈ more,
        next.reportsBefore accepted.1 = bench.statuses.size := by
      intro accepted member
      rw [current accepted member, reportsBefore_push statuses (Nat.le_refl _),
        reportsBefore_of_past accounts.reported]
    split
    · rename_i same
      rw [List.filter_eq_self]
      intro accepted member
      exact decide_eq_true ((count accepted member).trans same)
    · rename_i other
      rw [List.filter_eq_nil_iff]
      intro accepted member
      rw [count accepted member]
      simpa using other
  rw [acceptedOf, accepted, List.filter_append, earlier, later]

/-- The frame that is reported is the one in front. -/
theorem Accounts.front {front : List ScriptEntry} {rest : List (List ScriptEntry)}
    (accounts : bench.Accounts config sent)
    (held : FrameStore.frames bench.engine.source = front :: rest) :
    (∃ frame, sent[bench.statuses.size]? = some frame ∧ frame.entries = front) ∧
      rest = (sent.map ScriptedFrame.entries).drop (bench.statuses.size + 1) := by
  have dropped := accounts.waiting.symm.trans held
  constructor
  · have found : (sent.map ScriptedFrame.entries)[bench.statuses.size]? = some front := by
      rw [← List.head?_drop, dropped, List.head?_cons]
    rw [List.getElem?_map, Option.map_eq_some_iff] at found
    exact found
  · rw [← List.tail_drop, dropped, List.tail_cons]

/-- A frame keeps its fate when neither its report nor what was accepted of it changes. -/
theorem Fares.keeps {sentNext : List ScriptedFrame}
    (fares : bench.Fares config sent number)
    (frames : ∀ frame, sent[number]? = some frame → sentNext[number]? = some frame)
    (reported : next.statuses[number]? = bench.statuses[number]?)
    (accepted : next.acceptedOf number = bench.acceptedOf number) :
    next.Fares config sentNext number := by
  cases fares with
  | unreported unreported unheard =>
      exact .unreported (reported.trans unreported) (accepted.trans unheard)
  | delivered found report once =>
      exact .delivered (frames _ found) (reported.trans report) (accepted.trans once)
  | lost found unsent report unheard =>
      exact .lost (frames _ found) unsent (reported.trans report) (accepted.trans unheard)

theorem Fares.unheard_of_unreported
    (fares : bench.Fares config sent number)
    (unreported : bench.statuses[number]? = none) :
    bench.acceptedOf number = [] := by
  cases fares with
  | unreported _ unheard => exact unheard
  | delivered _ reported => cases unreported.symm.trans reported
  | lost _ _ reported => cases unreported.symm.trans reported

theorem Fares.accepted_of_ok {tick : Tick}
    (fares : bench.Fares config sent number)
    (reported : bench.statuses[number]? = some (tick, Outcome.ok.indicators)) :
    ∃ frame, sent[number]? = some frame ∧
      bench.acceptedOf number =
        [(tick, contentsOf config.minFrameBytes.toNat frame.entries)] := by
  cases fares with
  | unreported unreported => cases unreported.symm.trans reported
  | delivered found report once =>
      cases report.symm.trans reported
      exact ⟨_, found, once⟩
  | lost _ unsent report =>
      obtain ⟨_, same⟩ := Prod.mk.inj (Option.some.inj (report.symm.trans reported))
      exact absurd (Outcome.indicators_injective same) unsent

theorem Fares.unheard_of_lost {tick : Tick} {outcome : Outcome}
    (fares : bench.Fares config sent number)
    (unsent : outcome ≠ .ok)
    (reported : bench.statuses[number]? = some (tick, outcome.indicators)) :
    bench.acceptedOf number = [] := by
  cases fares with
  | unreported _ unheard => exact unheard
  | delivered _ report =>
      obtain ⟨_, same⟩ := Prod.mk.inj (Option.some.inj (reported.symm.trans report))
      exact absurd (Outcome.indicators_injective same) unsent
  | lost _ _ _ unheard => exact unheard

/-- A report settles the fate of the frame in front, and of no other one. -/
theorem Accounts.fares_push {outcome : Outcome} {frame : ScriptedFrame}
    (accounts : bench.Accounts config sent)
    (found : sent[bench.statuses.size]? = some frame)
    (statuses : next.statuses = bench.statuses.push (bench.now, outcome.indicators))
    (acceptedOf : next.acceptedOf number = bench.acceptedOf number ++
      if bench.statuses.size = number then
        if outcome = .ok then
          [(bench.now, contentsOf config.minFrameBytes.toNat frame.entries)]
        else []
      else []) :
    next.Fares config sent number := by
  by_cases same : bench.statuses.size = number
  · subst same
    have unheard : bench.acceptedOf bench.statuses.size = [] :=
      (accounts.fares _).unheard_of_unreported (Array.getElem?_size ..)
    have reported : next.statuses[bench.statuses.size]? =
        some (bench.now, outcome.indicators) := by
      rw [statuses, Array.getElem?_push_size]
    rw [unheard, List.nil_append, if_pos rfl] at acceptedOf
    by_cases ok : outcome = .ok
    · subst ok
      exact .delivered found reported acceptedOf
    · rw [if_neg ok] at acceptedOf
      exact .lost found ok reported acceptedOf
  · rw [if_neg same, List.append_nil] at acceptedOf
    refine (accounts.fares number).keeps (fun _ found => found) ?_ acceptedOf
    rw [statuses, Array.getElem?_push, if_neg (Ne.symm same)]

/-- A tick without a report keeps the books. -/
theorem Accounts.keeps
    (accounts : bench.Accounts config sent)
    (statuses : next.statuses = bench.statuses)
    (waiting : FrameStore.frames next.engine.source = FrameStore.frames bench.engine.source)
    (accepted : next.receiver.accepted = bench.receiver.accepted)
    (now : next.now = bench.now + 1) :
    next.Accounts config sent where
  few := by
    rw [statuses]
    exact accounts.few
  waiting := by
    rw [waiting, statuses]
    exact accounts.waiting
  reported := by
    rw [statuses, now]
    exact fun report member => Nat.lt_succ_of_lt (accounts.reported report member)
  heard := by
    rw [accepted, now]
    exact fun accepted member => Nat.lt_succ_of_lt (accounts.heard accepted member)
  fares number := by
    have acceptedOf : next.acceptedOf number = bench.acceptedOf number := by
      rw [Bench.acceptedOf, accepted]
      refine List.filter_congr fun accepted _ => ?_
      rw [reportsBefore, statuses]
      rfl
    refine (accounts.fares number).keeps (fun _ found => found) ?_ acceptedOf
    rw [statuses]

/-- A tick with a report keeps the books. -/
theorem Accounts.reports {outcome : Outcome} {front : List ScriptEntry}
    (accounts : bench.Accounts config sent)
    (statuses : next.statuses = bench.statuses.push (bench.now, outcome.indicators))
    (released : FrameStore.frames bench.engine.source =
      front :: FrameStore.frames next.engine.source)
    (accepted : next.receiver.accepted = bench.receiver.accepted ++
      if outcome = .ok then [(bench.now, contentsOf config.minFrameBytes.toNat front)] else [])
    (now : next.now = bench.now + 1) :
    next.Accounts config sent := by
  obtain ⟨⟨frame, found, entries⟩, waiting⟩ := accounts.front released
  have size : next.statuses.size = bench.statuses.size + 1 := by
    rw [statuses, Array.size_push]
  have current : ∀ accepted ∈ (if outcome = .ok then
      [(bench.now, contentsOf config.minFrameBytes.toNat front)] else []),
      accepted.1 = bench.now := by
    intro accepted member
    split at member
    · rw [List.mem_singleton.mp member]
    · cases member
  constructor
  case few =>
    rw [size]
    exact (List.getElem?_eq_some_iff.mp found).1
  case waiting =>
    rw [size]
    exact waiting
  case reported =>
    rw [statuses, now]
    intro report member
    rcases Array.mem_push.mp member with earlier | rfl
    · exact Nat.lt_succ_of_lt (accounts.reported report earlier)
    · exact Nat.lt_succ_self _
  case heard =>
    rw [accepted, now]
    intro accepted member
    rcases List.mem_append.mp member with earlier | last
    · exact Nat.lt_succ_of_lt (accounts.heard accepted earlier)
    · rw [current accepted last]
      exact Nat.lt_succ_self _
  case fares =>
    intro number
    have acceptedOf := acceptedOf_push accounts statuses accepted current number
    rw [← entries] at acceptedOf
    exact accounts.fares_push found statuses acceptedOf

/-- A tick keeps the books. -/
theorem Accounts.ticks
    (accounts : bench.Accounts config sent)
    (reports : bench.Reports config next)
    (now : next.now = bench.now + 1) :
    next.Accounts config sent := by
  cases reports with
  | nothing statuses waiting accepted => exact accounts.keeps statuses waiting accepted now
  | outcome statuses released accepted => exact accounts.reports statuses released accepted now

/-- Sending a frame keeps the books. -/
theorem Accounts.sends
    (accounts : bench.Accounts config sent)
    (frame : ScriptedFrame) :
    (bench.send frame).Accounts config (sent ++ [frame]) where
  few := by
    rw [List.length_append]
    exact Nat.le_add_right_of_le accounts.few
  waiting := by
    have grown : FrameStore.frames (bench.send frame).engine.source =
        FrameStore.frames bench.engine.source ++ [frame.entries] := by
      show (bench.engine.source.push frame).frames.map ScriptedFrame.entries = _
      rw [ScriptedSource.push, List.map_append]
      rfl
    have few : bench.statuses.size ≤ (sent.map ScriptedFrame.entries).length := by
      rw [List.length_map]
      exact accounts.few
    rw [grown, accounts.waiting, List.map_append]
    exact (List.drop_append_of_le_length few).symm
  reported := accounts.reported
  heard := accounts.heard
  fares number := by
    refine (accounts.fares number).keeps (fun known found => ?_) rfl rfl
    obtain ⟨inside, _⟩ := List.getElem?_eq_some_iff.mp found
    rw [List.getElem?_append_left inside]
    exact found

theorem accounts_of_setUp [WordSource γ] {words : γ}
    (setUp : (ofConfig config words).value = .ok (.ok bench)) :
    bench.Accounts config [] := by
  unfold ofConfig at setUp
  rw [Traced.value_bind_eq_ok_iff] at setUp
  obtain ⟨result, engineSetUp, made⟩ := setUp
  cases result with
  | error error => cases made
  | ok engine =>
      cases made
      obtain ⟨_, _, _, _, _, engineEqual⟩ := Engine.ofConfig_eq_ok engineSetUp
      refine ⟨Nat.le_refl 0, ?_, nofun, nofun, fun number => .unreported ?_ rfl⟩
      · rw [engineEqual]
        rfl
      · exact Array.getElem?_empty

variable [WordSource γ] {words : γ} {outputs : Outputs}

/-- A tick reports at most the frame in front, and exactly if it reports it as sent the receiver
accepts it. -/
theorem Reached.reports
    (reached : Reached config words sent bench)
    (steps : bench.Steps next outputs)
    (jams : 0 < config.jamBytes.toNat)
    (clean : ∀ front ∈ FrameStore.frames bench.engine.source, Clean front)
    (proof : ∀ front ∈ FrameStore.frames bench.engine.source,
      JamProof config.jamBytes.toNat (minLength config)
        (contentsOf config.minFrameBytes.toNat front)) :
    bench.Reports config next := by
  obtain ⟨run, follows⟩ := reached.follows
  obtain ⟨longer, followsNext, lastTick⟩ := follows.ticks steps
  have within : bench.now < longer.length := by
    rw [lastTick.length]
    exact Nat.lt_succ_self _
  have unread : FrameStore.cursor longer.source = 0 := by
    rw [followsNext.source]
    rfl
  have accepted : next.receiver.accepted = bench.receiver.accepted ++
      if outputs.status.ok then
        (FrameStore.frames bench.engine.source).head?.toList.map fun front =>
          (bench.now, contentsOf config.minFrameBytes.toNat front)
      else [] := by
    rw [← lastTick.entering] at clean proof
    have accepted := Run.accepted_succ followsNext.steady.consecutive unread
      followsNext.appends jams within clean proof
    dsimp only at accepted
    rw [lastTick.entering, lastTick.outputs, lastTick.reading] at accepted
    rw [← lastTick.receiver, ← lastTick.receiverNext]
    exact accepted
  have statuses := steps.statuses
  obtain ⟨_, resolves⟩ := Run.resolves followsNext.appends within
  cases resolves with
  | leaves unraised _ kept =>
      rw [lastTick.engine, lastTick.entering] at kept
      rw [lastTick.outputs] at unraised
      rw [unraised] at accepted statuses
      exact .nothing statuses kept (accepted.trans (List.append_nil _))
  | releases outcome front raised _ released =>
      rw [lastTick.engine, lastTick.entering] at released
      rw [lastTick.outputs] at raised
      rw [raised, if_neg outcome.indicators_ne] at statuses
      rw [raised, released] at accepted
      refine .outcome statuses released ?_
      rw [accepted]
      cases outcome <;> rfl

/-- The books of a session are kept. -/
theorem Reached.accounts
    (reached : Reached config words sent bench)
    (jams : 0 < config.jamBytes.toNat)
    (clean : ∀ frame ∈ sent, Clean frame.entries)
    (proof : ∀ frame ∈ sent,
      JamProof config.jamBytes.toNat (minLength config)
        (contentsOf config.minFrameBytes.toNat frame.entries)) :
    bench.Accounts config sent := by
  induction reached with
  | setUp setUp => exact accounts_of_setUp setUp
  | sends before frame inductionHypothesis =>
      have earlier := inductionHypothesis
        (fun known member => clean known (List.mem_append_left _ member))
        (fun known member => proof known (List.mem_append_left _ member))
      exact earlier.sends frame
  | collides | hears | forgets | awaits =>
      rename_i inductionHypothesis
      have same := inductionHypothesis clean proof
      exact ⟨same.few, same.waiting, same.reported, same.heard,
        fun number => (same.fares number).keeps (fun _ found => found) rfl rfl⟩
  | @ticks sent bench next outputs before steps inductionHypothesis =>
      have accounts := inductionHypothesis clean proof
      have known : ∀ front ∈ FrameStore.frames bench.engine.source,
          ∃ frame ∈ sent, frame.entries = front := by
        intro front member
        rw [accounts.waiting] at member
        exact List.mem_map.mp (List.mem_of_mem_drop member)
      refine accounts.ticks (before.reports steps jams ?_ ?_) steps.now
      · intro front member
        obtain ⟨frame, frameSent, rfl⟩ := known front member
        exact clean frame frameSent
      · intro front member
        obtain ⟨frame, frameSent, rfl⟩ := known front member
        exact proof frame frameSent

/-- At most one delivery.  After any session on the bench that no fault stopped, the frames that
wait are those sent after the reported ones.  Of a frame that is reported as sent the receiver
accepted exactly one burst, which ended on the tick of the report; of a frame with another
outcome, or with none so far, it accepted none. -/
theorem delivers_at_most_once {start final : Bench γ} {calls : List Call}
    (setUp : (ofConfig config words).value = .ok (.ok start))
    (jams : config.jamBytes ≠ 0)
    (performed : (start.performAll calls).value = .ok final)
    (clean : ∀ frame ∈ framesSent calls, Clean frame.entries)
    (proof : ∀ frame ∈ framesSent calls,
      JamProof config.jamBytes.toNat (minLength config)
        (contentsOf config.minFrameBytes.toNat frame.entries)) :
    FrameStore.frames final.engine.source =
        ((framesSent calls).map ScriptedFrame.entries).drop final.statuses.size ∧
      ∀ number, final.Fares config (framesSent calls) number := by
  have reached := (Reached.setUp setUp).performAll performed
  rw [List.nil_append] at reached
  have positive : 0 < config.jamBytes.toNat :=
    Nat.pos_of_ne_zero fun zero => jams (UInt32.toNat_inj.mp zero)
  have accounts := reached.accounts positive clean proof
  exact ⟨accounts.waiting, accounts.fares⟩

/-- The first attempt on the first frame meets a collision in its preamble.  The second frame
meets a late one on the last tick of its last byte, so that all of it is on the line before the
jam, and the source stalls in the third one. -/
def strainedCalls : List Call := [
  .send (.ofBytes [0xA5]), .collide 1, .runUntilOutcome 60,
  .send (.ofBytes [0x3C]), .collide 11,
  .send { entries := [.octet (.byte 0x96), .stall] },
  .send (.ofBytes [0x7E]), .run 60]

def strainedBench : Bench ZeroWords :=
  (session? .brief {} strainedCalls).get (by decide +kernel)

theorem delivers_at_most_once_strainedBench :
    session? .brief {} strainedCalls = some strainedBench ∧ Config.brief.jamBytes ≠ 0 ∧
      (∀ frame ∈ framesSent strainedCalls,
        Clean frame.entries ∧ JamProof 1 (minLength .brief) (contentsOf 0 frame.entries)) ∧
      strainedBench.statuses.toList =
        [(20, Outcome.ok.indicators), (36, Outcome.lateCollision.indicators),
          (44, Outcome.underflow.indicators), (58, Outcome.ok.indicators)] ∧
      strainedBench.receiver.bursts.toList.map (fun burst => (burst.start, burst.finish)) =
        [(2, 6), (8, 20), (22, 36), (38, 44), (46, 58)] ∧
      strainedBench.acceptedOf 0 = [(20, [0xA5])] ∧
      strainedBench.acceptedOf 1 = [] ∧ strainedBench.acceptedOf 2 = [] := by
  have jams : Config.brief.jamBytes ≠ 0 := by decide
  have clean : ∀ frame ∈ framesSent strainedCalls, Clean frame.entries := by decide +kernel
  have proof : ∀ frame ∈ framesSent strainedCalls,
      JamProof 1 (minLength .brief) (contentsOf 0 frame.entries) := by
    decide +kernel
  have session : session? .brief {} strainedCalls = some strainedBench :=
    (Option.some_get _).symm
  have reports : strainedBench.statuses.toList =
      [(20, Outcome.ok.indicators), (36, Outcome.lateCollision.indicators),
        (44, Outcome.underflow.indicators), (58, Outcome.ok.indicators)] := by
    decide +kernel
  obtain ⟨start, setUp, performed⟩ := start_of_session session
  obtain ⟨_, fares⟩ := delivers_at_most_once setUp jams performed clean proof
  have report (number : Nat) : strainedBench.statuses[number]? = _ :=
    (Array.getElem?_toList ..).symm.trans (congrArg (·[number]?) reports)
  refine ⟨session, jams, fun frame member => ⟨clean frame member, proof frame member⟩, reports,
    by decide +kernel, ?_, ?_, ?_⟩
  · obtain ⟨frame, found, once⟩ := (fares 0).accepted_of_ok (report 0)
    cases found
    exact once
  · have late : Outcome.lateCollision ≠ .ok := by decide
    exact (fares 1).unheard_of_lost late (report 1)
  · have starved : Outcome.underflow ≠ .ok := by decide
    exact (fares 2).unheard_of_lost starved (report 2)

/-- The collision window lasts as long as a frame of one octet, and the jam has no bytes. -/
def unjammed : Config := { Config.brief with jamBytes := 0, slotBytes := 6 }

/-- The first attempt meets a collision on the last tick of its last byte. -/
def unjammedCalls : List Call := [.send (.ofBytes [0xA5]), .collide 11, .runUntilOutcome 60]

def unjammedBench : Bench ZeroWords :=
  (session? unjammed {} unjammedCalls).get (by decide +kernel)

/-- A jam without bytes leaves the frame intact that was on the line in full when the collision was
noticed.  It is accepted, and so is the next attempt on it. -/
theorem delivered_twice_without_jam :
    unjammed.Accepted ∧ session? unjammed {} unjammedCalls = some unjammedBench ∧
      (∀ frame ∈ framesSent unjammedCalls,
        Clean frame.entries ∧ JamProof 0 (minLength unjammed) (contentsOf 0 frame.entries)) ∧
      unjammedBench.statuses.toList = [(28, Outcome.ok.indicators)] ∧
      unjammedBench.acceptedOf 0 = [(14, [0xA5]), (28, [0xA5])] ∧
      ¬ unjammedBench.Fares unjammed (framesSent unjammedCalls) 0 := by
  have accepted : unjammed.Accepted := by decide
  have known : ∀ frame ∈ framesSent unjammedCalls,
      Clean frame.entries ∧ JamProof 0 (minLength unjammed) (contentsOf 0 frame.entries) := by
    decide +kernel
  have twice : unjammedBench.acceptedOf 0 = [(14, [0xA5]), (28, [0xA5])] := by
    decide +kernel
  refine ⟨accepted, (Option.some_get _).symm, known, by decide +kernel, twice, fun fares => ?_⟩
  cases fares with
  | unreported _ unheard => cases twice.symm.trans unheard
  | delivered _ _ once =>
      obtain ⟨_, rest⟩ := List.cons.inj (twice.symm.trans once)
      cases rest
  | lost _ _ _ unheard => cases twice.symm.trans unheard

end Bench

end HalfDuplex
