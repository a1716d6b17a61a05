import HalfDuplex.Proofs.Progress

/-!
# The first tick on which a transmission may start

The deferral timer is an automaton with a memory, and what it decides can be said without
it.  From a gap that begins on a tick, transmission may start when the line was quiet for
the early part of a gap and the rest of the gap has passed, whatever was heard meanwhile:
`FirstQuiet` names the first tick from which the line is quiet for that long.  From then on
it may start until carrier is heard, and the next gap begins after that tick.

`Deferral.allows` is the answer of a timer that is ticked on each tick from one on.
`Seeks` is its invariant up to the first answer in the affirmative, and `Open` after it.

Main result: `Deferral.ready_after_first_quiet`.
-/

namespace HalfDuplex

/-- The line is quiet for a span of ticks from `first` on. -/
def QuietFrom (carrier : Tick → Bool) (span first : Tick) : Prop :=
  ∀ tick, first ≤ tick → tick < first + span → carrier tick = false

/-- The first tick, not before `since`, from which the line is quiet for a span of ticks. -/
structure FirstQuiet (carrier : Tick → Bool) (span since first : Tick) : Prop where
  begun : since ≤ first
  quiet : QuietFrom carrier span first
  earlier : ∀ other, since ≤ other → other < first → ¬ QuietFrom carrier span other

/-- A line that was heard is quiet from none of the ticks shortly before. -/
theorem not_quietFrom {carrier : Tick → Bool} {span first heard : Tick}
    (busy : carrier heard = true)
    (atMost : first ≤ heard)
    (near : heard < first + span) :
    ¬ QuietFrom carrier span first := by
  intro quiet
  cases busy.symm.trans (quiet heard atMost near)

theorem FirstQuiet.unique {carrier : Tick → Bool} {span since first other : Tick}
    (firstQuiet : FirstQuiet carrier span since first)
    (otherQuiet : FirstQuiet carrier span since other) :
    first = other := by
  rcases Nat.lt_trichotomy first other with before | same | after
  · exact absurd firstQuiet.quiet (otherQuiet.earlier first firstQuiet.begun before)
  · exact same
  · exact absurd otherQuiet.quiet (firstQuiet.earlier other otherQuiet.begun after)

namespace Deferral

/-- The timer as it enters the tick `start + count`, ticked on each tick from `start` on. -/
def entering (timer : Deferral) (carrier : Tick → Bool) (start : Tick) :
    (count : Nat) → Except Fault Deferral
  | 0 => .ok timer
  | count + 1 => do
      let timer ← timer.entering carrier start count
      (timer.tick (start + count) (carrier (start + count))).value.map Prod.fst

/-- The timer after the tick `start + count` and whether a transmission may start on it, with
the timer ticked on each tick from `start` on. -/
def listens (timer : Deferral) (carrier : Tick → Bool) (start : Tick) (count : Nat) :
    Except Fault (Deferral × Bool) := do
  let timer ← timer.entering carrier start count
  (timer.tick (start + count) (carrier (start + count))).value

/-- Whether a transmission may start on the tick `start + count`, as far as the timer that is
ticked on each tick from `start` on can tell. -/
def allows (timer : Deferral) (carrier : Tick → Bool) (start : Tick) (count : Nat) :
    Except Fault Bool :=
  (timer.listens carrier start count).map Prod.snd

variable {timer entered next : Deferral} {carrier : Tick → Bool} {start now : Tick}
  {count : Nat} {ready : Bool}

theorem entering_succ (timer : Deferral) (carrier : Tick → Bool) (start : Tick) (count : Nat) :
    timer.entering carrier start (count + 1) =
      (timer.listens carrier start count).map Prod.fst := by
  rw [entering, listens]
  cases timer.entering carrier start count <;> rfl

theorem entering_succ_of_listens
    (listens : timer.listens carrier start count = .ok (next, ready)) :
    timer.entering carrier start (count + 1) = .ok next := by
  rw [entering_succ, listens]
  rfl

theorem listens_of_entering
    (entering : timer.entering carrier start count = .ok entered) :
    timer.listens carrier start count =
      (entered.tick (start + count) (carrier (start + count))).value := by
  rw [listens, entering]
  rfl

theorem listens_eq_ok_iff :
    timer.listens carrier start count = .ok (next, ready) ↔
      ∃ entered, timer.entering carrier start count = .ok entered ∧
        (entered.tick (start + count) (carrier (start + count))).value = .ok (next, ready) := by
  constructor
  · intro listens
    cases entering : timer.entering carrier start count with
    | error =>
        rw [Deferral.listens, entering] at listens
        cases listens
    | ok entered => exact ⟨entered, rfl, (listens_of_entering entering).symm.trans listens⟩
  · rintro ⟨entered, entering, ticks⟩
    rw [listens_of_entering entering, ticks]

theorem advances_of_listens
    (listens : timer.listens carrier start count = .ok (next, ready)) :
    ∃ entered, timer.entering carrier start count = .ok entered ∧
      Advances (start + count) (carrier (start + count)) entered next ready := by
  obtain ⟨entered, enters, ticks⟩ := listens_eq_ok_iff.mp listens
  exact ⟨entered, enters, (tick_yields (Traced.yields_of_value ticks)).1⟩

theorem allows_eq_ok_iff :
    timer.allows carrier start count = .ok ready ↔
      ∃ next, timer.listens carrier start count = .ok (next, ready) := by
  unfold allows
  cases timer.listens carrier start count with
  | error => simp [Except.map]
  | ok result => simp [Except.map, Prod.ext_iff]

/-- A timer that enters a tick was ticked on the one before. -/
theorem listens_of_entering_succ
    (entering : timer.entering carrier start (count + 1) = .ok next) :
    ∃ ready, timer.listens carrier start count = .ok (next, ready) := by
  rw [entering_succ] at entering
  cases listens : timer.listens carrier start count with
  | error =>
      rw [listens] at entering
      cases entering
  | ok result =>
      rw [listens] at entering
      cases entering
      exact ⟨result.2, rfl⟩

theorem spans_of_entering
    (entering : timer.entering carrier start count = .ok entered) :
    entered.earlyTicks = timer.earlyTicks ∧ entered.gapTicks = timer.gapTicks := by
  induction count generalizing entered with
  | zero =>
      cases entering
      exact ⟨rfl, rfl⟩
  | succ count inductionHypothesis =>
      obtain ⟨ready, listens⟩ := listens_of_entering_succ entering
      obtain ⟨before, enters, advances⟩ := advances_of_listens listens
      obtain ⟨early, gap⟩ := inductionHypothesis enters
      exact ⟨advances.spans.1.trans early, advances.spans.2.trans gap⟩

/-- Ticking goes on from any tick as it would from the first one. -/
theorem listens_add
    (entering : timer.entering carrier start count = .ok entered) (more : Nat) :
    timer.listens carrier start (count + more) =
      entered.listens carrier (start + count) more := by
  have enters : timer.entering carrier start (count + more) =
      entered.entering carrier (start + count) more := by
    induction more with
    | zero => exact entering
    | succ more inductionHypothesis =>
        show timer.entering carrier start (count + more + 1) = _
        rw [Deferral.entering, Deferral.entering, inductionHypothesis, Nat.add_assoc start]
  rw [listens, listens, enters, Nat.add_assoc]

/-! ## The search for a quiet line -/

/-- Where the timer stands before the gap is over that it began with, or one after it: no
quiet line was met so far, or the first one was and the late part of the gap runs. -/
inductive Seeks (timer : Deferral) (carrier : Tick → Bool) (start : Tick) (count : Nat)
    (entered : Deferral) : Prop
  | early {since : Nat}
      (begun : since ≤ count)
      (within : count ≤ since + timer.earlyTicks)
      (quiet : ∀ tick, start + since ≤ tick → tick < start + count → carrier tick = false)
      (unmet : ∀ other, start ≤ other → other < start + since →
        ¬ QuietFrom carrier timer.earlyTicks other)
      (state : entered.state = .early (start + since))
  | late {since : Nat}
      (met : FirstQuiet carrier timer.earlyTicks start (start + since))
      (past : since + timer.earlyTicks < count)
      (within : count ≤ since + timer.gapTicks)
      (state : entered.state = .late (start + since))

namespace Seeks

theorem initially (state : timer.state = .early start) :
    timer.Seeks carrier start 0 timer := by
  refine .early (Nat.le_refl 0) (Nat.zero_le _) ?_ ?_ state
  · intro tick atLeast before
    lia
  · intro other atLeast before
    lia

/-- The first quiet line is met when the early part of a gap lapses. -/
theorem firstQuiet {since : Nat}
    (quiet : ∀ tick, start + since ≤ tick → tick < start + count → carrier tick = false)
    (unmet : ∀ other, start ≤ other → other < start + since →
      ¬ QuietFrom carrier timer.earlyTicks other)
    (lapsed : count = since + timer.earlyTicks) :
    FirstQuiet carrier timer.earlyTicks start (start + since) where
  begun := Nat.le_add_right _ _
  quiet := fun tick atLeast before => quiet tick atLeast (by lia)
  earlier := unmet

/-- A tick either goes on seeking or is the last one of the gap after the first quiet line. -/
theorem advance
    (shorter : timer.earlyTicks < timer.gapTicks)
    (spans : entered.earlyTicks = timer.earlyTicks ∧ entered.gapTicks = timer.gapTicks)
    (seeks : timer.Seeks carrier start count entered)
    (advances : Advances (start + count) (carrier (start + count)) entered next ready) :
    (ready = false ∧ timer.Seeks carrier start (count + 1) next) ∨
      (ready = true ∧ ∃ wait, FirstQuiet carrier timer.earlyTicks start (start + wait) ∧
        count = wait + timer.gapTicks) := by
  obtain ⟨earlyTicks, gapTicks⟩ := spans
  cases seeks with
  | early begun within quiet unmet state =>
      rename_i since
      rcases Nat.lt_or_eq_of_le within with early | lapsed
      · have inEarly : start + count < start + since + entered.earlyTicks := by lia
        obtain ⟨notReady, goesTo⟩ := advances.early state inEarly
        refine .inl ⟨notReady, ?_⟩
        cases heard : carrier (start + count) with
        | true =>
            -- No window that holds this tick is quiet, so that the first one begins after it.
            rw [heard, if_pos rfl] at goesTo
            refine .early (Nat.le_refl _) (Nat.le_add_right _ _) ?_ ?_ goesTo
            · intro tick atLeast before
              lia
            · intro other atLeast before
              by_cases known : other < start + since
              · exact unmet other atLeast known
              · exact not_quietFrom heard (by lia) (by lia)
        | false =>
            rw [heard, if_neg Bool.false_ne_true] at goesTo
            refine .early (by lia) (by lia) ?_ unmet goesTo
            intro tick atLeast before
            by_cases known : tick < start + count
            · exact quiet tick atLeast known
            · have last : tick = start + count := by lia
              rw [last, heard]
      · -- The early part is over, and this very tick already counts as one of the late part.
        have past : entered.Past (start + count) (start + since) := .inr ⟨state, by lia⟩
        have late := advances.late past
        rw [if_neg (by lia)] at late
        exact .inl ⟨late.1, .late (firstQuiet quiet unmet lapsed) (by lia) (by lia) late.2⟩
  | late met past within state =>
      rename_i since
      have late := advances.late (.inl state)
      by_cases complete : start + since + entered.gapTicks ≤ start + count
      · rw [if_pos complete] at late
        exact .inr ⟨late.1, since, met, by lia⟩
      · rw [if_neg complete] at late
        exact .inl ⟨late.1, .late met (by lia) (by lia) late.2⟩

/-- The timer seeks no longer than to the end of the gap after the first quiet line. -/
theorem soon {wait : Nat}
    (shorter : timer.earlyTicks < timer.gapTicks)
    (met : FirstQuiet carrier timer.earlyTicks start (start + wait))
    (seeks : timer.Seeks carrier start count entered) :
    count ≤ wait + timer.gapTicks := by
  cases seeks with
  | early begun within quiet unmet state =>
      rename_i since
      have notPast : since ≤ wait := Nat.le_of_not_lt fun past =>
        unmet _ met.begun (by lia) met.quiet
      lia
  | late otherMet past within state =>
      rename_i since
      have same : start + since = start + wait := otherMet.unique met
      lia

/-- Short of the end of the gap after the first quiet line, a tick cannot fail. -/
theorem succeeds_of_met {wait : Nat}
    (shorter : timer.earlyTicks < timer.gapTicks)
    (spans : entered.earlyTicks = timer.earlyTicks ∧ entered.gapTicks = timer.gapTicks)
    (met : FirstQuiet carrier timer.earlyTicks start (start + wait))
    (room : start + wait + timer.gapTicks < wideLimit)
    (seeks : timer.Seeks carrier start count entered) :
    (entered.tick (start + count) (carrier (start + count))).Succeeds := by
  obtain ⟨earlyTicks, gapTicks⟩ := spans
  unfold tick
  cases seeks with
  | early begun within quiet unmet state =>
      rename_i since
      have notPast : since ≤ wait := Nat.le_of_not_lt fun past =>
        unmet _ met.begun (by lia) met.quiet
      rw [state]
      exact tickEarly_succeeds (by lia) (by lia) fun _ => by lia
  | late otherMet past within state =>
      rename_i since
      have same : start + since = start + wait := otherMet.unique met
      rw [state]
      exact tickLate_succeeds (by lia)

/-- A tick that leaves room for the early part of a gap cannot fail as long as there is no
quiet line. -/
theorem succeeds_of_unmet
    (positive : 0 < timer.earlyTicks)
    (spans : entered.earlyTicks = timer.earlyTicks ∧ entered.gapTicks = timer.gapTicks)
    (never : ∀ first, ¬ FirstQuiet carrier timer.earlyTicks start first)
    (room : start + count + timer.earlyTicks < wideLimit)
    (seeks : timer.Seeks carrier start count entered) :
    (entered.tick (start + count) (carrier (start + count))).Succeeds := by
  obtain ⟨earlyTicks, gapTicks⟩ := spans
  unfold tick
  cases seeks with
  | early begun within quiet unmet state =>
      rename_i since
      have early : count ≠ since + timer.earlyTicks := fun lapsed =>
        never _ (firstQuiet quiet unmet lapsed)
      rw [state]
      exact tickEarly_succeeds (by lia) (by lia) fun lapsed => by lia
  | late met past within state => exact absurd met (never _)

end Seeks

/-- The timer seeks as long as it has not allowed a transmission. -/
theorem seeks_of_entering
    (state : timer.state = .early start)
    (shorter : timer.earlyTicks < timer.gapTicks)
    (unready : ∀ earlier < count, timer.allows carrier start earlier ≠ .ok true)
    (entering : timer.entering carrier start count = .ok entered) :
    timer.Seeks carrier start count entered := by
  induction count generalizing entered with
  | zero =>
      cases entering
      exact .initially state
  | succ count inductionHypothesis =>
      obtain ⟨ready, listens⟩ := listens_of_entering_succ entering
      obtain ⟨before, enters, advances⟩ := advances_of_listens listens
      have seeks := inductionHypothesis (fun earlier within => unready earlier (by lia)) enters
      rcases seeks.advance shorter (spans_of_entering enters) advances with
        ⟨_, goesOn⟩ | ⟨opened, _⟩
      · exact goesOn
      · have allowed : timer.allows carrier start count = .ok true :=
          allows_eq_ok_iff.mpr ⟨entered, opened ▸ listens⟩
        exact absurd allowed (unready count (Nat.lt_succ_self count))

/-- A transmission is allowed only after the gap that follows the first quiet line. -/
theorem firstQuiet_of_allows
    (state : timer.state = .early start)
    (shorter : timer.earlyTicks < timer.gapTicks)
    (allowed : timer.allows carrier start count = .ok true) :
    ∃ wait, FirstQuiet carrier timer.earlyTicks start (start + wait) ∧
      wait + timer.gapTicks ≤ count := by
  induction count using Nat.strongRecOn with
  | ind count inductionHypothesis =>
      by_cases before : ∃ earlier < count, timer.allows carrier start earlier = .ok true
      · obtain ⟨earlier, within, earlierAllowed⟩ := before
        obtain ⟨wait, met, past⟩ := inductionHypothesis earlier within earlierAllowed
        exact ⟨wait, met, by lia⟩
      · obtain ⟨next, listens⟩ := allows_eq_ok_iff.mp allowed
        obtain ⟨entered, enters, advances⟩ := advances_of_listens listens
        have seeks := seeks_of_entering state shorter
          (fun earlier within allowed => before ⟨earlier, within, allowed⟩) enters
        rcases seeks.advance shorter (spans_of_entering enters) advances with
          ⟨notReady, _⟩ | ⟨_, wait, met, complete⟩
        · cases notReady
        · exact ⟨wait, met, by lia⟩

/-- A timer that can be ticked on each of the first ticks enters the tick after them. -/
theorem entering_of_succeeds
    (succeeds : ∀ earlier < count, ∀ entered, timer.entering carrier start earlier = .ok entered →
      (entered.tick (start + earlier) (carrier (start + earlier))).Succeeds) :
    ∃ entered, timer.entering carrier start count = .ok entered := by
  induction count with
  | zero => exact ⟨timer, rfl⟩
  | succ count inductionHypothesis =>
      obtain ⟨entered, enters⟩ :=
        inductionHypothesis fun earlier within => succeeds earlier (by lia)
      obtain ⟨⟨next, ready⟩, ticks⟩ := succeeds count (Nat.lt_succ_self count) entered enters
      exact ⟨next, entering_succ_of_listens ((listens_of_entering enters).trans ticks)⟩

theorem listens_of_succeeds
    (succeeds : ∀ earlier ≤ count, ∀ entered, timer.entering carrier start earlier = .ok entered →
      (entered.tick (start + earlier) (carrier (start + earlier))).Succeeds) :
    ∃ next ready, timer.listens carrier start count = .ok (next, ready) := by
  obtain ⟨entered, enters⟩ :=
    entering_of_succeeds fun earlier within => succeeds earlier (Nat.le_of_lt within)
  obtain ⟨⟨next, ready⟩, ticks⟩ := succeeds count (Nat.le_refl count) entered enters
  exact ⟨next, ready, (listens_of_entering enters).trans ticks⟩

/-! ## Around the first quiet line -/

section

variable {wait : Nat}

theorem le_of_allows
    (state : timer.state = .early start)
    (shorter : timer.earlyTicks < timer.gapTicks)
    (met : FirstQuiet carrier timer.earlyTicks start (start + wait))
    (allowed : timer.allows carrier start count = .ok true) :
    wait + timer.gapTicks ≤ count := by
  obtain ⟨otherWait, otherMet, past⟩ := firstQuiet_of_allows state shorter allowed
  have same : start + otherWait = start + wait := otherMet.unique met
  lia

/-- The timer allows a transmission when the gap after the first quiet line is over, and not
before. -/
theorem allows_of_met
    (state : timer.state = .early start)
    (shorter : timer.earlyTicks < timer.gapTicks)
    (met : FirstQuiet carrier timer.earlyTicks start (start + wait))
    (room : start + wait + timer.gapTicks < wideLimit)
    (within : count ≤ wait + timer.gapTicks) :
    timer.allows carrier start count = .ok (decide (count = wait + timer.gapTicks)) := by
  have seeks {earlier : Nat} {entered : Deferral} (soon : earlier ≤ count)
      (enters : timer.entering carrier start earlier = .ok entered) :
      timer.Seeks carrier start earlier entered := by
    refine seeks_of_entering state shorter (fun before isBefore allowed => ?_) enters
    have late := le_of_allows state shorter met allowed
    lia
  have succeeds {earlier : Nat} (soon : earlier ≤ count) {entered : Deferral}
      (enters : timer.entering carrier start earlier = .ok entered) :
      (entered.tick (start + earlier) (carrier (start + earlier))).Succeeds :=
    (seeks soon enters).succeeds_of_met shorter (spans_of_entering enters) met room
  obtain ⟨next, ready, listens⟩ := listens_of_succeeds fun _ soon _ => succeeds soon
  obtain ⟨entered, enters, advances⟩ := advances_of_listens listens
  refine allows_eq_ok_iff.mpr ⟨next, ?_⟩
  rcases (seeks (Nat.le_refl count) enters).advance shorter (spans_of_entering enters)
    advances with ⟨rfl, goesOn⟩ | ⟨rfl, otherWait, otherMet, complete⟩
  · have before : count ≠ wait + timer.gapTicks := by
      have pending := goesOn.soon shorter met
      lia
    rw [decide_eq_false before, listens]
  · have same : start + otherWait = start + wait := otherMet.unique met
    rw [decide_eq_true (show count = wait + timer.gapTicks by lia), listens]

end

/-- Without a quiet line the timer allows nothing, and says so as long as it can tell when the
early part of a gap is over. -/
theorem allows_of_unmet
    (state : timer.state = .early start)
    (shorter : timer.earlyTicks < timer.gapTicks)
    (positive : 0 < timer.earlyTicks)
    (never : ∀ first, ¬ FirstQuiet carrier timer.earlyTicks start first)
    (room : start + count + timer.earlyTicks < wideLimit) :
    timer.allows carrier start count = .ok false := by
  have unready (count : Nat) : timer.allows carrier start count ≠ .ok true := by
    intro allowed
    obtain ⟨wait, met, _⟩ := firstQuiet_of_allows state shorter allowed
    exact never _ met
  have succeeds {earlier : Nat} (soon : earlier ≤ count) {entered : Deferral}
      (enters : timer.entering carrier start earlier = .ok entered) :
      (entered.tick (start + earlier) (carrier (start + earlier))).Succeeds := by
    have seeks := seeks_of_entering state shorter (fun before _ => unready before) enters
    exact seeks.succeeds_of_unmet positive (spans_of_entering enters) never (by lia)
  obtain ⟨next, ready, listens⟩ := listens_of_succeeds fun _ soon _ => succeeds soon
  have answers : timer.allows carrier start count = .ok ready :=
    allows_eq_ok_iff.mpr ⟨next, listens⟩
  cases ready with
  | false => exact answers
  | true => exact absurd answers (unready count)

/-! ## After the gap -/

theorem Advances.open_of_ready {heard : Bool} (advances : Advances now heard timer next true) :
    next.Open := by
  cases advances with
  | staysOpen => exact .inl rfl
  | opens => exact .inr rfl

theorem tick_open_quiet (gapOver : timer.Open) :
    (timer.tick now false).value = .ok (timer.moved .idle, true) := by
  rcases gapOver with state | state <;>
  · rw [tick, state]
    rfl

theorem tick_open_busy (gapOver : timer.Open) (room : now + 1 < wideLimit) :
    (timer.tick now true).value = .ok (timer.moved (.early (now + 1)), false) := by
  have begins : (timer.tickQuiet now true).value =
      .ok (timer.moved (.early (now + 1)), false) := by
    rw [tickQuiet, if_pos rfl, restart_of_lt room]
    rfl
  rcases gapOver with state | state <;>
  · rw [tick, state]
    exact begins

/-- The timer stays open on the quiet ticks after one on which it allowed a transmission. -/
theorem open_of_allows {later : Nat}
    (allowed : timer.allows carrier start count = .ok true)
    (after : count < later)
    (quiet : ∀ tick, start + count < tick → tick < start + later → carrier tick = false) :
    ∃ opened, timer.entering carrier start later = .ok opened ∧ opened.Open := by
  obtain ⟨more, rfl⟩ := Nat.exists_eq_add_of_lt after
  induction more with
  | zero =>
      obtain ⟨next, listens⟩ := allows_eq_ok_iff.mp allowed
      obtain ⟨_, _, advances⟩ := advances_of_listens listens
      exact ⟨next, entering_succ_of_listens listens, advances.open_of_ready⟩
  | succ more inductionHypothesis =>
      obtain ⟨opened, enters, gapOver⟩ :=
        inductionHypothesis (by lia) fun tick isAfter before => quiet tick isAfter (by lia)
      have listens := listens_of_entering enters
      rw [quiet (start + (count + more + 1)) (by lia) (by lia), tick_open_quiet gapOver]
        at listens
      exact ⟨opened.moved .idle, entering_succ_of_listens listens, .inl rfl⟩

/-- What the timer does on a tick before which it has been open. -/
theorem listens_of_open {later : Nat}
    (allowed : timer.allows carrier start count = .ok true)
    (after : count < later)
    (quiet : ∀ tick, start + count < tick → tick < start + later → carrier tick = false) :
    (carrier (start + later) = false → timer.allows carrier start later = .ok true) ∧
      (carrier (start + later) = true → start + later + 1 < wideLimit →
        timer.listens carrier start later =
          .ok (timer.moved (.early (start + later + 1)), false)) := by
  obtain ⟨opened, enters, gapOver⟩ := open_of_allows allowed after quiet
  have listens := listens_of_entering enters
  constructor
  · intro heard
    rw [heard, tick_open_quiet gapOver] at listens
    exact allows_eq_ok_iff.mpr ⟨_, listens⟩
  · intro heard room
    rw [heard, tick_open_busy gapOver room] at listens
    obtain ⟨earlyTicks, gapTicks⟩ := spans_of_entering enters
    rw [listens, moved, moved, earlyTicks, gapTicks]

/-- When a timer allows a transmission that is in a gap that begins on the tick `start`. -/
structure FirstReady (timer : Deferral) (carrier : Tick → Bool) (start : Tick) : Prop where
  /-- After the first quiet line it does so at the end of the gap, and on no tick before. -/
  due : ∀ wait, FirstQuiet carrier timer.earlyTicks start (start + wait) →
    (∀ count, timer.allows carrier start count = .ok true → wait + timer.gapTicks ≤ count) ∧
      (start + wait + timer.gapTicks < wideLimit → ∀ count ≤ wait + timer.gapTicks,
        timer.allows carrier start count = .ok (decide (count = wait + timer.gapTicks)))
  /-- Without a quiet line it never does. -/
  never : (∀ first, ¬ FirstQuiet carrier timer.earlyTicks start first) → ∀ count,
    timer.allows carrier start count ≠ .ok true ∧
      (start + count + timer.earlyTicks < wideLimit →
        timer.allows carrier start count = .ok false)
  /-- Once it does, it does so for as long as the line stays quiet. -/
  stays : ∀ count later, timer.allows carrier start count = .ok true → count < later →
    (∀ tick, start + count < tick → tick ≤ start + later → carrier tick = false) →
      timer.allows carrier start later = .ok true

theorem firstReady_of_early
    (state : timer.state = .early start)
    (shorter : timer.earlyTicks < timer.gapTicks)
    (positive : 0 < timer.earlyTicks) :
    timer.FirstReady carrier start where
  due := fun _ met =>
    ⟨fun _ allowed => le_of_allows state shorter met allowed,
      fun room _ within => allows_of_met state shorter met room within⟩
  never := by
    intro never count
    refine ⟨fun allowed => ?_, allows_of_unmet state shorter positive never⟩
    obtain ⟨wait, met, _⟩ := firstQuiet_of_allows state shorter allowed
    exact never _ met
  stays := by
    intro count later allowed after quiet
    have opens := listens_of_open allowed after fun tick isAfter before =>
      quiet tick isAfter (Nat.le_of_lt before)
    exact opens.1 (quiet (start + later) (by lia) (Nat.le_refl _))

/-- The timer of an accepted configuration first allows a transmission at the end of the gap
that begins with the first quiet line.  Carrier that it hears while it is open closes it, and
leaves the timer that a gap begins with on the next tick. -/
theorem ready_after_first_quiet {config : Config} (accepted : config.Accepted)
    (carrier : Tick → Bool) (start : Tick) :
    ∃ early gap timer, config.earlyTicks = .ok early ∧ config.gapTicks = .ok gap ∧
      ofConfig config start = .ok timer ∧
      timer = { earlyTicks := early, gapTicks := gap, state := .early start } ∧
      timer.FirstReady carrier start ∧
      ∀ count later, timer.allows carrier start count = .ok true → count < later →
        (∀ tick, start + count < tick → tick < start + later → carrier tick = false) →
        carrier (start + later) = true → start + later + 1 < wideLimit →
          ∃ again, ofConfig config (start + later + 1) = .ok again ∧
            timer.listens carrier start later = .ok (again, false) ∧
            again.FirstReady carrier (start + later + 1) ∧
            ∀ more, timer.listens carrier start (later + 1 + more) =
              again.listens carrier (start + (later + 1)) more := by
  obtain ⟨early, gap, timing⟩ := accepted.timing
  have setUp (now : Tick) : ofConfig config now =
      .ok { earlyTicks := early, gapTicks := gap, state := .early now } := by
    rw [ofConfig, timing.earlyTicks_eq, timing.gapTicks_eq]
    rfl
  refine ⟨early, gap, _, timing.earlyTicks_eq, timing.gapTicks_eq, setUp start, rfl, ?_, ?_⟩
  · exact firstReady_of_early rfl timing.early_lt_gap timing.early_pos
  · intro count later allowed after quiet heard room
    have closes := (listens_of_open allowed after quiet).2 heard room
    refine ⟨_, setUp _, closes, ?_, ?_⟩
    · exact firstReady_of_early rfl timing.early_lt_gap timing.early_pos
    · exact listens_add (entering_succ_of_listens closes)

/-- Ten-megabit Ethernet, a gap that begins on tick 5, and carrier on ten ticks of its early
part: the line is first quiet from tick 30 on.  The timer allows a transmission 92 ticks later
although there is carrier again, and stays open when that ends. -/
theorem first_ready_of_default :
    ∃ timer carrier, ofConfig {} 5 = .ok timer ∧ FirstQuiet carrier 64 5 30 ∧
      carrier 122 = true ∧ timer.allows carrier 5 116 = .ok false ∧
      timer.allows carrier 5 117 = .ok true ∧ timer.allows carrier 5 118 = .ok true := by
  let carrier : Tick → Bool := fun tick =>
    decide (20 ≤ tick ∧ tick < 30 ∨ 110 ≤ tick ∧ tick < 123)
  have met : FirstQuiet carrier 64 5 30 := by
    refine ⟨by decide, ?_, ?_⟩
    · intro tick atLeast before
      exact decide_eq_false (by lia)
    · intro other atLeast before
      by_cases early : other < 20
      · exact not_quietFrom (show carrier 20 = true by decide) (by lia) (by lia)
      · exact not_quietFrom (show carrier 29 = true by decide) (by lia) (by lia)
  obtain ⟨early, gap, timer, earlyTicks, gapTicks, setUp, rfl, ready, _⟩ :=
    ready_after_first_quiet (show ({} : Config).Accepted by decide) carrier 5
  obtain rfl : 64 = early := Except.ok.inj earlyTicks
  obtain rfl : 92 = gap := Except.ok.inj gapTicks
  have due := (ready.due 25 met).2 (by decide)
  have opens := due 117 (by decide)
  refine ⟨_, carrier, setUp, met, by decide, due 116 (by decide), opens, ?_⟩
  refine ready.stays 117 118 opens (by decide) fun tick isAfter before => ?_
  exact decide_eq_false (by lia)

end Deferral

end HalfDuplex
