import HalfDuplex.Deferral
import HalfDuplex.Proofs.Marks

/-!
# The transitions of the deferral timer

`Advances` lists what a tick of the deferral timer can do, and `tick_yields` reads it
off a tick that ran through.  A tick in the early part of a gap may find that the late
part began, and even that the whole gap is over; `Past` therefore covers both parts.
-/

namespace HalfDuplex

namespace Deferral

def moved (timer : Deferral) (state : DeferralState) : Deferral :=
  { timer with state }

/-- The gap was completed on an earlier tick. -/
def Open (timer : Deferral) : Prop :=
  timer.state = .idle ∨ timer.state = .ready

/-- At `now` the early part of the gap that began at `since` is over. -/
def Past (timer : Deferral) (now since : Tick) : Prop :=
  timer.state = .late since ∨
    timer.state = .early since ∧ since + timer.earlyTicks ≤ now

/-- What a tick of the deferral timer can do. -/
inductive Advances (now : Tick) (carrier : Bool) (timer : Deferral) :
    Deferral → Bool → Prop
  | staysOpen
      (gapOver : timer.Open)
      (quiet : carrier = false) :
      Advances now carrier timer (timer.moved .idle) true
  | closes
      (gapOver : timer.Open)
      (busy : carrier = true) :
      Advances now carrier timer (timer.moved (.early (now + 1))) false
  | waits {since : Tick}
      (state : timer.state = .early since)
      (early : now < since + timer.earlyTicks)
      (quiet : carrier = false) :
      Advances now carrier timer timer false
  | restarts {since : Tick}
      (state : timer.state = .early since)
      (early : now < since + timer.earlyTicks)
      (busy : carrier = true) :
      Advances now carrier timer (timer.moved (.early (now + 1))) false
  | runsOn {since : Tick}
      (past : timer.Past now since)
      (pending : now < since + timer.gapTicks) :
      Advances now carrier timer (timer.moved (.late since)) false
  | opens {since : Tick}
      (past : timer.Past now since)
      (complete : since + timer.gapTicks ≤ now) :
      Advances now carrier timer (timer.moved .ready) true

theorem restart_eq_ok_iff {timer next : Deferral} {now : Tick} :
    timer.restart now = .ok next ↔
      now + 1 < wideLimit ∧ timer.moved (.early (now + 1)) = next := by
  unfold restart checkedAdd moved
  split
  · simp [bind, Except.bind, pure, Except.pure, *]
  · simp [bind, Except.bind, *]

theorem tickQuiet_yields {timer next : Deferral} {now : Tick} {carrier ready : Bool}
    {events : List Event}
    (gapOver : timer.Open)
    (yields : (timer.tickQuiet now carrier).Yields events (next, ready)) :
    Advances now carrier timer next ready ∧ marksOf now events = [] := by
  unfold tickQuiet at yields
  split at yields
  · rename_i busy
    simp only [Traced.yields_bind, Traced.yields_record, Traced.yields_lift,
      Traced.yields_pure, Prod.mk.injEq, restart_eq_ok_iff] at yields
    obtain ⟨_, _, _, rfl, ⟨_, _, _, ⟨rfl, _, rfl⟩, ⟨rfl, rfl, rfl⟩, rfl⟩, rfl⟩ := yields
    exact ⟨.closes gapOver busy, rfl⟩
  · rename_i quiet
    simp only [Traced.yields_pure, Prod.mk.injEq] at yields
    obtain ⟨rfl, rfl, rfl⟩ := yields
    exact ⟨.staysOpen gapOver (by simpa using quiet), rfl⟩

theorem tickLate_yields {timer next : Deferral} {since now : Tick} {carrier ready : Bool}
    {events : List Event}
    (past : timer.Past now since)
    (yields : (timer.tickLate since now).Yields events (next, ready)) :
    Advances now carrier timer next ready ∧ marksOf now events = [] := by
  simp only [tickLate, Traced.yields_bind, Traced.yields_lift,
    checkedAdd_eq_ok_iff] at yields
  obtain ⟨_, _, _, ⟨rfl, _, rfl⟩, yields, rfl⟩ := yields
  split at yields
  · rename_i complete
    simp only [Traced.yields_bind, Traced.yields_record, Traced.yields_pure,
      Prod.mk.injEq] at yields
    obtain ⟨_, _, _, rfl, ⟨rfl, rfl, rfl⟩, rfl⟩ := yields
    exact ⟨.opens past complete, rfl⟩
  · rename_i pending
    simp only [Traced.yields_pure, Prod.mk.injEq] at yields
    obtain ⟨rfl, rfl, rfl⟩ := yields
    exact ⟨.runsOn past (Nat.lt_of_not_le pending), rfl⟩

theorem tickEarly_yields {timer next : Deferral} {since now : Tick}
    {carrier ready : Bool} {events : List Event}
    (state : timer.state = .early since)
    (yields : (timer.tickEarly since now carrier).Yields events (next, ready)) :
    Advances now carrier timer next ready ∧ marksOf now events = [] := by
  simp only [tickEarly, Traced.yields_bind, Traced.yields_lift,
    checkedAdd_eq_ok_iff] at yields
  obtain ⟨_, _, _, ⟨rfl, _, rfl⟩, yields, rfl⟩ := yields
  split at yields
  · rename_i lapsed
    simp only [Traced.yields_bind, Traced.yields_record] at yields
    obtain ⟨_, _, _, rfl, late, rfl⟩ := yields
    obtain ⟨advances, unmarked⟩ := tickLate_yields (.inr ⟨state, lapsed⟩) late
    exact ⟨advances, by simpa [Event.mark?] using unmarked⟩
  · rename_i early
    replace early := Nat.lt_of_not_le early
    split at yields
    · rename_i busy
      simp only [Traced.yields_bind, Traced.yields_lift, Traced.yields_pure,
        Prod.mk.injEq, restart_eq_ok_iff] at yields
      obtain ⟨_, _, _, ⟨rfl, _, rfl⟩, ⟨rfl, rfl, rfl⟩, rfl⟩ := yields
      exact ⟨.restarts state early busy, rfl⟩
    · rename_i quiet
      simp only [Traced.yields_pure, Prod.mk.injEq] at yields
      obtain ⟨rfl, rfl, rfl⟩ := yields
      exact ⟨.waits state early (by simpa using quiet), rfl⟩

/-- A tick of the deferral timer does one of the listed things, and leaves no mark. -/
theorem tick_yields {timer next : Deferral} {now : Tick} {carrier ready : Bool}
    {events : List Event}
    (yields : (timer.tick now carrier).Yields events (next, ready)) :
    Advances now carrier timer next ready ∧ marksOf now events = [] := by
  unfold tick at yields
  split at yields
  · rename_i state
    exact tickQuiet_yields (.inl state) yields
  · rename_i state
    exact tickQuiet_yields (.inr state) yields
  · rename_i since state
    exact tickEarly_yields state yields
  · rename_i since state
    exact tickLate_yields (.inl state) yields

namespace Advances

variable {timer next : Deferral} {now since : Tick} {carrier ready : Bool}

theorem spans
    (advances : Advances now carrier timer next ready) :
    next.earlyTicks = timer.earlyTicks ∧ next.gapTicks = timer.gapTicks := by
  cases advances <;> exact ⟨rfl, rfl⟩

/-- Carrier in the early part begins the gap again. -/
theorem early
    (state : timer.state = .early since)
    (within : now < since + timer.earlyTicks)
    (advances : Advances now carrier timer next ready) :
    ready = false ∧ next.state = .early (if carrier then now + 1 else since) := by
  have notPast {other : Tick} : ¬ timer.Past now other := by
    rintro (late | ⟨same, lapsed⟩)
    · rw [state] at late
      cases late
    · rw [state] at same
      cases same
      exact absurd within (Nat.not_lt.mpr lapsed)
  have notOpen : ¬ timer.Open := by
    rintro (idle | opened)
    · rw [state] at idle
      cases idle
    · rw [state] at opened
      cases opened
  cases advances with
  | staysOpen gapOver quiet => exact absurd gapOver notOpen
  | closes gapOver busy => exact absurd gapOver notOpen
  | waits same before quiet =>
      rw [quiet]
      exact ⟨rfl, state⟩
  | restarts same before busy =>
      rw [busy]
      exact ⟨rfl, rfl⟩
  | runsOn past pending => exact absurd past notPast
  | opens past complete => exact absurd past notPast

/-- Carrier in the late part does not matter. -/
theorem late
    (past : timer.Past now since)
    (advances : Advances now carrier timer next ready) :
    if since + timer.gapTicks ≤ now then ready = true ∧ next.Open
      else ready = false ∧ next.state = .late since := by
  have only {other : Tick} (otherPast : timer.Past now other) : other = since := by
    rcases past with state | ⟨state, _⟩ <;> rcases otherPast with other | ⟨other, _⟩ <;>
      cases state.symm.trans other
    · rfl
    · rfl
  have notOpen : ¬ timer.Open := by
    rcases past with state | ⟨state, _⟩ <;>
      rintro (idle | opened) <;> simp_all
  have notEarly {other : Tick} (state : timer.state = .early other) :
      other + timer.earlyTicks ≤ now := by
    rcases past with late | ⟨same, lapsed⟩
    · cases state.symm.trans late
    · cases state.symm.trans same
      exact lapsed
  cases advances with
  | staysOpen gapOver quiet => exact absurd gapOver notOpen
  | closes gapOver busy => exact absurd gapOver notOpen
  | waits same before quiet => exact absurd before (Nat.not_lt.mpr (notEarly same))
  | restarts same before busy => exact absurd before (Nat.not_lt.mpr (notEarly same))
  | runsOn otherPast pending =>
      cases only otherPast
      rw [if_neg (Nat.not_le.mpr pending)]
      exact ⟨rfl, rfl⟩
  | opens otherPast complete =>
      cases only otherPast
      rw [if_pos complete]
      exact ⟨rfl, .inr rfl⟩

/-- Carrier after a completed gap begins a new one. -/
theorem quiet
    (gapOver : timer.Open)
    (advances : Advances now carrier timer next ready) :
    if carrier then ready = false ∧ next.state = .early (now + 1)
      else ready = true ∧ next.Open := by
  have notEarly {other : Tick} : timer.state ≠ .early other := by
    rcases gapOver with state | state <;> simp [state]
  have notPast {other : Tick} : ¬ timer.Past now other := by
    rcases gapOver with state | state <;> simp [Past, state]
  cases advances with
  | staysOpen gapOver quiet =>
      rw [quiet]
      exact ⟨rfl, .inl rfl⟩
  | closes gapOver busy =>
      rw [busy]
      exact ⟨rfl, rfl⟩
  | waits state before quiet => exact absurd state notEarly
  | restarts state before busy => exact absurd state notEarly
  | runsOn past pending => exact absurd past notPast
  | opens past complete => exact absurd past notPast

end Advances

end Deferral

end HalfDuplex
