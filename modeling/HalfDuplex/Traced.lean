import HalfDuplex.Event

/-!
# Traced results

A state machine that takes a step records events on the way and may stop with a
fault; what was recorded before the fault is not lost.  `Traced α` is both together:
the events in the order in which they happened, and the value unless there is none.

The two halves can be studied apart.  `value_bind` says that the values of a
sequence of steps compose as values of `Except` do, whatever is recorded, so a
statement about values never has to mention an event.  `Yields` is both halves of an
operation that ran through.

`repeatUntil` repeats a step a bounded number of times.  It gathers the events as it
goes along; `repeatUntil_succ` is the equation that one would rather have written.
-/

namespace HalfDuplex

/-- The events recorded by an operation, and its value unless it stopped. -/
structure Traced (α : Type) where
  events : List Event
  value : Except Fault α

namespace Traced

variable {α β δ : Type}

/-- Does one operation and then another that depends on its value; a fault of the
first is a fault of the whole. -/
protected def bind (first : Traced α) (next : α → Traced β) : Traced β :=
  match first.value with
  | .error fault => ⟨first.events, .error fault⟩
  | .ok a =>
      let second := next a
      ⟨first.events ++ second.events, second.value⟩

instance : Monad Traced where
  pure a := ⟨[], .ok a⟩
  bind := Traced.bind

def record (event : Event) : Traced Unit :=
  ⟨[event], .ok ()⟩

def lift (value : Except Fault α) : Traced α :=
  ⟨[], value⟩

@[ext]
protected theorem ext {left right : Traced α}
    (events : left.events = right.events) (value : left.value = right.value) :
    left = right := by
  cases left
  cases right
  simp_all

@[simp]
theorem events_pure (a : α) : (pure a : Traced α).events = [] :=
  rfl

@[simp]
theorem value_pure (a : α) : (pure a : Traced α).value = .ok a :=
  rfl

@[simp]
theorem events_record (event : Event) : (record event).events = [event] :=
  rfl

@[simp]
theorem value_record (event : Event) : (record event).value = .ok () :=
  rfl

@[simp]
theorem events_lift (value : Except Fault α) : (lift value).events = [] :=
  rfl

@[simp]
theorem value_lift (value : Except Fault α) : (lift value).value = value :=
  rfl

theorem value_bind (first : Traced α) (next : α → Traced β) :
    (first >>= next).value = first.value.bind fun a => (next a).value := by
  show (Traced.bind first next).value = _
  unfold Traced.bind
  cases first.value <;> rfl

@[simp]
theorem events_bind (first : Traced α) (next : α → Traced β) :
    (first >>= next).events =
      first.events ++
        match first.value with
        | .error _ => []
        | .ok a => (next a).events := by
  show (Traced.bind first next).events = _
  unfold Traced.bind
  cases first.value <;> simp

/-- A sequence has a value exactly when both its parts have one. -/
@[simp]
theorem value_bind_eq_ok_iff {first : Traced α} {next : α → Traced β} {b : β} :
    (first >>= next).value = .ok b ↔
      ∃ a, first.value = .ok a ∧ (next a).value = .ok b := by
  rw [value_bind]
  cases first.value <;> simp [Except.bind]

/-- The operation ran through: it recorded the given events and has the given value. -/
def Yields (operation : Traced α) (events : List Event) (a : α) : Prop :=
  operation = ⟨events, .ok a⟩

theorem yields_of_value {operation : Traced α} {a : α} (value : operation.value = .ok a) :
    operation.Yields operation.events a :=
  Traced.ext rfl value

@[simp]
theorem yields_pure {a b : α} {events : List Event} :
    (pure a : Traced α).Yields events b ↔ events = [] ∧ a = b := by
  show (⟨[], .ok a⟩ : Traced α) = ⟨events, .ok b⟩ ↔ _
  simp [eq_comm]

@[simp]
theorem yields_record {event : Event} {events : List Event} {done : Unit} :
    (record event).Yields events done ↔ events = [event] := by
  simp [Yields, record, eq_comm]

@[simp]
theorem yields_lift {value : Except Fault α} {a : α} {events : List Event} :
    (lift value).Yields events a ↔ events = [] ∧ value = .ok a := by
  simp [Yields, lift, eq_comm]

/-- A sequence runs through exactly when both its parts do, and records what they
record. -/
@[simp]
theorem yields_bind {first : Traced α} {next : α → Traced β} {events : List Event}
    {b : β} :
    (first >>= next).Yields events b ↔
      ∃ a before after, first.Yields before a ∧ (next a).Yields after b ∧
        events = before ++ after := by
  show Traced.bind first next = ⟨events, .ok b⟩ ↔ _
  rcases first with ⟨recorded, value⟩
  cases value with
  | error fault => simp [Traced.bind, Yields]
  | ok a =>
      constructor
      · intro equality
        simp only [Traced.bind, mk.injEq] at equality
        exact ⟨a, recorded, (next a).events, rfl,
          Traced.ext rfl equality.2, equality.1.symm⟩
      · rintro ⟨a', before, after, firstYields, nextYields, eventsEqual⟩
        simp only [Yields, mk.injEq, Except.ok.injEq] at firstYields nextYields
        obtain ⟨rfl, rfl⟩ := firstYields
        simp [Traced.bind, nextYields, eventsEqual]

instance : LawfulMonad Traced :=
  LawfulMonad.mk'
    Traced
    (by
      intro α operation
      show Traced.bind operation (fun a => ⟨[], .ok a⟩) = operation
      rcases operation with ⟨events, value⟩
      cases value <;> simp [Traced.bind])
    (by
      intro α β a next
      show Traced.bind ⟨[], .ok a⟩ next = next a
      simp [Traced.bind])
    (by
      intro α β γ first second third
      show Traced.bind (Traced.bind first second) third =
        Traced.bind first fun a => Traced.bind (second a) third
      rcases first with ⟨events, value⟩
      cases value with
      | error fault => rfl
      | ok a =>
          simp only [Traced.bind]
          cases (second a).value <;> simp)

theorem Yields.map {operation : Traced α} {events : List Event} {a : α}
    (yields : operation.Yields events a) (change : α → β) :
    (change <$> operation).Yields events (change a) := by
  rw [← bind_pure_comp]
  simp only [yields_bind, yields_pure]
  exact ⟨a, events, [], yields, ⟨rfl, rfl⟩, (List.append_nil events).symm⟩

theorem Yields.unique {operation : Traced α} {events other : List Event}
    {a b : α}
    (yields : operation.Yields events a)
    (yieldsOther : operation.Yields other b) :
    events = other ∧ a = b := by
  cases yields.symm.trans yieldsOther
  exact ⟨rfl, rfl⟩

/-- The loop behind `repeatUntil`; `past` is what was recorded so far, the latest
event first. -/
def repeatFrom (step : β → Traced (β × Option δ)) (past : List Event) :
    Nat → β → Traced (β × Option δ)
  | 0, state => ⟨past.reverse, .ok (state, none)⟩
  | rounds + 1, state =>
      let round := step state
      let past := round.events.reverse ++ past
      match round.value with
      | .error fault => ⟨past.reverse, .error fault⟩
      | .ok (state, some result) => ⟨past.reverse, .ok (state, some result)⟩
      | .ok (state, none) => repeatFrom step past rounds state

/-- Repeats a step on a state until it yields a result, at most `rounds` times. -/
def repeatUntil (step : β → Traced (β × Option δ)) (rounds : Nat) (state : β) :
    Traced (β × Option δ) :=
  repeatFrom step [] rounds state

theorem repeatFrom_eq (step : β → Traced (β × Option δ)) (past : List Event)
    (rounds : Nat) (state : β) :
    repeatFrom step past rounds state =
      ⟨past.reverse ++ (repeatUntil step rounds state).events,
        (repeatUntil step rounds state).value⟩ := by
  unfold repeatUntil
  induction rounds generalizing past state with
  | zero => simp [repeatFrom]
  | succ rounds inductionHypothesis =>
      simp only [repeatFrom]
      split
      · simp
      · simp
      · rw [inductionHypothesis,
          inductionHypothesis ((step state).events.reverse ++ []) _]
        simp

@[simp]
theorem repeatUntil_zero (step : β → Traced (β × Option δ)) (state : β) :
    repeatUntil step 0 state = pure (state, none) :=
  rfl

/-- A bounded repetition is one step, followed by the rest of the repetition unless
the step yielded a result. -/
theorem repeatUntil_succ (step : β → Traced (β × Option δ)) (rounds : Nat)
    (state : β) :
    repeatUntil step (rounds + 1) state =
      step state >>= fun
        | (next, some result) => pure (next, some result)
        | (next, none) => repeatUntil step rounds next := by
  apply Traced.ext
  · rw [events_bind, repeatUntil, repeatFrom]
    split
    · rename_i equality
      simp [equality]
    · rename_i equality
      simp [equality]
    · rename_i equality
      rw [repeatFrom_eq]
      simp [equality]
  · rw [value_bind, repeatUntil, repeatFrom]
    split
    · rename_i equality
      simp [equality, Except.bind]
    · rename_i equality
      simp [equality, Except.bind]
    · rename_i equality
      rw [repeatFrom_eq]
      simp [equality, Except.bind]

end Traced

end HalfDuplex
