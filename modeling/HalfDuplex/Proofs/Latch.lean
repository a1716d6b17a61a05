import HalfDuplex.Proofs.Outcomes
import Mathlib.Algebra.GroupWithZero.Nat

/-!
# What the reporter latches

A reporter keeps the union of the indicators that it was shown and their number, and forgets
in which order and with which company they came.  The number is enough to tell an outcome from
a conflict: with none raised nothing was shown, with one raised it is the union, and with more
of them, the same one twice among them, there is no outcome.

`Reporter.reads` says so for every history of indicators.
-/

namespace HalfDuplex

namespace Indicators

variable {left right raised : Indicators}

/-- The indicators of a history taken together. -/
def unionAll (history : List Indicators) : Indicators :=
  history.foldl union none

/-- How many indicators were raised in a history. -/
def countAll (history : List Indicators) : Nat :=
  (history.map count).sum

theorem union_none (raised : Indicators) : raised.union none = raised := by
  simp [union, none]

theorem none_union (raised : Indicators) : none.union raised = raised := by
  simp [union, none]

theorem count_eq_zero_iff : raised.count = 0 ↔ raised = none := by
  obtain ⟨ok, gaveUp, lateCollision, underflow⟩ := raised
  cases ok <;> cases gaveUp <;> cases lateCollision <;> cases underflow <;> decide

theorem count_eq_one_iff : raised.count = 1 ↔ ∃ outcome : Outcome, raised = outcome.indicators := by
  constructor
  · obtain ⟨ok, gaveUp, lateCollision, underflow⟩ := raised
    intro single
    cases ok <;> cases gaveUp <;> cases lateCollision <;> cases underflow <;>
      first
      | exact ⟨.ok, rfl⟩
      | exact ⟨.gaveUp, rfl⟩
      | exact ⟨.lateCollision, rfl⟩
      | exact ⟨.underflow, rfl⟩
      | cases single
  · rintro ⟨outcome, rfl⟩
    cases outcome <;> rfl

theorem countAll_cons (raised : Indicators) (history : List Indicators) :
    countAll (raised :: history) = raised.count + countAll history :=
  List.sum_cons

theorem countAll_append (earlier later : List Indicators) :
    countAll (earlier ++ later) = countAll earlier + countAll later := by
  rw [countAll, List.map_append, List.sum_append]
  rfl

theorem countAll_eq_zero_iff {history : List Indicators} :
    countAll history = 0 ↔ ∀ raised ∈ history, raised = none := by
  induction history with
  | nil => exact iff_of_true rfl nofun
  | cons raised history inductionHypothesis =>
      rw [countAll_cons, Nat.add_eq_zero_iff, count_eq_zero_iff, inductionHypothesis,
        List.forall_mem_cons]

theorem foldl_union (history : List Indicators) (raised : Indicators) :
    history.foldl union raised = raised.union (unionAll history) := by
  have associative (first second third : Indicators) :
      (first.union second).union third = first.union (second.union third) := by
    simp [union, Bool.or_assoc]
  induction history generalizing raised with
  | nil => exact (union_none raised).symm
  | cons first history inductionHypothesis =>
      rw [unionAll, List.foldl_cons, List.foldl_cons, inductionHypothesis, inductionHypothesis,
        none_union, associative]

theorem unionAll_of_silent {history : List Indicators}
    (silent : ∀ raised ∈ history, raised = none) :
    unionAll history = none := by
  induction history with
  | nil => rfl
  | cons raised history inductionHypothesis =>
      obtain ⟨rfl, later⟩ := List.forall_mem_cons.mp silent
      exact inductionHypothesis later

theorem unionAll_of_single {before after : List Indicators}
    (others : ∀ raised ∈ before ++ after, raised = none) :
    unionAll (before ++ raised :: after) = raised := by
  obtain ⟨earlier, later⟩ := List.forall_mem_append.mp others
  rw [unionAll, List.foldl_append, List.foldl_cons]
  rw [show before.foldl union none = none from unionAll_of_silent earlier, none_union,
    foldl_union, unionAll_of_silent later, union_none]

/-- One indicator was raised in all. -/
theorem exists_of_countAll_eq_one {history : List Indicators} (single : countAll history = 1) :
    ∃ (outcome : Outcome) (before after : List Indicators),
      history = before ++ outcome.indicators :: after ∧
        ∀ raised ∈ before ++ after, raised = none := by
  induction history with
  | nil => cases single
  | cons raised history inductionHypothesis =>
      rw [countAll_cons] at single
      by_cases empty : raised.count = 0
      · obtain rfl := count_eq_zero_iff.mp empty
        rw [empty, Nat.zero_add] at single
        obtain ⟨outcome, before, after, rfl, others⟩ := inductionHypothesis single
        exact ⟨outcome, none :: before, after, rfl, List.forall_mem_cons.mpr ⟨rfl, others⟩⟩
      · have one : raised.count = 1 := by omega
        have rest : countAll history = 0 := by omega
        obtain ⟨outcome, rfl⟩ := count_eq_one_iff.mp one
        exact ⟨outcome, [], history, rfl, countAll_eq_zero_iff.mp rest⟩

/-- All sets of a history but one are empty, and that one is the indicator of an outcome. -/
theorem single_iff {history : List Indicators} (outcome : Outcome) :
    (∃ before after, history = before ++ outcome.indicators :: after ∧
        ∀ raised ∈ before ++ after, raised = none) ↔
      countAll history = 1 ∧ unionAll history = outcome.indicators := by
  constructor
  · rintro ⟨before, after, rfl, others⟩
    have silent := countAll_eq_zero_iff.mpr others
    have single := count_eq_one_iff.mpr ⟨outcome, rfl⟩
    rw [countAll_append] at silent
    refine ⟨?_, unionAll_of_single others⟩
    rw [countAll_append, countAll_cons, single]
    omega
  · rintro ⟨single, union⟩
    obtain ⟨found, before, after, rfl, others⟩ := exists_of_countAll_eq_one single
    rw [unionAll_of_single others] at union
    obtain rfl := Outcome.indicators_injective union
    exact ⟨before, after, rfl, others⟩

end Indicators

namespace Reporter

/-- The reporter after a history of indicators, the first of them shown first. -/
def observeAll (reporter : Reporter) (history : List Indicators) : Except Fault Reporter :=
  history.foldlM observe reporter

theorem observe_of_lt {reporter : Reporter} {raised : Indicators}
    (few : reporter.pulses + raised.count < countLimit) :
    reporter.observe raised = .ok {
      seen := reporter.seen.union raised
      pulses := reporter.pulses + raised.count } := by
  rw [observe, checkedAdd, if_pos few]
  rfl

theorem observeAll_of_lt {reporter : Reporter} {history : List Indicators}
    (few : reporter.pulses + Indicators.countAll history < countLimit) :
    reporter.observeAll history = .ok {
      seen := history.foldl Indicators.union reporter.seen
      pulses := reporter.pulses + Indicators.countAll history } := by
  induction history generalizing reporter with
  | nil => rfl
  | cons raised history inductionHypothesis =>
      rw [Indicators.countAll_cons, ← Nat.add_assoc] at few ⊢
      have first := observe_of_lt (Nat.lt_of_le_of_lt (Nat.le_add_right _ _) few)
      have rest := @inductionHypothesis {
        seen := reporter.seen.union raised
        pulses := reporter.pulses + raised.count } few
      rw [observeAll, List.foldlM_cons, first]
      exact rest

section Observed

variable {history : List Indicators} {observed : Reporter}
  (seen : observed.seen = Indicators.unionAll history)
  (pulses : observed.pulses = Indicators.countAll history)

include seen pulses

/-- With no indicator raised there is no outcome, with one it is the outcome, and with more
there is a conflict. -/
theorem outcome_cases :
    (Indicators.countAll history = 0 ∧ observed.outcome = .ok none) ∨
      (∃ found : Outcome, Indicators.countAll history = 1 ∧
        Indicators.unionAll history = found.indicators ∧ observed.outcome = .ok (some found)) ∨
      2 ≤ Indicators.countAll history ∧
        observed.outcome = .error (.conflictingStatus (Indicators.unionAll history)) := by
  unfold outcome
  rw [seen, pulses]
  match few : Indicators.countAll history with
  | 0 => exact .inl ⟨rfl, rfl⟩
  | 1 =>
      obtain ⟨found, before, after, rfl, others⟩ := Indicators.exists_of_countAll_eq_one few
      have union : Indicators.unionAll (before ++ found.indicators :: after) =
          found.indicators :=
        Indicators.unionAll_of_single others
      refine .inr (.inl ⟨found, rfl, union, ?_⟩)
      rw [union]
      exact congrArg Except.ok (Outcome.ofIndicators?_indicators found)
  | count + 2 => exact .inr (.inr ⟨Nat.le_add_left 2 count, rfl⟩)

theorem outcome_eq_none_iff :
    observed.outcome = .ok none ↔ Indicators.countAll history = 0 := by
  rcases outcome_cases seen pulses with ⟨count, told⟩ | ⟨_, count, _, told⟩ | ⟨count, told⟩
  · exact iff_of_true told count
  · exact iff_of_false (by rw [told]; nofun) (by omega)
  · exact iff_of_false (by rw [told]; nofun) (by omega)

theorem outcome_eq_some_iff (outcome : Outcome) :
    observed.outcome = .ok (some outcome) ↔
      Indicators.countAll history = 1 ∧
        Indicators.unionAll history = outcome.indicators := by
  rcases outcome_cases seen pulses with ⟨count, told⟩ | ⟨found, count, union, told⟩ |
    ⟨count, told⟩
  · exact iff_of_false (by rw [told]; nofun) (by omega)
  · rw [told, union, Outcome.indicators_injective.eq_iff, and_iff_right count]
    exact ⟨fun same => Option.some.inj (Except.ok.inj same), fun same => by rw [same]⟩
  · exact iff_of_false (by rw [told]; nofun) (by omega)

theorem outcome_eq_conflict_iff :
    observed.outcome = .error (.conflictingStatus (Indicators.unionAll history)) ↔
      2 ≤ Indicators.countAll history := by
  rcases outcome_cases seen pulses with ⟨count, told⟩ | ⟨_, count, _, told⟩ | ⟨count, told⟩
  · exact iff_of_false (by rw [told]; nofun) (by omega)
  · exact iff_of_false (by rw [told]; nofun) (by omega)
  · exact iff_of_true told count

end Observed

/-- A reporter that was shown a history tells no outcome exactly if all sets were empty, an
outcome exactly if one set was the indicator of this outcome and all others were empty, and the
union of all of them in every other case. -/
theorem reads (history : List Indicators)
    (few : Indicators.countAll history < countLimit) :
    ∃ observed, clear.observeAll history = .ok observed ∧
      (observed.outcome = .ok none ↔ ∀ raised ∈ history, raised = {}) ∧
      (∀ outcome : Outcome, observed.outcome = .ok (some outcome) ↔
        ∃ before after, history = before ++ outcome.indicators :: after ∧
          ∀ raised ∈ before ++ after, raised = {}) ∧
      (observed.outcome = .error (.conflictingStatus (history.foldl Indicators.union {})) ↔
        ¬ (∀ raised ∈ history, raised = {}) ∧
          ¬ ∃ (outcome : Outcome) (before after : List Indicators),
            history = before ++ outcome.indicators :: after ∧
              ∀ raised ∈ before ++ after, raised = {}) := by
  have start : clear.pulses + Indicators.countAll history = Indicators.countAll history :=
    Nat.zero_add _
  have fits : clear.pulses + Indicators.countAll history < countLimit := by rwa [start]
  refine ⟨_, observeAll_of_lt fits, ?_⟩
  generalize equality : Reporter.mk _ _ = observed
  have seen : observed.seen = Indicators.unionAll history := by rw [← equality]; rfl
  have pulses : observed.pulses = Indicators.countAll history := by rw [← equality]; exact start
  have silent : Indicators.countAll history = 0 ↔ ∀ raised ∈ history, raised = {} :=
    Indicators.countAll_eq_zero_iff
  have single (outcome : Outcome) := @Indicators.single_iff history outcome
  refine ⟨(outcome_eq_none_iff seen pulses).trans silent,
    fun outcome => (outcome_eq_some_iff seen pulses outcome).trans (single outcome).symm, ?_⟩
  refine Iff.trans (outcome_eq_conflict_iff seen pulses) ?_
  rw [← silent]
  constructor
  · intro several
    refine ⟨by omega, fun ⟨outcome, alone⟩ => ?_⟩
    have one := ((single outcome).mp alone).1
    omega
  · rintro ⟨shown, crowded⟩
    have other : Indicators.countAll history ≠ 1 := fun one =>
      crowded (Indicators.exists_of_countAll_eq_one one)
    omega

end Reporter

end HalfDuplex
