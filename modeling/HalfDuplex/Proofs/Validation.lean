import HalfDuplex.Proofs.Conformance

/-!
# What the check of a configuration rules out

The check of a configuration and the set-up of an engine both multiply 32-bit fields.  A
product of two fields fits 64 bits, but a product that is doubled once more may not: the
check doubles the gap before any rule has bounded it, and the lengths of preamble and jam
are doubled in 32 bits although no rule speaks of them.

So the check itself can stop with a fault, and an engine cannot be set up for every
accepted configuration.  `Config.set_up_ends` says exactly when either happens; no other
fault is possible, and every other quantity is there.
-/

namespace HalfDuplex

theorem checkedMul_of_not_lt {limit left right : Nat} (overflows : ¬left * right < limit) :
    checkedMul limit left right = .error .multiplicationOverflow := by
  rw [checkedMul, if_neg overflows]

theorem checkedMul_of_lt {limit left right : Nat} (fits : left * right < limit) :
    checkedMul limit left right = .ok (left * right) := by
  rw [checkedMul, if_pos fits]

namespace Config

/-- The check gets as far as doubling the gap, and the double does not fit. -/
def GapOverflows (config : Config) : Prop :=
  config.byteTicks % 2 = 0 ∧ config.preambleBytes ≠ 0 ∧ config.slotBytes ≠ 0 ∧
    wideLimit ≤ config.ipgTicks * 2

/-- The lengths of preamble and jam can be counted in nibbles. -/
def LengthsFit (config : Config) : Prop :=
  config.preambleBytes.toNat * 2 < countLimit ∧ config.jamBytes.toNat * 2 < countLimit

instance (config : Config) : Decidable config.LengthsFit :=
  inferInstanceAs (Decidable (_ ∧ _))

variable {config : Config}

/-- A number of byte times always fits, because it is a product of two 32-bit fields. -/
theorem span_lt_wideLimit (config : Config) (bytes : UInt32) :
    bytes.toNat * config.byteTime < wideLimit := by
  have bytesBound := bytes.toNat_lt
  have timeBound : config.byteTime < 2 ^ 32 := config.byteTicks.toNat_lt
  calc bytes.toNat * config.byteTime ≤ bytes.toNat * 2 ^ 32 :=
        Nat.mul_le_mul_left _ (Nat.le_of_lt timeBound)
    _ < 2 ^ 32 * 2 ^ 32 := by omega
    _ = wideLimit := by rw [wideLimit, ← Nat.pow_add]

theorem nibbleTicks_lt_wideLimit (config : Config) : config.nibbleTicks < wideLimit := by
  have timeBound : config.byteTime < 2 ^ 32 := config.byteTicks.toNat_lt
  have narrow : 2 ^ 32 < wideLimit := by decide
  unfold nibbleTicks
  lia

theorem earlyTicks_of_ge (overflows : wideLimit ≤ config.ipgTicks * 2) :
    config.earlyTicks = .error .multiplicationOverflow := by
  rw [earlyTicks, checkedMul_of_not_lt (Nat.not_lt.mpr overflows)]
  rfl

theorem earlyTicks_of_lt (fits : config.ipgTicks * 2 < wideLimit) :
    config.earlyTicks = .ok (config.ipgTicks * 2 / 3) := by
  rw [earlyTicks, checkedMul_of_lt fits]
  rfl

theorem gapTicks_of_le (slack : config.pipelineSlack.toNat ≤ config.ipgTicks) :
    config.gapTicks = .ok (config.ipgTicks - config.pipelineSlack.toNat) := by
  rw [gapTicks, checkedSub, if_pos slack]

/-- A gap whose double does not fit is neither empty nor shorter than the slack, so the
rules that speak of these two do not stop the check before it. -/
theorem passes_of_ge (overflows : wideLimit ≤ config.ipgTicks * 2) :
    config.byteTicks ≠ 0 ∧ config.pipelineSlack.toNat < config.ipgTicks := by
  have wide : wideLimit = 2 ^ 64 := rfl
  constructor
  · intro zero
    have none : config.ipgTicks = 0 := by
      rw [ipgTicks, byteTime, zero]
      exact Nat.mul_zero _
    lia
  · have slackBound := config.pipelineSlack.toNat_lt
    lia

/-- The check stops without an answer for one reason only. -/
theorem firstError_eq_error_iff {fault : Fault} :
    config.firstError = .error fault ↔
      fault = .multiplicationOverflow ∧ config.GapOverflows := by
  constructor
  · intro stopped
    unfold firstError at stopped
    split at stopped
    · cases stopped
    split at stopped
    · cases stopped
    rename_i even
    split at stopped
    · cases stopped
    rename_i preamble
    split at stopped
    · cases stopped
    rename_i slot
    split at stopped
    · cases stopped
    rename_i slack
    -- The other quantity that can fault is the gap, and the rule on the slack was passed.
    by_cases fits : config.ipgTicks * 2 < wideLimit
    · rw [earlyTicks_of_lt fits, gapTicks_of_le (Nat.le_of_not_le slack)] at stopped
      simp only [bind, Except.bind, pure, Except.pure] at stopped
      repeat' split at stopped
      all_goals cases stopped
    · rw [earlyTicks_of_ge (Nat.le_of_not_lt fits)] at stopped
      cases stopped
      exact ⟨rfl, Decidable.not_not.mp even, preamble, slot, Nat.le_of_not_lt fits⟩
  · rintro ⟨rfl, even, preamble, slot, overflows⟩
    obtain ⟨byteTicks, slack⟩ := passes_of_ge overflows
    rw [firstError, if_neg byteTicks, if_neg (Decidable.not_not.mpr even), if_neg preamble,
      if_neg slot, if_neg (Nat.not_le.mpr slack), earlyTicks_of_ge overflows]
    rfl

theorem LengthsFit.plan (fit : config.LengthsFit) :
    ∃ plan, LinePlan.ofConfig config = .ok plan := by
  rw [LinePlan.ofConfig, preambleNibbles, checkedMul_of_lt fit.1, jamNibbles,
    checkedMul_of_lt fit.2]
  exact ⟨_, rfl⟩

theorem plan_of_not_fit (overflows : ¬config.LengthsFit) :
    LinePlan.ofConfig config = .error .multiplicationOverflow := by
  rw [LinePlan.ofConfig, preambleNibbles, jamNibbles]
  by_cases preamble : config.preambleBytes.toNat * 2 < countLimit
  · have jam : ¬config.jamBytes.toNat * 2 < countLimit :=
      fun jam => overflows ⟨preamble, jam⟩
    rw [checkedMul_of_lt preamble, checkedMul_of_not_lt jam]
    rfl
  · rw [checkedMul_of_not_lt preamble]
    rfl

end Config

namespace Deferral

theorem ofConfig_of_timing {config : Config} {early gap : Tick}
    (timing : config.Timing early gap)
    (now : Tick) :
    Deferral.ofConfig config now =
      .ok { earlyTicks := early, gapTicks := gap, state := .early now } := by
  rw [Deferral.ofConfig, timing.earlyTicks_eq, timing.gapTicks_eq]
  rfl

end Deferral

namespace Engine

variable {σ γ : Type} {config : Config}

/-- Once a configuration is accepted, nothing but its lengths can keep an engine from being
set up. -/
theorem value_ofConfig_of_accepted
    (accepted : config.Accepted)
    (source : σ)
    (words : γ)
    (now : Tick) :
    (Engine.ofConfig config source words now).value =
      (LinePlan.ofConfig config).bind fun plan =>
        .ok (.ok {
          config
          source
          deferral := {
            earlyTicks := config.ipgTicks * 2 / 3
            gapTicks := config.ipgTicks - config.pipelineSlack.toNat
            state := .early now }
          window := CollisionWindow.ofConfig config words
          sequencer := { plan } }) := by
  obtain ⟨early, gap, timing⟩ := accepted.timing
  have checked : config.firstError = .ok none := accepted
  have earlyEqual : early = config.ipgTicks * 2 / 3 := by
    have equal := timing.earlyTicks_eq
    by_cases fits : config.ipgTicks * 2 < wideLimit
    · rw [Config.earlyTicks_of_lt fits] at equal
      exact (Except.ok.inj equal).symm
    · rw [Config.earlyTicks_of_ge (Nat.le_of_not_lt fits)] at equal
      cases equal
  have gapEqual : gap = config.ipgTicks - config.pipelineSlack.toNat := by
    have equal := timing.gapTicks_eq
    rw [Config.gapTicks_of_le (Nat.le_of_lt timing.slack_lt)] at equal
    exact (Except.ok.inj equal).symm
  subst earlyEqual gapEqual
  rw [Engine.ofConfig, checked]
  simp only [Traced.value_bind, Traced.value_lift, Traced.value_record, Traced.value_pure,
    Except.bind, timing.gapTicks_eq, Deferral.ofConfig_of_timing timing, Sequencer.ofConfig]
  cases LinePlan.ofConfig config <;> rfl

end Engine

namespace Config

/-- How checking a configuration and setting an engine up end.

The check has an answer, or it stops because it doubles the gap.  Plain spans always fit.
An accepted configuration has a gap with an early part; it has the lengths in nibbles and
an engine if both lengths fit their doubles, and otherwise the set-up stops. -/
theorem set_up_ends {σ γ : Type} (config : Config) (source : σ) (words : γ) (now : Tick) :
    (∀ fault, config.firstError = .error fault ↔
      fault = .multiplicationOverflow ∧ config.GapOverflows) ∧
    (config.nibbleTicks < wideLimit ∧ config.slotTicks < wideLimit ∧
      config.ipgTicks < wideLimit ∧ config.backoffSlotTicks < wideLimit) ∧
    (config.Accepted →
      (∃ early gap, config.earlyTicks = .ok early ∧ config.gapTicks = .ok gap) ∧
      (config.LengthsFit →
        (∃ jam, config.jamNibbles = .ok jam) ∧
        (∃ preamble, config.preambleNibbles = .ok preamble) ∧
        ∃ engine, (Engine.ofConfig config source words now).value = .ok (.ok engine)) ∧
      (¬config.LengthsFit →
        (Engine.ofConfig config source words now).value = .error .multiplicationOverflow)) := by
  refine ⟨fun fault => firstError_eq_error_iff, ?_, ?_⟩
  · exact ⟨config.nibbleTicks_lt_wideLimit, config.span_lt_wideLimit config.slotBytes,
      config.span_lt_wideLimit config.ipgBytes,
      config.span_lt_wideLimit config.backoffSlotBytes⟩
  · intro accepted
    obtain ⟨early, gap, timing⟩ := accepted.timing
    refine ⟨⟨early, gap, timing.earlyTicks_eq, timing.gapTicks_eq⟩, ?_, ?_⟩
    · intro fit
      obtain ⟨plan, planned⟩ := fit.plan
      refine ⟨⟨_, checkedMul_of_lt fit.2⟩, ⟨_, checkedMul_of_lt fit.1⟩, ?_⟩
      rw [Engine.value_ofConfig_of_accepted accepted, planned]
      exact ⟨_, rfl⟩
    · intro overflows
      rw [Engine.value_ofConfig_of_accepted accepted, plan_of_not_fit overflows]
      rfl

/-- The longest gap there is, with a byte time that is even. -/
def wideGap : Config :=
  { byteTicks := 4294967294, ipgBytes := 4294967295 }

/-- The shortest jam whose nibbles cannot be counted. -/
def longJam : Config :=
  { jamBytes := 2147483648 }

theorem set_up_ends_wideGap_longJam :
    wideGap.firstError = .error .multiplicationOverflow ∧
      (longJam.Accepted ∧
        (Engine.ofConfig longJam () () 0).value = .error .multiplicationOverflow) ∧
      (({} : Config).Accepted ∧
        ∃ engine, (Engine.ofConfig ({} : Config) () () 0).value = .ok (.ok engine)) := by
  have longAccepted : longJam.Accepted := by decide
  have standardAccepted : ({} : Config).Accepted := by decide
  refine ⟨?_, ⟨longAccepted, ?_⟩, standardAccepted, ?_⟩
  · exact ((set_up_ends wideGap () () 0).1 _).mpr ⟨rfl, by decide, by decide, by decide, by decide⟩
  · exact ((set_up_ends longJam () () 0).2.2 longAccepted).2.2 (by decide)
  · exact (((set_up_ends {} () () 0).2.2 standardAccepted).2.1 (by decide)).2.2

/-- The check does not always have an answer, and an answer that accepts does not always
lead to an engine. -/
theorem check_neither_total_nor_sufficient :
    (¬∀ config : Config, ∃ answer, config.firstError = .ok answer) ∧
      ¬∀ config : Config, config.Accepted →
        ∃ engine, (Engine.ofConfig config () () 0).value = .ok (.ok engine) := by
  constructor
  · intro total
    obtain ⟨answer, answered⟩ := total wideGap
    have stopped : wideGap.firstError = .error .multiplicationOverflow := rfl
    rw [stopped] at answered
    cases answered
  · intro sufficient
    obtain ⟨engine, setUp⟩ := sufficient longJam (by decide)
    have stopped :
        (Engine.ofConfig longJam () () 0).value = .error .multiplicationOverflow := rfl
    rw [stopped] at setUp
    cases setUp

end Config

end HalfDuplex
