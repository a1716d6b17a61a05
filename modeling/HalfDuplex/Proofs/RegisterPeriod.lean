import HalfDuplex.Proofs.GaloisRegister
import Mathlib.Dynamics.PeriodicPts.Lemmas
import Mathlib.Tactic.NormNum.Prime

/-!
# The period of a Galois register

A word stands for a polynomial over two elements, with the constant coefficient in the
highest place, and a shift multiplies by the variable.  `times` is the product modulo the
polynomial of the taps, so any number of shifts is one product, and large powers of the
variable can be computed by squaring.

`Primitive` is a computation with these powers: the variable has the order `fullPeriod`,
the number of words other than zero.  `iterate_eq_self_iff` draws the conclusion: a word
other than zero comes back after a number of shifts if and only if the number is a multiple
of `fullPeriod`.
-/

namespace HalfDuplex

namespace GaloisRegister

open Function

/-- The word that stands for one. -/
def unit : UInt32 := 0x80000000

/-- The number of words other than zero. -/
def fullPeriod : Nat := 2 ^ 32 - 1

/-- The sum of the shifted copies of `right` that the lowest places of `left` select. -/
def combine (taps left right : UInt32) : (places : Nat) → UInt32
  | 0 => 0
  | place + 1 =>
      shift taps (combine taps left right place) ^^^
        if left.toNat.testBit place then right else 0

def times (taps left right : UInt32) : UInt32 :=
  combine taps left right 32

variable (taps : UInt32) {left right word : UInt32}

theorem combine_shift (left right : UInt32) (places : Nat) :
    combine taps left (shift taps right) places = shift taps (combine taps left right places) := by
  induction places with
  | zero => exact (shift_zero taps).symm
  | succ place inductionHypothesis =>
      rw [combine, combine, inductionHypothesis, shift_xor]
      split
      · rfl
      · rw [shift_zero]

/-- Shifts can be made before a product as well as after it. -/
theorem times_iterate (left right : UInt32) (count : Nat) :
    times taps left ((shift taps)^[count] right) = (shift taps)^[count] (times taps left right) := by
  induction count generalizing right with
  | zero => rfl
  | succ count inductionHypothesis =>
      rw [iterate_succ_apply, iterate_succ_apply, inductionHypothesis, times, combine_shift]
      rfl

/-- The lowest places of a number and the next one. -/
theorem xor_place (number place up : Nat) :
    2 ^ up * (number % 2 ^ place) ^^^ (if number.testBit place then 2 ^ (up + place) else 0) =
      2 ^ up * (number % 2 ^ (place + 1)) := by
  apply Nat.eq_of_testBit_eq
  intro bit
  by_cases top : bit = up + place
  · subst top
    cases found : number.testBit place <;> simp [Nat.testBit_two_pow_mul, found]
  · have other : up + place ≠ bit := fun equal => top equal.symm
    by_cases below : up ≤ bit
    · have same : bit - up < place ↔ bit - up < place + 1 := by omega
      split <;> simp [Nat.testBit_two_pow_mul, below, Nat.testBit_two_pow_of_ne, same, other]
    · split <;> simp [Nat.testBit_two_pow_mul, below, Nat.testBit_two_pow_of_ne, other]

/-- The copies of one that the lowest places of a word select make up these places. -/
theorem toNat_combine_unit {places : Nat} (within : places ≤ 32) :
    (combine taps left unit places).toNat = 2 ^ (32 - places) * (left.toNat % 2 ^ places) := by
  induction places with
  | zero => simp [combine, Nat.mod_one]
  | succ place inductionHypothesis =>
      have before := inductionHypothesis (Nat.le_of_succ_le within)
      have room : 32 - place = 32 - (place + 1) + 1 := by omega
      have top : 32 - (place + 1) + place = 31 := by omega
      have even : (combine taps left unit place).toNat =
          2 * (2 ^ (32 - (place + 1)) * (left.toNat % 2 ^ place)) := by
        rw [before, room, Nat.pow_succ']
        ac_rfl
      have selected : (if left.toNat.testBit place then unit else 0).toNat =
          if left.toNat.testBit place then 2 ^ (32 - (place + 1) + place) else 0 := by
        rw [top]
        split <;> rfl
      rw [combine, UInt32.toNat_xor, toNat_shift_of_even even, selected, xor_place]

theorem times_unit (word : UInt32) : times taps word unit = word := by
  apply UInt32.toNat_inj.mp
  rw [times, toNat_combine_unit taps (Nat.le_refl 32)]
  simp [Nat.mod_eq_of_lt word.toNat_lt]

/-- Any number of shifts is a product with the power of the variable. -/
theorem iterate_eq_times (word : UInt32) (count : Nat) :
    (shift taps)^[count] word = times taps word ((shift taps)^[count] unit) := by
  rw [times_iterate, times_unit]

/-! ## Powers of the variable -/

/-- A function of a word whose value is computed first. -/
def settled (word : UInt32) (next : UInt32 → UInt32) : UInt32 :=
  match word.toNat with
  | 0 => next 0
  | value + 1 => next (UInt32.ofNat (value + 1))

/-- A power of the variable with an exponent of at most `length` binary digits. -/
def power : (length : Nat) → (exponent : Nat) → UInt32
  | 0, _ => unit
  | length + 1, exponent =>
      settled (power length (exponent / 2)) fun root =>
        settled (times taps root root) fun square =>
          if exponent % 2 = 1 then shift taps square else square

theorem settled_eq (word : UInt32) (next : UInt32 → UInt32) : settled word next = next word := by
  unfold settled
  split
  · rename_i zero
    rw [show word = 0 from UInt32.toNat_inj.mp zero]
  · rename_i value found
    have whole : word.toNat = value + 1 := found
    rw [← whole, UInt32.ofNat_toNat]

theorem power_eq {length exponent : Nat} (within : exponent < 2 ^ length) :
    power taps length exponent = (shift taps)^[exponent] unit := by
  induction length generalizing exponent with
  | zero =>
      obtain rfl : exponent = 0 := by omega
      rfl
  | succ length inductionHypothesis =>
      have root : power taps length (exponent / 2) = (shift taps)^[exponent / 2] unit :=
        inductionHypothesis (by omega)
      have square : times taps (power taps length (exponent / 2))
          (power taps length (exponent / 2)) = (shift taps)^[2 * (exponent / 2)] unit := by
        rw [root, ← iterate_eq_times, ← iterate_add_apply, Nat.two_mul]
      rw [power, settled_eq, settled_eq, square]
      split
      · rename_i odd
        rw [← iterate_succ_apply' (shift taps)]
        congr 1
        omega
      · congr 1
        omega

/-- The variable has the order `fullPeriod`: the power with that exponent is one, and none of
those whose exponent is a quotient by a prime factor of it is. -/
def Primitive (taps : UInt32) : Prop :=
  power taps 32 fullPeriod = unit ∧
    ∀ factor ∈ [3, 5, 17, 257, 65537], power taps 32 (fullPeriod / factor) ≠ unit

instance : Decidable (Primitive taps) :=
  inferInstanceAs (Decidable (_ ∧ _))

/-! ## The orbit of one -/

variable {taps}

theorem prime_factor_of_fullPeriod {factor : Nat}
    (prime : factor.Prime)
    (divides : factor ∣ fullPeriod) :
    factor ∈ [3, 5, 17, 257, 65537] := by
  have product : fullPeriod = 3 * 5 * 17 * 257 * 65537 := rfl
  have equal {other : Nat} (otherPrime : other.Prime) (divides : factor ∣ other) :
      factor = other :=
    (Nat.prime_dvd_prime_iff_eq prime otherPrime).mp divides
  rw [product, prime.dvd_mul, prime.dvd_mul, prime.dvd_mul, prime.dvd_mul] at divides
  rcases divides with (((three | five) | seventeen) | large) | largest
  · simp [equal Nat.prime_three three]
  · simp [equal Nat.prime_five five]
  · simp [equal (by norm_num) seventeen]
  · simp [equal (by norm_num) large]
  · simp [equal (by norm_num) largest]

theorem minimalPeriod_unit (primitive : Primitive taps) :
    minimalPeriod (shift taps) unit = fullPeriod := by
  have returns : IsPeriodicPt (shift taps) fullPeriod unit :=
    (power_eq taps (by decide)).symm.trans primitive.1
  obtain ⟨quotient, whole⟩ := returns.minimalPeriod_dvd
  by_cases one : quotient = 1
  · rw [whole, one, Nat.mul_one]
  · exfalso
    obtain ⟨factor, prime, divides⟩ := Nat.exists_prime_and_dvd one
    obtain ⟨less, rfl⟩ := divides
    have known := prime_factor_of_fullPeriod prime ⟨minimalPeriod (shift taps) unit * less, by
      rw [whole]
      ac_rfl⟩
    have shorter : fullPeriod / factor = minimalPeriod (shift taps) unit * less := by
      rw [whole, Nat.mul_left_comm, Nat.mul_div_cancel_left _ prime.pos]
    have early : IsPeriodicPt (shift taps) (fullPeriod / factor) unit := by
      rw [shorter]
      exact (isPeriodicPt_minimalPeriod _ _).mul_const less
    have small : fullPeriod / factor < 2 ^ 32 :=
      Nat.lt_of_le_of_lt (Nat.div_le_self _ _) (by decide)
    exact primitive.2 factor known ((power_eq taps small).trans early)

theorem iterate_unit_ne_zero {count : Nat}
    (primitive : Primitive taps)
    (within : count < fullPeriod) :
    (shift taps)^[count] unit ≠ 0 := by
  intro dead
  have returns : (shift taps)^[fullPeriod] unit = unit :=
    minimalPeriod_unit primitive ▸ isPeriodicPt_minimalPeriod (shift taps) unit
  have later : (shift taps)^[fullPeriod - count + count] unit = 0 := by
    rw [iterate_add_apply, dead]
    exact iterate_fixed (shift_zero taps) _
  rw [Nat.sub_add_cancel (Nat.le_of_lt within), returns] at later
  cases later

/-- Every word other than zero is a power of the variable. -/
theorem exists_iterate_unit
    (primitive : Primitive taps)
    (nonzero : word ≠ 0) :
    ∃ count, count < fullPeriod ∧ (shift taps)^[count] unit = word := by
  have period := minimalPeriod_unit primitive
  -- The powers below the period all differ, and there are as many of them as there are words
  -- other than zero.
  let visited := (Finset.range fullPeriod).image fun count => ((shift taps)^[count] unit).toNat
  have different : Set.InjOn (fun count => ((shift taps)^[count] unit).toNat)
      (Finset.range fullPeriod) := by
    intro first firstIn second secondIn equal
    rw [Finset.coe_range, ← period] at firstIn secondIn
    exact iterate_injOn_Iio_minimalPeriod firstIn secondIn (UInt32.toNat_inj.mp equal)
  have inside : visited ⊆ Finset.Ico 1 (2 ^ 32) := by
    intro number member
    obtain ⟨count, within, rfl⟩ := Finset.mem_image.mp member
    have nonzero := iterate_unit_ne_zero primitive (Finset.mem_range.mp within)
    rw [Finset.mem_Ico]
    refine ⟨Nat.pos_of_ne_zero fun zero => nonzero (UInt32.toNat_inj.mp zero), ?_⟩
    exact UInt32.toNat_lt _
  have all : visited = Finset.Ico 1 (2 ^ 32) := by
    refine Finset.eq_of_subset_of_card_le inside ?_
    rw [Nat.card_Ico, Finset.card_image_of_injOn different, Finset.card_range]
    exact Nat.le_refl _
  have member : word.toNat ∈ visited := by
    rw [all, Finset.mem_Ico]
    exact ⟨Nat.pos_of_ne_zero fun zero => nonzero (UInt32.toNat_inj.mp zero), word.toNat_lt⟩
  obtain ⟨count, within, equal⟩ := Finset.mem_image.mp member
  exact ⟨count, Finset.mem_range.mp within, UInt32.toNat_inj.mp equal⟩

/-- A word other than zero comes back after the multiples of the full period, and after no
other number of shifts. -/
theorem iterate_eq_self_iff
    (primitive : Primitive taps)
    (nonzero : word ≠ 0)
    (count : Nat) :
    (shift taps)^[count] word = word ↔ fullPeriod ∣ count := by
  have period := minimalPeriod_unit primitive
  have returns : IsPeriodicPt (shift taps) fullPeriod unit :=
    period ▸ isPeriodicPt_minimalPeriod (shift taps) unit
  obtain ⟨place, within, rfl⟩ := exists_iterate_unit primitive nonzero
  constructor
  · intro back
    have rest : (shift taps)^[fullPeriod - place] ((shift taps)^[place] unit) = unit := by
      rw [← iterate_add_apply, Nat.sub_add_cancel (Nat.le_of_lt within)]
      exact returns
    have unitBack : IsPeriodicPt (shift taps) count unit := by
      show (shift taps)^[count] unit = unit
      rw [← rest, ← iterate_add_apply, Nat.add_comm, iterate_add_apply, back]
    exact period ▸ unitBack.minimalPeriod_dvd
  · rintro ⟨turns, rfl⟩
    have turned : (shift taps)^[fullPeriod * turns] unit = unit := returns.mul_const turns
    rw [← iterate_add_apply, Nat.add_comm, iterate_add_apply, turned]

end GaloisRegister

end HalfDuplex
