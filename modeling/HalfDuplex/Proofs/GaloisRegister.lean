/-!
# Galois registers

A 32-bit register that shifts right by one place, where the bit that falls out flips the
tapped places when it is set.  Checksum and backoff are both made of one, with taps of
their own.

A shift is linear in exclusive or.  That is all that the other modules use of it, apart
from what `RegisterPeriod` says of the order in which it runs through the words.
-/

namespace HalfDuplex

namespace GaloisRegister

/-- The register after one shift. -/
def shift (taps word : UInt32) : UInt32 :=
  if word &&& 1 = 1 then (word >>> 1) ^^^ taps else word >>> 1

theorem toNat_lowBit (word : UInt32) : (word &&& 1).toNat = word.toNat % 2 := by
  rw [UInt32.toNat_and]
  exact Nat.and_one_is_mod word.toNat

theorem lowBit_cases (word : UInt32) : word &&& 1 = 0 ∨ word &&& 1 = 1 := by
  have low := toNat_lowBit word
  rcases Nat.mod_two_eq_zero_or_one word.toNat with even | odd
  · exact .inl (UInt32.toNat_inj.mp (low.trans even))
  · exact .inr (UInt32.toNat_inj.mp (low.trans odd))

theorem xor_and (left right mask : UInt32) :
    (left ^^^ right) &&& mask = (left &&& mask) ^^^ (right &&& mask) := by
  apply UInt32.toBitVec_inj.mp
  ext place
  simp [Bool.and_xor_distrib_right]

/-- A shift is linear in exclusive or. -/
theorem shift_xor (taps left right : UInt32) :
    shift taps (left ^^^ right) = shift taps left ^^^ shift taps right := by
  have cancel : taps ^^^ taps = 0 := UInt32.xor_self
  unfold shift
  rw [xor_and, UInt32.shiftRight_xor]
  rcases lowBit_cases left with leftBit | leftBit <;>
    rcases lowBit_cases right with rightBit | rightBit <;> rw [leftBit, rightBit]
  · rfl
  · simp [UInt32.xor_assoc]
  · simp
    ac_rfl
  · calc (left >>> 1) ^^^ (right >>> 1)
        = (left >>> 1) ^^^ (right >>> 1) ^^^ (taps ^^^ taps) := by
          rw [cancel, UInt32.xor_zero]
      _ = ((left >>> 1) ^^^ taps) ^^^ ((right >>> 1) ^^^ taps) := by ac_rfl

@[simp]
theorem shift_zero (taps : UInt32) : shift taps 0 = 0 :=
  rfl

/-- An even word only moves down. -/
theorem toNat_shift_of_even {taps word : UInt32} {half : Nat} (even : word.toNat = 2 * half) :
    (shift taps word).toNat = half := by
  have clear : word &&& 1 ≠ 1 := by
    intro odd
    have low := toNat_lowBit word
    rw [odd, even, Nat.mul_mod_right] at low
    cases low
  rw [shift, if_neg clear, UInt32.toNat_shiftRight, even]
  simp [Nat.shiftRight_succ]

end GaloisRegister

end HalfDuplex
