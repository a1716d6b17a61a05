import HalfDuplex.Checksum
import HalfDuplex.Proofs.GaloisRegister
import Mathlib.Algebra.Group.Nat.Defs

/-!
# The residual of an intact frame

A receiver runs the checksum over contents and trailer together.  `residual_sealed` says
that this always leaves the same constant.

A shift of the register is linear in exclusive or, and it only moves down what has its
low places clear.  Absorbing the lowest byte of a word therefore leaves a register that
differs from the shifted register in nothing but the other bytes of the word, and four
bytes leave a register in which only the exclusive or of register and word matters.  The
value of a checksum is the complement of its register, so that is a constant.
-/

namespace HalfDuplex

namespace Checksum

theorem shiftBit_xor (left right : UInt32) :
    shiftBit (left ^^^ right) = shiftBit left ^^^ shiftBit right :=
  GaloisRegister.shift_xor polynomial left right

theorem shiftBits_xor (count : Nat) (left right : UInt32) :
    shiftBits count (left ^^^ right) = shiftBits count left ^^^ shiftBits count right := by
  induction count generalizing left right with
  | zero => rfl
  | succ count inductionHypothesis =>
      rw [shiftBits, shiftBit_xor, inductionHypothesis]
      rfl

theorem shiftBits_of_multiple {count quotient : Nat} {word : UInt32}
    (multiple : word.toNat = 2 ^ count * quotient) :
    (shiftBits count word).toNat = quotient := by
  induction count generalizing word with
  | zero => simpa [shiftBits] using multiple
  | succ count inductionHypothesis =>
      have even : word.toNat = 2 * (2 ^ count * quotient) := by
        rw [multiple, Nat.pow_succ']
        ac_rfl
      exact inductionHypothesis (GaloisRegister.toNat_shift_of_even even)

theorem toNat_upper (word : UInt32) :
    ((word >>> 8) <<< 8).toNat = 2 ^ 8 * (word.toNat / 2 ^ 8) := by
  have bound := word.toNat_lt
  rw [UInt32.toNat_shiftLeft, UInt32.toNat_shiftRight]
  simp only [UInt32.reduceToNat, Nat.reduceMod, Nat.shiftRight_eq_div_pow, Nat.shiftLeft_eq]
  omega

theorem xor_split (number : Nat) :
    number = number % 2 ^ 8 ^^^ 2 ^ 8 * (number / 2 ^ 8) := by
  apply Nat.eq_of_testBit_eq
  intro place
  rw [Nat.testBit_xor, Nat.testBit_mod_two_pow, Nat.testBit_two_pow_mul,
    Nat.testBit_div_two_pow]
  by_cases low : place < 8
  · simp [low, Nat.not_le.mpr low]
  · simp [low, Nat.le_of_not_lt low]

/-- A word is its lowest byte and the rest of it, which have no place in common. -/
theorem split_byte (word : UInt32) :
    word = word.toUInt8.toUInt32 ^^^ (word >>> 8) <<< 8 := by
  apply UInt32.toNat_inj.mp
  rw [UInt32.toNat_xor, toNat_upper, UInt8.toNat_toUInt32, UInt32.toNat_toUInt8]
  exact xor_split word.toNat

/-- Absorbing the lowest byte of a word leaves what the other bytes are still to be
compared with. -/
theorem absorb_byte (register word : UInt32) :
    absorb register word.toUInt8 ^^^ (word >>> 8) = shiftBits 8 (register ^^^ word) := by
  have upper : shiftBits 8 ((word >>> 8) <<< 8) = word >>> 8 := by
    apply UInt32.toNat_inj.mp
    rw [shiftBits_of_multiple (toNat_upper word), UInt32.toNat_shiftRight]
    exact (Nat.shiftRight_eq_div_pow word.toNat 8).symm
  calc absorb register word.toUInt8 ^^^ (word >>> 8)
      = shiftBits 8 (register ^^^ word.toUInt8.toUInt32) ^^^
          shiftBits 8 ((word >>> 8) <<< 8) := by rw [upper, absorb]
    _ = shiftBits 8 (register ^^^ (word.toUInt8.toUInt32 ^^^ (word >>> 8) <<< 8)) := by
        rw [← shiftBits_xor, UInt32.xor_assoc]
    _ = shiftBits 8 (register ^^^ word) := by rw [← split_byte]

/-- The register after the four bytes of a word, the lowest one first. -/
theorem absorb_word (register word : UInt32) :
    absorb (absorb (absorb (absorb register word.toUInt8) (word >>> 8).toUInt8)
        (word >>> 16).toUInt8) (word >>> 24).toUInt8 =
      shiftBits 8 (shiftBits 8 (shiftBits 8 (shiftBits 8 (register ^^^ word)))) := by
  have second : word >>> 16 = (word >>> 8) >>> 8 := by
    apply UInt32.toNat_inj.mp
    simp [← Nat.shiftRight_add]
  have third : word >>> 24 = (word >>> 16) >>> 8 := by
    apply UInt32.toNat_inj.mp
    simp [← Nat.shiftRight_add]
  have last : (word >>> 24) >>> 8 = 0 := by
    apply UInt32.toNat_inj.mp
    have bound := word.toNat_lt
    rw [UInt32.toNat_shiftRight, UInt32.toNat_shiftRight, ← Nat.shiftRight_add,
      Nat.shiftRight_eq_div_pow]
    exact Nat.div_eq_of_lt bound
  rw [← absorb_byte register word, ← absorb_byte _ (word >>> 8), ← second,
    ← absorb_byte _ (word >>> 16), ← third, ← absorb_byte _ (word >>> 24), last, UInt32.xor_zero]

/-- The four bytes of a word at the end of some data shift the exclusive or of the word and
the register before it. -/
theorem ofBytes_append_encode (data : List UInt8) (word : UInt32) :
    ofBytes (data ++ encode word) =
      shiftBits 8 (shiftBits 8 (shiftBits 8 (shiftBits 8
        ((start.updateAll data).register ^^^ word)))) ^^^ 0xFFFFFFFF := by
  rw [← absorb_word]
  simp [ofBytes, encode, value, update]

/-- The residual is what is left when register and word are complements. -/
theorem intactResidual_eq :
    intactResidual =
      shiftBits 8 (shiftBits 8 (shiftBits 8 (shiftBits 8 0xFFFFFFFF))) ^^^ 0xFFFFFFFF := by
  decide +kernel

/-- Contents followed by their own trailer leave the same residual, whatever they are. -/
theorem residual_sealed (data : List UInt8) :
    ofBytes (Checksum.sealed data) = intactResidual := by
  have cancel (register : UInt32) :
      register ^^^ (register ^^^ 0xFFFFFFFF) = 0xFFFFFFFF := by
    rw [← UInt32.xor_assoc, UInt32.xor_self, UInt32.zero_xor]
  rw [Checksum.sealed, ofBytes_append_encode, intactResidual_eq, ofBytes, value, cancel]

/-! ## No other trailer -/

/-- The highest coefficient of the polynomial is in the register when a one is shifted out, so
that only zero is shifted to zero. -/
theorem eq_zero_of_shiftBit {word : UInt32} (zero : shiftBit word = 0) : word = 0 := by
  have bound := word.toNat_lt
  have half : (word >>> 1).toNat = word.toNat / 2 := by
    rw [UInt32.toNat_shiftRight]
    exact Nat.shiftRight_eq_div_pow _ 1
  apply UInt32.toNat_inj.mp
  show word.toNat = 0
  unfold shiftBit at zero
  split at zero
  · have shifted := congrArg UInt32.toNat (UInt32.xor_eq_zero_iff.mp zero)
    rw [half] at shifted
    have high : polynomial.toNat = 0xEDB88320 := rfl
    omega
  · rename_i even
    have shifted := congrArg UInt32.toNat zero
    rw [half, UInt32.toNat_zero] at shifted
    rcases GaloisRegister.lowBit_cases word with clear | set
    · have low := congrArg UInt32.toNat clear
      rw [GaloisRegister.toNat_lowBit, UInt32.toNat_zero] at low
      omega
    · exact absurd set even

theorem shiftBits_injective {count : Nat} {left right : UInt32}
    (same : shiftBits count left = shiftBits count right) :
    left = right := by
  induction count generalizing left right with
  | zero => exact same
  | succ count inductionHypothesis =>
      have shifted : shiftBit left = shiftBit right := inductionHypothesis same
      apply UInt32.xor_eq_zero_iff.mp
      apply eq_zero_of_shiftBit
      rw [shiftBit_xor, shifted, UInt32.xor_self]

/-- Four bytes make contents intact only if they are the trailer of the contents. -/
theorem ofBytes_append_encode_eq_iff {data : List UInt8} {word : UInt32} :
    ofBytes (data ++ encode word) = intactResidual ↔ word = ofBytes data := by
  constructor
  · intro intact
    rw [ofBytes_append_encode, intactResidual_eq, UInt32.xor_left_inj] at intact
    have complement := shiftBits_injective (shiftBits_injective (shiftBits_injective
      (shiftBits_injective intact)))
    rw [ofBytes, value, ← complement, ← UInt32.xor_assoc, UInt32.xor_self, UInt32.zero_xor]
  · rintro rfl
    exact residual_sealed data

end Checksum

end HalfDuplex
