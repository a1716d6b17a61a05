import HalfDuplex.Proofs.Draws
import HalfDuplex.Proofs.RegisterPeriod
import HalfDuplex.Random.ShiftRegister
import Mathlib.Data.Int.CardIntervalMod

/-!
# The words of the shift register

The register runs through all its states but zero before one comes back.  A word is made of as
many output bits as the register has places, so the word tells the state that it was drawn
from, and thirty-two, the number of shifts for a word, has no factor in common with the period.
A full period of words therefore holds each word other than zero once.

The slots of a backoff are the lowest places of a word.  All their values are drawn equally
often in a period, up to the zero word, which is missing.

Main result: `ShiftRegister.draws_equidistributed`.
-/

namespace HalfDuplex

open GaloisRegister (fullPeriod)

namespace WordSource

variable {γ : Type} [WordSource γ]

theorem after_next (source : γ) (count : Nat) :
    after (next source).2 count = after source (count + 1) := by
  induction count with
  | zero => rfl
  | succ count inductionHypothesis => exact congrArg (fun source => (next source).2) inductionHypothesis

theorem words_fst (count : Nat) (source : γ) :
    (words count source).1 = (List.range count).map (word source) := by
  induction count generalizing source with
  | zero => rfl
  | succ count inductionHypothesis =>
      have later (place : Nat) : word (next source).2 place = word source (place + 1) := by
        rw [word, after_next, word]
      rw [words, List.range_succ_eq_map, List.map_cons, List.map_map]
      show (next source).1 :: (words count (next source).2).1 = _
      rw [inductionHypothesis, List.map_congr_left fun place _ => later place]
      rfl

end WordSource

namespace ShiftRegister

open GaloisRegister

/-! ## States -/

theorem primitive_taps : Primitive taps := by
  decide +kernel

theorem shift_eq (state : UInt32) : shift state = GaloisRegister.shift taps state :=
  rfl

theorem iterate_step (register : ShiftRegister) (count : Nat) :
    (fun register : ShiftRegister => register.step.2)^[count] register =
      ⟨(GaloisRegister.shift taps)^[count] register.state⟩ := by
  induction count generalizing register with
  | zero => rfl
  | succ count inductionHypothesis =>
      rw [Function.iterate_succ_apply, inductionHypothesis, Function.iterate_succ_apply]
      rfl

theorem step_returns_iff {register : ShiftRegister} (nonzero : register.state ≠ 0) (count : Nat) :
    (fun register : ShiftRegister => register.step.2)^[count] register = register ↔
      fullPeriod ∣ count := by
  rw [iterate_step, ← iterate_eq_self_iff primitive_taps nonzero]
  exact ⟨congrArg ShiftRegister.state, congrArg ShiftRegister.mk⟩

theorem iterate_shift_ne_zero {state : UInt32} (nonzero : state ≠ 0) (count : Nat) :
    (GaloisRegister.shift taps)^[count] state ≠ 0 := by
  intro dead
  -- The state would have to come back from zero.
  have returns := (iterate_eq_self_iff primitive_taps nonzero (fullPeriod * count)).mpr
    ⟨count, rfl⟩
  have enough : count ≤ fullPeriod * count := Nat.le_mul_of_pos_left count (by decide)
  rw [← Nat.sub_add_cancel enough, Function.iterate_add_apply, dead,
    Function.iterate_fixed (shift_zero taps)] at returns
  exact nonzero returns.symm

theorem ofSeed_ne_zero (seed : UInt32) : (ofSeed seed).state ≠ 0 := by
  unfold ofSeed
  split
  · decide
  · assumption

/-! ## Words -/

/-- States from which the same bits come differ in no place that was shifted out. -/
theorem two_pow_dvd_of_bits_eq {count : Nat} {left right : UInt32}
    (same : (bits count ⟨left⟩).1 = (bits count ⟨right⟩).1) :
    2 ^ count ∣ (left ^^^ right).toNat := by
  induction count generalizing left right with
  | zero => exact Nat.one_dvd _
  | succ count inductionHypothesis =>
      obtain ⟨bit, rest⟩ := List.cons.inj same
      have lowest : left &&& 1 = right &&& 1 := by
        have bit := decide_eq_decide.mp bit
        rcases lowBit_cases left with leftBit | leftBit <;>
          rcases lowBit_cases right with rightBit | rightBit <;>
          simp_all
      have even : (left ^^^ right).toNat % 2 = 0 := by
        rw [← toNat_lowBit, xor_and, lowest, UInt32.xor_self]
        rfl
      have half : (left ^^^ right).toNat = 2 * ((left ^^^ right).toNat / 2) := by omega
      have shifted := inductionHypothesis rest
      rw [shift_eq, shift_eq, ← shift_xor, toNat_shift_of_even half] at shifted
      rw [half, Nat.pow_succ']
      exact Nat.mul_dvd_mul_left 2 shifted

theorem bits_injective : Function.Injective fun state => (bits 32 ⟨state⟩).1 := by
  intro left right same
  have divides : 2 ^ 32 ∣ (left ^^^ right).toNat := two_pow_dvd_of_bits_eq same
  have zero := Nat.eq_zero_of_dvd_of_lt divides (UInt32.toNat_lt _)
  exact UInt32.xor_eq_zero_iff.mp (UInt32.toNat_inj.mp zero)

theorem length_bits (count : Nat) (register : ShiftRegister) :
    (bits count register).1.length = count := by
  induction count generalizing register with
  | zero => rfl
  | succ count inductionHypothesis => exact congrArg (· + 1) (inductionHypothesis _)

theorem bits_state (count : Nat) (register : ShiftRegister) :
    (bits count register).2 = ⟨(GaloisRegister.shift taps)^[count] register.state⟩ := by
  induction count generalizing register with
  | zero => rfl
  | succ count inductionHypothesis => exact inductionHypothesis _

theorem wordOfBits_append (places : List Bool) (bit : Bool) :
    wordOfBits (places ++ [bit]) = wordOfBits places <<< 1 ||| bit.toUInt32 :=
  List.foldl_append

/-- A bit moves those before it up by one place. -/
theorem toNat_moved_up {word : UInt32} (bit : Bool) (room : word.toNat < 2 ^ 31) :
    (word <<< 1 ||| bit.toUInt32).toNat = 2 * word.toNat + bit.toNat := by
  have moved : (word <<< 1).toNat = 2 ^ 1 * word.toNat := by
    rw [UInt32.toNat_shiftLeft]
    show word.toNat <<< 1 % 2 ^ 32 = 2 ^ 1 * word.toNat
    rw [Nat.shiftLeft_eq]
    omega
  have lowest : bit.toUInt32.toNat = bit.toNat := by cases bit <;> rfl
  rw [UInt32.toNat_or, moved, lowest, ← Nat.two_pow_add_eq_or_of_lt bit.toNat_lt]

theorem wordOfBits_lt {places : List Bool} (room : places.length ≤ 32) :
    (wordOfBits places).toNat < 2 ^ places.length := by
  induction places using List.reverseRecOn with
  | nil => decide
  | append_singleton places bit inductionHypothesis =>
      rw [List.length_append, List.length_singleton] at room ⊢
      have before := inductionHypothesis (Nat.le_of_succ_le room)
      have inside : 2 ^ places.length ≤ 2 ^ 31 :=
        Nat.pow_le_pow_right (by decide) (Nat.le_of_succ_le_succ room)
      have bound := bit.toNat_lt
      rw [wordOfBits_append, toNat_moved_up bit (Nat.lt_of_lt_of_le before inside), Nat.pow_succ]
      omega

/-- None of thirty-two bits is lost in a word. -/
theorem wordOfBits_injective {left right : List Bool}
    (room : left.length ≤ 32)
    (sameLength : left.length = right.length)
    (same : wordOfBits left = wordOfBits right) :
    left = right := by
  induction left using List.reverseRecOn generalizing right with
  | nil => exact (List.eq_nil_of_length_eq_zero sameLength.symm).symm
  | append_singleton left bit inductionHypothesis =>
      rcases List.eq_nil_or_concat' right with rfl | ⟨right, other, rfl⟩
      · simp at sameLength
      · simp only [List.length_append, List.length_singleton] at room sameLength
        have lengths : left.length = right.length := Nat.succ.inj sameLength
        have leftRoom : (wordOfBits left).toNat < 2 ^ 31 :=
          Nat.lt_of_lt_of_le (wordOfBits_lt (Nat.le_of_succ_le room))
            (Nat.pow_le_pow_right (by decide) (Nat.le_of_succ_le_succ room))
        have rightRoom : (wordOfBits right).toNat < 2 ^ 31 :=
          Nat.lt_of_lt_of_le (wordOfBits_lt (lengths ▸ Nat.le_of_succ_le room))
            (Nat.pow_le_pow_right (by decide) (lengths ▸ Nat.le_of_succ_le_succ room))
        have values := congrArg UInt32.toNat same
        rw [wordOfBits_append, wordOfBits_append, toNat_moved_up bit leftRoom,
          toNat_moved_up other rightRoom] at values
        have bitBound := bit.toNat_lt
        have otherBound := other.toNat_lt
        have sameWord := UInt32.toNat_inj.mp
          (show (wordOfBits left).toNat = (wordOfBits right).toNat by omega)
        have sameBit : bit = other := by
          have numbers : bit.toNat = other.toNat := by omega
          cases bit <;> cases other <;> first | rfl | cases numbers
        rw [inductionHypothesis (Nat.le_of_succ_le room) lengths sameWord, sameBit]

/-- A word tells the state that it was drawn from. -/
theorem nextWord_injective : Function.Injective fun state => (nextWord ⟨state⟩).1 := by
  intro left right same
  exact bits_injective (wordOfBits_injective (Nat.le_of_eq (length_bits 32 _))
    ((length_bits 32 _).trans (length_bits 32 _).symm) same)

theorem nextWord_zero : (nextWord ⟨0⟩).1 = 0 := by
  decide +kernel

/-! ## A period of words -/

variable {register : ShiftRegister}

theorem after_eq (register : ShiftRegister) (count : Nat) :
    WordSource.after register count =
      ⟨(GaloisRegister.shift taps)^[32 * count] register.state⟩ := by
  induction count with
  | zero => rfl
  | succ count inductionHypothesis =>
      have drawn : WordSource.after register (count + 1) =
          (bits 32 (WordSource.after register count)).2 := rfl
      rw [drawn, bits_state, inductionHypothesis, ← Function.iterate_add_apply]
      congr 2
      omega

theorem after_ne_zero (nonzero : register.state ≠ 0) (count : Nat) :
    (WordSource.after register count).state ≠ 0 := by
  rw [after_eq]
  exact iterate_shift_ne_zero nonzero _

theorem word_ne_zero (nonzero : register.state ≠ 0) (count : Nat) :
    WordSource.word register count ≠ 0 := by
  intro zero
  exact after_ne_zero nonzero count (nextWord_injective (zero.trans nextWord_zero.symm))

/-- Words that are less than a period apart differ, because a period does not divide by two. -/
theorem word_ne_of_lt {first second : Nat}
    (nonzero : register.state ≠ 0)
    (before : first < second)
    (within : second < fullPeriod) :
    WordSource.word register first ≠ WordSource.word register second := by
  intro same
  have states : (WordSource.after register first).state =
      (WordSource.after register second).state := nextWord_injective same
  have apart : 32 * second = 32 * (second - first) + 32 * first := by omega
  simp only [after_eq] at states
  rw [apart, Function.iterate_add_apply] at states
  have turns := (iterate_eq_self_iff primitive_taps (iterate_shift_ne_zero nonzero _) _).mp
    states.symm
  have coprime : Nat.Coprime fullPeriod 32 := rfl
  have late := Nat.le_of_dvd (Nat.sub_pos_of_lt before) (coprime.dvd_of_dvd_mul_left turns)
  omega

theorem words_nodup (nonzero : register.state ≠ 0) :
    (WordSource.words fullPeriod register).1.Nodup := by
  rw [WordSource.words_fst]
  refine List.Nodup.map_on ?_ List.nodup_range
  intro first firstIn second secondIn same
  rcases Nat.lt_trichotomy first second with before | equal | after
  · exact absurd same (word_ne_of_lt nonzero before (List.mem_range.mp secondIn))
  · exact equal
  · exact absurd same.symm (word_ne_of_lt nonzero after (List.mem_range.mp firstIn))

theorem zero_not_mem_words (nonzero : register.state ≠ 0) (count : Nat) :
    0 ∉ (WordSource.words count register).1 := by
  rw [WordSource.words_fst]
  intro member
  obtain ⟨place, _, zero⟩ := List.mem_map.mp member
  exact word_ne_zero nonzero place zero

/-- A period of words and zero are all the words there are. -/
theorem zero_cons_words_perm (nonzero : register.state ≠ 0) :
    ((0 :: (WordSource.words fullPeriod register).1).map UInt32.toNat).Perm
      (List.range (2 ^ 32)) := by
  have different : (0 :: (WordSource.words fullPeriod register).1).Nodup :=
    List.nodup_cons.mpr ⟨zero_not_mem_words nonzero _, words_nodup nonzero⟩
  have numbers := different.map fun _ _ => UInt32.toNat_inj.mp
  refine (List.subperm_of_subset numbers fun number member => ?_).perm_of_length_le ?_
  · obtain ⟨word, _, rfl⟩ := List.mem_map.mp member
    exact List.mem_range.mpr word.toNat_lt
  · rw [List.length_range, List.length_map, List.length_cons, WordSource.words_fst,
      List.length_map, List.length_range]
    exact Nat.le_refl _

theorem count_words (nonzero : register.state ≠ 0) (word : UInt32) :
    (WordSource.words fullPeriod register).1.count word = if word = 0 then 0 else 1 := by
  split
  · rename_i zero
    rw [zero]
    exact List.count_eq_zero_of_not_mem (zero_not_mem_words nonzero _)
  · rename_i other
    refine List.count_eq_one_of_mem (words_nodup nonzero) ?_
    have number := (zero_cons_words_perm nonzero).mem_iff.mpr (List.mem_range.mpr word.toNat_lt)
    obtain ⟨same, member, equal⟩ := List.mem_map.mp number
    rw [UInt32.toNat_inj] at equal
    rw [equal] at member
    exact (List.mem_cons.mp member).resolve_left other

/-- The values of the lowest places of a word. -/
theorem countP_words {exponent value : Nat}
    (nonzero : register.state ≠ 0)
    (narrow : exponent ≤ 32)
    (below : value < 2 ^ exponent) :
    (WordSource.words fullPeriod register).1.countP (·.toNat % 2 ^ exponent = value) =
      2 ^ (32 - exponent) - if value = 0 then 1 else 0 := by
  have positive : 0 < 2 ^ exponent := Nat.two_pow_pos exponent
  have whole : 2 ^ 32 = 2 ^ (32 - exponent) * 2 ^ exponent := by
    rw [← Nat.pow_add, Nat.sub_add_cancel narrow]
  have everywhere : Nat.count (· ≡ value [MOD 2 ^ exponent]) (2 ^ 32) = 2 ^ (32 - exponent) := by
    rw [Nat.count_modEq_card _ positive, whole, Nat.mul_div_cancel _ positive, Nat.mul_mod_left,
      if_neg (Nat.not_lt_zero _), Nat.add_zero]
  have same (number : Nat) : number ≡ value [MOD 2 ^ exponent] ↔ number % 2 ^ exponent = value := by
    rw [Nat.ModEq, Nat.mod_eq_of_lt below]
  have counted := (zero_cons_words_perm nonzero).countP_eq (· % 2 ^ exponent = value)
  simp only [Nat.count, same] at everywhere
  rw [everywhere, List.countP_map, List.countP_cons] at counted
  rw [← counted]
  simp [Function.comp_def, eq_comm]

end ShiftRegister

/-! ## Slots -/

namespace CollisionWindow

variable {γ : Type} [WordSource γ]

/-- The slots of successive draws that are made after the same number of collisions. -/
def drawMany : (count : Nat) → (window : CollisionWindow γ) →
    Except Fault (CollisionWindow γ × List Nat)
  | 0, window => .ok (window, [])
  | count + 1, window => do
      let (window, slots) ← window.backoffSlots
      let (window, rest) ← drawMany count window
      return (window, slots :: rest)

theorem drawMany_eq {window : CollisionWindow γ} {exponent : Nat}
    (places : min window.collisions window.limits.backoffLimit = exponent)
    (narrow : exponent < 64)
    (count : Nat) :
    window.drawMany count =
      .ok ({ window with words := (WordSource.words count window.words).2 },
        (WordSource.words count window.words).1.map (·.toNat % 2 ^ exponent)) := by
  induction count generalizing window with
  | zero => rfl
  | succ count inductionHypothesis =>
      have drew : window.backoffSlots =
          .ok ({ window with words := (WordSource.next window.words).2 },
            (WordSource.next window.words).1.toNat % 2 ^ exponent) := by
        rw [backoffSlots, places, checkedPowerOfTwo, if_pos narrow, Nat.one_shiftLeft]
        rfl
      have later := @inductionHypothesis
        { window with words := (WordSource.next window.words).2 } places
      rw [drawMany, drew]
      simp only [bind, Except.bind, later]
      rfl

end CollisionWindow

/-- A register that is not zero comes back after the multiples of `2 ^ 32 - 1` shifts and after
no other number of them.  From anywhere in its stream as many words are all words but zero, each
of them once, and as many draws of a backoff are all numbers of slots below their bound, equally
often except for one zero that is missing.  No seed makes a register of zero. -/
theorem ShiftRegister.draws_equidistributed (register : ShiftRegister)
    (nonzero : register.state ≠ 0) :
    (∀ count, (fun register : ShiftRegister => register.step.2)^[count] register = register ↔
      2 ^ 32 - 1 ∣ count) ∧
    (∀ first word,
      (WordSource.words (2 ^ 32 - 1) (WordSource.after register first)).1.count word =
        if word = 0 then 0 else 1) ∧
    (∀ first exponent, exponent ≤ 31 → ∀ window : CollisionWindow ShiftRegister,
      window.words = WordSource.after register first →
      min window.collisions window.limits.backoffLimit = exponent →
      ∃ next slots, window.drawMany (2 ^ 32 - 1) = .ok (next, slots) ∧
        (∀ value ∈ slots, value < 2 ^ exponent) ∧
        ∀ value, value < 2 ^ exponent →
          slots.count value =
            if value = 0 then 2 ^ (32 - exponent) - 1 else 2 ^ (32 - exponent)) ∧
    (∀ seed, (ofSeed seed).state ≠ 0) ∧
    ∀ first second third fourth, (ofSeedBytes first second third fourth).state ≠ 0 := by
  refine ⟨step_returns_iff nonzero, fun first => count_words (after_ne_zero nonzero first), ?_,
    ofSeed_ne_zero, fun _ _ _ _ => ofSeed_ne_zero _⟩
  intro first exponent narrow window source places
  refine ⟨_, _, CollisionWindow.drawMany_eq places (by omega) _, ?_, ?_⟩
  · intro value member
    obtain ⟨word, _, rfl⟩ := List.mem_map.mp member
    exact Nat.mod_lt _ (Nat.two_pow_pos exponent)
  · intro value below
    have counted := countP_words (after_ne_zero nonzero first) (by omega : exponent ≤ 32) below
    rw [source, List.count, List.countP_map]
    refine Eq.trans counted ?_
    split <;> rfl

/-- Seed zero, a period of words from the eighth on, and draws after two collisions. -/
theorem ShiftRegister.draws_equidistributed_from_zero :
    (ofSeed 0).state ≠ 0 ∧
      (fun register : ShiftRegister => register.step.2)^[2 ^ 32 - 1] (ofSeed 0) = ofSeed 0 ∧
      (WordSource.words (2 ^ 32 - 1) (WordSource.after (ofSeed 0) 7)).1.count 0xFFFFFFFF = 1 ∧
      ∃ next slots,
        CollisionWindow.drawMany (2 ^ 32 - 1) {
          limits := CollisionLimits.ofConfig {}
          collisions := 2
          words := ofSeed 0 } = .ok (next, slots) ∧
        slots.count 3 = 2 ^ 30 := by
  have nonzero : (ofSeed 0).state ≠ 0 := by decide
  obtain ⟨returns, words, draws, _⟩ := draws_equidistributed (ofSeed 0) nonzero
  obtain ⟨next, slots, drawn, _, counts⟩ := draws 0 2 (by decide) {
    limits := CollisionLimits.ofConfig {}
    collisions := 2
    words := ofSeed 0 } rfl (by decide)
  exact ⟨nonzero, (returns _).mpr (Nat.dvd_refl _), words 7 0xFFFFFFFF, next, slots, drawn,
    counts 3 (by decide)⟩

end HalfDuplex
