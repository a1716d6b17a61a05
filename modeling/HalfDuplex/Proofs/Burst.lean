import HalfDuplex.Proofs.RegisterPeriod
import HalfDuplex.Proofs.Wire
import HalfDuplex.Source.Script
import Mathlib.Data.List.Infix

/-!
# Bursts

A `Burst` is what an attempt has driven when it ends: the frame in full, or the beginning
of it with the error marker or with a jam.  The receiver takes in a frame that was sent in
full and no other burst (`Burst.decode`), with one reservation.  A beginning of the frame
may by chance pass for a frame when the jam follows it, so that `JamProof` excludes this.

No reservation is needed for a collision so late that the whole frame is on the line when
the jam begins.  The checksum of an intact frame is then carried on through the bytes of
the jam, and it does not return to where it was before all other values of the register
were taken.
-/

namespace HalfDuplex

/-- The octet in a place of a frame, if there is one. -/
def ScriptEntry.octet? : ScriptEntry → Option Octet
  | .octet value => some value
  | .stall => none

/-- The octets of a frame. -/
def octetsOf (front : List ScriptEntry) : List Octet :=
  front.filterMap ScriptEntry.octet?

/-- The contents of a frame as a receiver gets them, padded to the least length. -/
def contentsOf (minFrame : Nat) (front : List ScriptEntry) : List UInt8 :=
  (paddedOctets minFrame (octetsOf front)).map Octet.value

/-- No octet of the frame was corrupted. -/
def Clean (front : List ScriptEntry) : Prop :=
  ∀ octet ∈ octetsOf front, octet.isPoisoned = false

/-- A byte of the jam. -/
def jamByte : UInt8 := jamNibble ||| jamNibble <<< 4

/-- No beginning of the sealed contents passes for a frame when the jam follows it. -/
def JamProof (jamBytes minLength : Nat) (contents : List UInt8) : Prop :=
  ∀ cut, cut <+: Checksum.sealed contents → cut ≠ Checksum.sealed contents →
    ∀ data, openFrame (cut ++ List.replicate jamBytes jamByte) minLength ≠ .ok data

instance (front : List ScriptEntry) : Decidable (Clean front) :=
  inferInstanceAs (Decidable (∀ octet ∈ octetsOf front, octet.isPoisoned = false))

theorem jamProof_iff {jamBytes minLength : Nat} {contents : List UInt8} :
    JamProof jamBytes minLength contents ↔
      ∀ cut ∈ (Checksum.sealed contents).inits, cut ≠ Checksum.sealed contents →
        (openFrame (cut ++ List.replicate jamBytes jamByte) minLength).isOk = false := by
  have refused {opened : Except ReceiveError (List UInt8)} :
      (∀ data, opened ≠ .ok data) ↔ opened.isOk = false := by
    cases opened with
    | error => exact iff_of_true nofun rfl
    | ok data => exact iff_of_false (fun refused => refused data rfl) nofun
  unfold JamProof
  simp only [List.mem_inits, refused]

instance (jamBytes minLength : Nat) (contents : List UInt8) :
    Decidable (JamProof jamBytes minLength contents) :=
  decidable_of_iff _ jamProof_iff.symm

/-- The nibbles of an attempt from its first one to its last one, by how it ended.  What a
collision left of the preamble is added to the jam. -/
inductive Burst (preambleBytes minFrame jamBytes : Nat) (front : List ScriptEntry) :
    Ending → List (Option UInt8) → Prop
  | sent {octets : List Octet}
      (whole : front = octets.map .octet) :
      Burst preambleBytes minFrame jamBytes front .sent
        (wireNibbles (frameOctets preambleBytes minFrame octets))
  | underflow (octets : List Octet) :
      Burst preambleBytes minFrame jamBytes front .underflow
        (wireNibbles (preambleOctets preambleBytes ++ octets ++ [.poisoned]))
  | jammed {bytes : List Octet}
      (begun : bytes <+: frameOctets preambleBytes minFrame (octetsOf front)) :
      Burst preambleBytes minFrame jamBytes front .jammed
        (wireNibbles bytes ++
          List.replicate (2 * (jamBytes + (preambleBytes - bytes.length))) (some jamNibble))

theorem octetsOf_map (octets : List Octet) : octetsOf (octets.map .octet) = octets := by
  have kept : ScriptEntry.octet? ∘ ScriptEntry.octet = some := rfl
  rw [octetsOf, List.filterMap_map, kept, List.filterMap_some]

/-! ## A frame that is carried on -/

namespace Checksum

theorem shiftBits_eq (count : Nat) (word : UInt32) :
    shiftBits count word = (GaloisRegister.shift polynomial)^[count] word := by
  induction count generalizing word with
  | zero => rfl
  | succ count inductionHypothesis =>
      rw [shiftBits, inductionHypothesis]
      rfl

theorem primitive_polynomial : GaloisRegister.Primitive polynomial := by
  decide +kernel

theorem absorb_xor (left right : UInt32) (byte : UInt8) :
    absorb left byte ^^^ absorb right byte = shiftBits 8 (left ^^^ right) := by
  rw [absorb, absorb, ← shiftBits_xor]
  congr 1
  calc left ^^^ byte.toUInt32 ^^^ (right ^^^ byte.toUInt32)
      = left ^^^ right ^^^ (byte.toUInt32 ^^^ byte.toUInt32) := by ac_rfl
    _ = left ^^^ right := by rw [UInt32.xor_self, UInt32.xor_zero]

/-- The same bytes keep the difference of two registers, but for the shifts. -/
theorem iterate_absorb_xor (left right : UInt32) (byte : UInt8) (count : Nat) :
    (absorb · byte)^[count] left ^^^ (absorb · byte)^[count] right =
      shiftBits (8 * count) (left ^^^ right) := by
  induction count generalizing left right with
  | zero => rfl
  | succ count inductionHypothesis =>
      rw [Function.iterate_succ_apply, Function.iterate_succ_apply, inductionHypothesis,
        absorb_xor, shiftBits_eq, shiftBits_eq, shiftBits_eq, ← Function.iterate_add_apply,
        Nat.mul_succ]

theorem register_updateAll_replicate (checksum : Checksum) (byte : UInt8) (count : Nat) :
    (checksum.updateAll (List.replicate count byte)).register =
      (absorb · byte)^[count] checksum.register := by
  induction count generalizing checksum with
  | zero => rfl
  | succ count inductionHypothesis =>
      rw [List.replicate_succ, updateAll_cons, inductionHypothesis]
      rfl

/-- A register that a byte changes is not the same again after fewer bytes than words. -/
theorem iterate_absorb_ne {register : UInt32} {byte : UInt8} {count : Nat}
    (changes : absorb register byte ≠ register)
    (positive : 0 < count)
    (few : count < GaloisRegister.fullPeriod) :
    (absorb · byte)^[count] register ≠ register := by
  intro back
  have moved : (absorb · byte)^[count] (absorb register byte) = absorb register byte := by
    rw [← Function.iterate_succ_apply (absorb · byte), Function.iterate_succ_apply', back]
  have difference := iterate_absorb_xor (absorb register byte) register byte count
  rw [moved, back, shiftBits_eq] at difference
  have nonzero : absorb register byte ^^^ register ≠ 0 := by
    intro zero
    exact changes (UInt32.xor_eq_zero_iff.mp zero)
  have divides : GaloisRegister.fullPeriod ∣ 8 * count :=
    (GaloisRegister.iterate_eq_self_iff primitive_polynomial nonzero _).mp difference.symm
  have odd : Nat.Coprime GaloisRegister.fullPeriod 8 := by decide
  exact Nat.not_le_of_lt few (Nat.le_of_dvd positive (odd.dvd_of_dvd_mul_left divides))

/-- An intact frame that bytes of a jam follow is not intact. -/
theorem ofBytes_sealed_append_jam {count : Nat} (data : List UInt8)
    (positive : 0 < count)
    (few : count < GaloisRegister.fullPeriod) :
    ofBytes (Checksum.sealed data ++ List.replicate count jamByte) ≠ intactResidual := by
  have residual := residual_sealed data
  rw [ofBytes, value] at residual
  have register : (start.updateAll (Checksum.sealed data)).register =
      intactResidual ^^^ 0xFFFFFFFF := by
    rw [← residual, UInt32.xor_assoc, UInt32.xor_self, UInt32.xor_zero]
  have changes : absorb (intactResidual ^^^ 0xFFFFFFFF) jamByte ≠
      intactResidual ^^^ 0xFFFFFFFF := by
    decide +kernel
  intro intact
  rw [ofBytes, value, updateAll_append, register_updateAll_replicate, register] at intact
  apply iterate_absorb_ne changes positive few
  conv_rhs => rw [← intact]
  rw [UInt32.xor_assoc, UInt32.xor_self, UInt32.xor_zero]

end Checksum

/-! ## Reception -/

open Reception

theorem pairNibbles_wireNibbles_append (octets : List Octet) (rest : List (Option UInt8)) :
    pairNibbles (wireNibbles octets ++ rest) =
      octets.map Octet.clean? ++ pairNibbles rest := by
  induction octets with
  | nil => rfl
  | cons octet octets inductionHypothesis =>
      show joinNibbles (octet.half false) (octet.half true) ::
          pairNibbles (wireNibbles octets ++ rest) = _
      rw [inductionHypothesis, octet.joinNibbles_halves]
      rfl

theorem pairNibbles_jam (count : Nat) :
    pairNibbles (List.replicate (2 * count) (some jamNibble)) =
      List.replicate count (some jamByte) := by
  induction count with
  | zero => rfl
  | succ count inductionHypothesis =>
      show joinNibbles (some jamNibble) (some jamNibble) ::
          pairNibbles (List.replicate (2 * count) (some jamNibble)) = _
      rw [inductionHypothesis]
      rfl

/-- The nibbles of whole octets and of a jam pair up. -/
theorem even_jammed (octets : List Octet) (jam : Nat) :
    (wireNibbles octets ++ List.replicate (2 * jam) (some jamNibble)).length % 2 = 0 := by
  rw [List.length_append, length_wireNibbles, List.length_replicate]
  omega

theorem afterDelimiter_replicate (count : Nat) {byte : Option UInt8}
    (other : byte ≠ some frameDelimiter) :
    afterDelimiter (List.replicate count byte) = none := by
  induction count with
  | zero => rfl
  | succ count inductionHypothesis =>
      rw [List.replicate_succ, afterDelimiter, if_neg other, inductionHypothesis]

theorem cleanBytes_map_some (data : List UInt8) : cleanBytes (data.map some) = some data := by
  induction data with
  | nil => rfl
  | cons byte data inductionHypothesis =>
      rw [List.map_cons, cleanBytes, inductionHypothesis]
      rfl

/-- A jam that cuts the preamble off before its end leaves no delimiter. -/
theorem decode_cut_preamble {preambleBytes minLength : Nat} {bytes : List Octet} (jam : Nat)
    (begun : bytes <+: preambleOctets preambleBytes)
    (short : bytes.length < preambleBytes) :
    decode (wireNibbles bytes ++ List.replicate (2 * jam) (some jamNibble)) minLength =
      .error .noDelimiter := by
  have early : bytes <+: List.replicate (preambleBytes - 1) (.byte preambleByte) := by
    have within : bytes.length ≤ preambleBytes - 1 := by omega
    have first : List.replicate (preambleBytes - 1) (.byte preambleByte) <+:
        preambleOctets preambleBytes :=
      List.prefix_append _ _
    refine List.prefix_of_prefix_length_le begun first ?_
    rw [List.length_replicate]
    exact within
  have same : bytes = List.replicate bytes.length (.byte preambleByte) := by
    rw [List.eq_replicate_iff]
    exact ⟨rfl, fun octet member => List.eq_of_mem_replicate (early.subset member)⟩
  have jammed : jamByte = preambleByte := by decide
  have even := even_jammed bytes jam
  have found : afterDelimiter (pairNibbles (wireNibbles bytes ++
      List.replicate (2 * jam) (some jamNibble))) = none := by
    rw [pairNibbles_wireNibbles_append, pairNibbles_jam, same, List.map_replicate, jammed,
      Octet.clean?_byte, ← List.replicate_add]
    exact afterDelimiter_replicate _ (by decide)
  rw [decode, if_neg (Decidable.not_not.mpr even), found]

/-- What follows the delimiter is opened as a frame. -/
theorem decode_preamble_jam {preambleBytes minLength : Nat} {cut : List Octet} (jam : Nat)
    (clean : ∀ octet ∈ cut, octet.isPoisoned = false) :
    decode (wireNibbles (preambleOctets preambleBytes ++ cut) ++
        List.replicate (2 * jam) (some jamNibble)) minLength =
      openFrame (cut.map Octet.value ++ List.replicate jam jamByte) minLength := by
  have even := even_jammed (preambleOctets preambleBytes ++ cut) jam
  have bytes : cut.map Octet.clean? ++ List.replicate jam (some jamByte) =
      (cut.map Octet.value ++ List.replicate jam jamByte).map some := by
    rw [List.map_append, List.map_replicate, List.map_map]
    congr 1
    apply List.map_congr_left
    intro octet member
    cases octet with
    | byte value => rfl
    | poisoned => cases clean .poisoned member
  have found : afterDelimiter (pairNibbles (wireNibbles (preambleOctets preambleBytes ++ cut) ++
      List.replicate (2 * jam) (some jamNibble))) =
        some ((cut.map Octet.value ++ List.replicate jam jamByte).map some) := by
    rw [pairNibbles_wireNibbles_append, pairNibbles_jam, List.map_append, List.append_assoc,
      afterDelimiter_preambleOctets, bytes]
  rw [decode, if_neg (Decidable.not_not.mpr even), found]
  simp only [cleanBytes_map_some]

/-- A frame with the error marker is refused. -/
theorem decode_marked {preambleBytes minLength : Nat} (octets : List Octet) :
    decode (wireNibbles (preambleOctets preambleBytes ++ octets ++ [.poisoned])) minLength =
      .error .frameCheck := by
  have even : (wireNibbles
      (preambleOctets preambleBytes ++ octets ++ [.poisoned])).length % 2 = 0 := by
    rw [length_wireNibbles]
    omega
  have marked : Octet.poisoned ∈ octets ++ [.poisoned] :=
    List.mem_append_right octets (List.mem_singleton_self _)
  rw [decode, if_neg (Decidable.not_not.mpr even), pairNibbles_wireNibbles, List.append_assoc,
    List.map_append, afterDelimiter_preambleOctets]
  simp only [cleanBytes_of_poisoned marked]

theorem toOption_eq_none {ε α : Type} {result : Except ε α}
    (refused : ∀ a, result ≠ .ok a) :
    result.toOption = none := by
  cases result with
  | error => rfl
  | ok a => exact absurd rfl (refused a)

namespace Burst

variable {preambleBytes minFrame jamBytes : Nat} {front : List ScriptEntry} {ending : Ending}
  {nibbles : List (Option UInt8)}

/-- A frame that a jam follows, wherever it begins, is refused. -/
theorem decode_jammed {bytes : List Octet}
    (positive : 0 < preambleBytes)
    (clean : Clean front)
    (jams : 0 < jamBytes)
    (few : jamBytes < GaloisRegister.fullPeriod)
    (proof : JamProof jamBytes (minFrame + Checksum.trailerLength) (contentsOf minFrame front))
    (begun : bytes <+: frameOctets preambleBytes minFrame (octetsOf front)) :
    (decode (wireNibbles bytes ++
        List.replicate (2 * (jamBytes + (preambleBytes - bytes.length))) (some jamNibble))
      (minFrame + Checksum.trailerLength)).toOption = none := by
  let trailer := (checksumOf (paddedOctets minFrame (octetsOf front))).trailer
  let frame := paddedOctets minFrame (octetsOf front) ++ trailer.map Octet.byte
  have whole : frameOctets preambleBytes minFrame (octetsOf front) =
      preambleOctets preambleBytes ++ frame :=
    List.append_assoc _ _ _
  rw [whole] at begun
  -- Cut in the preamble, the burst never shows a delimiter.  Cut after it, the delimiter is
  -- where it belongs, and the beginning of the frame is what the receiver opens.
  by_cases short : bytes.length < preambleBytes
  · have early : bytes <+: preambleOctets preambleBytes := by
      refine List.prefix_of_prefix_length_le begun (List.prefix_append _ _) ?_
      rw [length_preambleOctets positive]
      exact Nat.le_of_lt short
    rw [decode_cut_preamble _ early short]
    rfl
  · have opened : preambleOctets preambleBytes <+: bytes := by
      refine List.prefix_of_prefix_length_le (List.prefix_append _ _) begun ?_
      rw [length_preambleOctets positive]
      exact Nat.le_of_not_lt short
    obtain ⟨cut, rfl⟩ := opened
    have begunFrame : cut <+: frame := (List.prefix_append_right_inj _).mp begun
    have cleanCut : ∀ octet ∈ cut, octet.isPoisoned = false := fun octet member =>
      clean_sealed minFrame trailer clean octet (begunFrame.subset member)
    have sealedFrame : frame.map Octet.value = Checksum.sealed (contentsOf minFrame front) :=
      map_value_sealed _
    have nothingOwed : preambleBytes - (preambleOctets preambleBytes ++ cut).length = 0 := by
      rw [List.length_append, length_preambleOctets positive]
      omega
    rw [nothingOwed, Nat.add_zero, decode_preamble_jam _ cleanCut]
    apply toOption_eq_none
    -- `proof` does not speak of the frame in full, whose checksum the jam breaks for certain.
    by_cases all : cut.map Octet.value = Checksum.sealed (contentsOf minFrame front)
    · rw [all, openFrame_of_broken (Checksum.ofBytes_sealed_append_jam _ jams few)]
      nofun
    · exact proof _ (sealedFrame ▸ begunFrame.map Octet.value) all

/-- A receiver takes in the contents of a frame that was sent in full, and nothing else. -/
theorem decode
    (positive : 0 < preambleBytes)
    (clean : Clean front)
    (jams : 0 < jamBytes)
    (few : jamBytes < GaloisRegister.fullPeriod)
    (proof : JamProof jamBytes (minFrame + Checksum.trailerLength) (contentsOf minFrame front))
    (burst : Burst preambleBytes minFrame jamBytes front ending nibbles) :
    (Reception.decode nibbles (minFrame + Checksum.trailerLength)).toOption =
      if ending = .sent then some (contentsOf minFrame front) else none := by
  cases burst with
  | @sent octets whole =>
      subst whole
      rw [Clean, octetsOf_map] at clean
      rw [decode_frameOctets, if_pos clean, contentsOf, octetsOf_map]
      rfl
  | underflow octets =>
      rw [decode_marked]
      rfl
  | jammed begun => exact decode_jammed positive clean jams few proof begun

end Burst

end HalfDuplex
