import HalfDuplex.Proofs.Residual
import HalfDuplex.Reception

/-!
# Frames on the wire

What the octets of a frame look like to a receiver: `Octet.half` is a nibble as it is
taken from the line, and `frameOctets` are the bytes that an attempt consists of when
nothing stops it.  `decode_frameOctets` says that a receiver recovers the contents of the
frame with its padding, and that it refuses a frame of which an octet was corrupted.

The sequencer does not appear here.  That it drives these bytes is shown elsewhere.
-/

namespace HalfDuplex

namespace Octet

/-- One half of an octet as a receiver takes it from the line. -/
def half (octet : Octet) (high : Bool) : Option UInt8 :=
  if octet.isPoisoned then none
  else some (if high then octet.highNibble else octet.lowNibble)

/-- Both halves of an octet, in the order in which they are driven. -/
def halves (octet : Octet) : List (Option UInt8) :=
  [octet.half false, octet.half true]

/-- The byte of an octet that was not corrupted. -/
def clean? : Octet → Option UInt8
  | .byte value => some value
  | .poisoned => none

@[simp]
theorem clean?_byte (value : UInt8) : (byte value).clean? = some value :=
  rfl

theorem lowNibble_lt (octet : Octet) : octet.lowNibble < 16 := by
  rw [UInt8.lt_iff_toNat_lt, lowNibble, UInt8.toNat_and]
  exact Nat.and_lt_two_pow _ (n := 4) (by decide)

theorem highNibble_lt (octet : Octet) : octet.highNibble < 16 := by
  have bound := octet.value.toNat_lt
  rw [UInt8.lt_iff_toNat_lt, highNibble, UInt8.toNat_shiftRight]
  show octet.value.toNat >>> 4 < 2 ^ 4
  rw [Nat.shiftRight_eq_div_pow]
  omega

theorem join_nibbles (value : UInt8) :
    (value &&& (0x0F : UInt8)) ||| (value >>> (4 : UInt8)) <<< (4 : UInt8) = value := by
  apply UInt8.toBitVec_inj.mp
  ext place bound
  have places : place = 0 ∨ place = 1 ∨ place = 2 ∨ place = 3 ∨ place = 4 ∨ place = 5 ∨
      place = 6 ∨ place = 7 := by omega
  rcases places with rfl | rfl | rfl | rfl | rfl | rfl | rfl | rfl <;> simp

theorem joinNibbles_halves (octet : Octet) :
    Reception.joinNibbles (octet.half false) (octet.half true) = octet.clean? := by
  cases octet with
  | byte value => exact congrArg some (join_nibbles value)
  | poisoned => rfl

theorem length_halves (octet : Octet) : octet.halves.length = 2 :=
  rfl

end Octet

def wireNibbles (octets : List Octet) : List (Option UInt8) :=
  octets.flatMap Octet.halves

@[simp]
theorem wireNibbles_nil : wireNibbles [] = [] :=
  rfl

@[simp]
theorem wireNibbles_append (first second : List Octet) :
    wireNibbles (first ++ second) = wireNibbles first ++ wireNibbles second :=
  List.flatMap_append

@[simp]
theorem wireNibbles_singleton (octet : Octet) :
    wireNibbles [octet] = [octet.half false, octet.half true] :=
  rfl

theorem length_wireNibbles (octets : List Octet) :
    (wireNibbles octets).length = 2 * octets.length := by
  induction octets with
  | nil => rfl
  | cons octet octets inductionHypothesis =>
      show (octet.halves ++ wireNibbles octets).length = 2 * (octets.length + 1)
      rw [List.length_append, inductionHypothesis, octet.length_halves]
      omega

theorem pairNibbles_wireNibbles (octets : List Octet) :
    Reception.pairNibbles (wireNibbles octets) = octets.map Octet.clean? := by
  induction octets with
  | nil => rfl
  | cons octet octets inductionHypothesis =>
      show Reception.joinNibbles (octet.half false) (octet.half true) ::
          Reception.pairNibbles (wireNibbles octets) = _
      rw [inductionHypothesis, octet.joinNibbles_halves]
      rfl

/-! ## The parts of a frame -/

/-- The bytes of a preamble with its delimiter. -/
def preambleOctets (count : Nat) : List Octet :=
  List.replicate (count - 1) (.byte preambleByte) ++ [.byte frameDelimiter]

/-- The octets of a frame, with zeros up to the least length. -/
def paddedOctets (minFrame : Nat) (octets : List Octet) : List Octet :=
  octets ++ List.replicate (minFrame - octets.length) (.byte 0)

/-- The checksum of octets, in which a corrupted one counts as zero. -/
def checksumOf (octets : List Octet) : Checksum :=
  Checksum.start.updateAll (octets.map Octet.value)

/-- The bytes of an attempt that is sent in full. -/
def frameOctets (preambleBytes minFrame : Nat) (octets : List Octet) : List Octet :=
  preambleOctets preambleBytes ++ paddedOctets minFrame octets ++
    (checksumOf (paddedOctets minFrame octets)).trailer.map .byte

theorem length_preambleOctets {count : Nat} (positive : 0 < count) :
    (preambleOctets count).length = count := by
  simp [preambleOctets]
  omega

theorem length_preambled {count : Nat} (positive : 0 < count) (octets : List Octet) :
    (preambleOctets count ++ octets).length = count + octets.length := by
  rw [List.length_append, length_preambleOctets positive]

theorem length_paddedOctets (minFrame : Nat) (octets : List Octet) :
    (paddedOctets minFrame octets).length = max octets.length minFrame := by
  simp [paddedOctets]
  omega

theorem length_frameOctets {preambleBytes : Nat} (positive : 0 < preambleBytes)
    (minFrame : Nat) (octets : List Octet) :
    (frameOctets preambleBytes minFrame octets).length =
      preambleBytes + max octets.length minFrame + Checksum.trailerLength := by
  rw [frameOctets, List.length_append, List.length_append, length_preambleOctets positive,
    length_paddedOctets, List.length_map]
  rfl

/-! ## Reception -/

theorem afterDelimiter_preambleOctets (count : Nat) (rest : List (Option UInt8)) :
    Reception.afterDelimiter ((preambleOctets count).map Octet.clean? ++ rest) = some rest := by
  have skips (repeated : Nat) :
      Reception.afterDelimiter (List.replicate repeated (some preambleByte) ++
        some frameDelimiter :: rest) = some rest := by
    induction repeated with
    | zero => rfl
    | succ repeated inductionHypothesis =>
        rw [List.replicate_succ, List.cons_append, Reception.afterDelimiter,
          if_neg (by decide), inductionHypothesis]
  rw [preambleOctets, List.map_append, List.map_replicate, List.append_assoc]
  exact skips (count - 1)

theorem cleanBytes_of_clean {octets : List Octet}
    (clean : ∀ octet ∈ octets, octet.isPoisoned = false) :
    Reception.cleanBytes (octets.map Octet.clean?) = some (octets.map Octet.value) := by
  induction octets with
  | nil => rfl
  | cons octet octets inductionHypothesis =>
      have rest := inductionHypothesis fun other member =>
        clean other (List.mem_cons_of_mem octet member)
      cases octet with
      | byte value =>
          rw [List.map_cons, Octet.clean?_byte, Reception.cleanBytes, rest]
          rfl
      | poisoned => cases clean .poisoned List.mem_cons_self

theorem cleanBytes_of_poisoned {octets : List Octet}
    (poisoned : Octet.poisoned ∈ octets) :
    Reception.cleanBytes (octets.map Octet.clean?) = none := by
  induction octets with
  | nil => cases poisoned
  | cons octet octets inductionHypothesis =>
      cases octet with
      | byte value =>
          have later : Octet.poisoned ∈ octets := by simpa using poisoned
          rw [List.map_cons, Octet.clean?_byte, Reception.cleanBytes,
            inductionHypothesis later]
          rfl
      | poisoned => rfl

theorem openFrame_of_broken {frame : List UInt8} {minLength : Nat}
    (broken : Checksum.ofBytes frame ≠ Checksum.intactResidual) :
    openFrame frame minLength = .error .frameCheck := by
  rw [openFrame, if_pos (.inr broken)]

/-- The last four bytes of a frame have to be the trailer of what precedes them. -/
theorem openFrame_append_encode (data : List UInt8) (word : UInt32) (minLength : Nat) :
    openFrame (data ++ Checksum.encode word) minLength =
      if word ≠ Checksum.ofBytes data then .error .frameCheck
      else if data.length + Checksum.trailerLength < minLength then .error .padding
      else .ok data := by
  have length : (data ++ Checksum.encode word).length =
      data.length + Checksum.trailerLength := by
    rw [List.length_append, Checksum.length_encode]
  have long : ¬ data.length + Checksum.trailerLength < Checksum.trailerLength :=
    Nat.not_lt.mpr (Nat.le_add_left _ _)
  simp only [openFrame, length, or_iff_right long, ne_eq,
    Checksum.ofBytes_append_encode_eq_iff, Nat.add_sub_cancel, List.take_left]

theorem openFrame_sealed {minLength : Nat} (data : List UInt8)
    (long : minLength ≤ data.length + Checksum.trailerLength) :
    openFrame (Checksum.sealed data) minLength = .ok data := by
  rw [Checksum.sealed, openFrame_append_encode, if_neg (Decidable.not_not.mpr rfl),
    if_neg (Nat.not_lt.mpr long)]

/-- The octets of a frame with their checksum are sealed contents. -/
theorem map_value_sealed (octets : List Octet) :
    (octets ++ (checksumOf octets).trailer.map Octet.byte).map Octet.value =
      Checksum.sealed (octets.map Octet.value) := by
  rw [List.map_append, List.map_map]
  show octets.map Octet.value ++ (checksumOf octets).trailer.map id = _
  rw [List.map_id]
  rfl

/-- Padding and checksum are clean. -/
theorem clean_sealed {octets : List Octet} (minFrame : Nat) (bytes : List UInt8)
    (clean : ∀ octet ∈ octets, octet.isPoisoned = false) :
    ∀ octet ∈ paddedOctets minFrame octets ++ bytes.map Octet.byte,
      octet.isPoisoned = false := by
  intro octet member
  rcases List.mem_append.mp member with inPadded | inTrailer
  · rcases List.mem_append.mp inPadded with inFrame | inPadding
    · exact clean octet inFrame
    · rw [List.eq_of_mem_replicate inPadding]
      rfl
  · obtain ⟨byte, _, rfl⟩ := List.mem_map.mp inTrailer
    rfl

/-- A receiver recovers the contents of a frame with its padding, and it refuses a frame
of which an octet was corrupted. -/
theorem decode_frameOctets (preambleBytes minFrame : Nat) (octets : List Octet) :
    Reception.decode (wireNibbles (frameOctets preambleBytes minFrame octets))
        (minFrame + Checksum.trailerLength) =
      if ∀ octet ∈ octets, octet.isPoisoned = false then
        .ok ((paddedOctets minFrame octets).map Octet.value)
      else .error .frameCheck := by
  let padded := paddedOctets minFrame octets
  let trailer := (checksumOf padded).trailer
  have even : (wireNibbles (frameOctets preambleBytes minFrame octets)).length % 2 = 0 := by
    rw [length_wireNibbles]
    omega
  have found :
      Reception.afterDelimiter (Reception.pairNibbles
          (wireNibbles (frameOctets preambleBytes minFrame octets))) =
        some ((padded ++ trailer.map Octet.byte).map Octet.clean?) := by
    rw [pairNibbles_wireNibbles, frameOctets, List.append_assoc, List.map_append,
      afterDelimiter_preambleOctets]
  rw [Reception.decode, if_neg (Decidable.not_not.mpr even), found]
  by_cases corrupted : Octet.poisoned ∈ octets
  · have dirty : ¬ ∀ octet ∈ octets, octet.isPoisoned = false := fun clean =>
      nomatch clean .poisoned corrupted
    have corruptedAll : Octet.poisoned ∈ padded ++ trailer.map Octet.byte :=
      List.mem_append_left _ (List.mem_append_left _ corrupted)
    rw [if_neg dirty]
    simp only [cleanBytes_of_poisoned corruptedAll]
  · have clean : ∀ octet ∈ octets, octet.isPoisoned = false := by
      intro octet member
      cases octet with
      | byte value => rfl
      | poisoned => exact absurd member corrupted
    have cleanAll : ∀ octet ∈ padded ++ trailer.map Octet.byte, octet.isPoisoned = false :=
      clean_sealed minFrame trailer clean
    have bytes : (padded ++ trailer.map Octet.byte).map Octet.value =
        Checksum.sealed (padded.map Octet.value) :=
      map_value_sealed padded
    have long : minFrame ≤ (padded.map Octet.value).length := by
      rw [List.length_map, length_paddedOctets]
      exact Nat.le_max_right _ _
    rw [if_pos clean]
    simp only [cleanBytes_of_clean cleanAll, bytes]
    exact openFrame_sealed _ (by omega)

end HalfDuplex
