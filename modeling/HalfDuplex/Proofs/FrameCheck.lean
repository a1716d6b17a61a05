import HalfDuplex.Proofs.Wire
import Mathlib.Data.List.Basic

/-!
# What the frame check accepts

A receiver compares the checksum of contents and trailer with one constant and never looks
at the trailer by itself.  It opens exactly the contents that their own trailer follows,
because any four bytes are the trailer of one checksum, and the constant is left by no other
trailer than that of the contents.

The register after four bytes tells these bytes, and registers that differ still do so after
the same bytes.  A frame in which nothing but four consecutive bytes was changed is therefore
refused, wherever these bytes are.

Main results: `opens_exactly_sealed` and `refuses_burst_error`.
-/

namespace HalfDuplex

/-! ## Trailers -/

namespace Checksum

/-- The bytes of a trailer are the digits of the checksum. -/
theorem toNat_encode (word : UInt32) :
    (encode word).map UInt8.toNat =
      [word.toNat % 2 ^ 8, word.toNat / 2 ^ 8 % 2 ^ 8, word.toNat / 2 ^ 16 % 2 ^ 8,
        word.toNat / 2 ^ 24 % 2 ^ 8] := by
  simp [encode, UInt32.toNat_toUInt8, UInt32.toNat_shiftRight, Nat.shiftRight_eq_div_pow]

/-- Any four bytes are the trailer of a checksum. -/
theorem exists_encode_eq {bytes : List UInt8} (four : bytes.length = trailerLength) :
    ∃ word, encode word = bytes := by
  match bytes, four with
  | [lowest, second, third, highest], _ =>
      let number := lowest.toNat + 2 ^ 8 * second.toNat + 2 ^ 16 * third.toNat +
        2 ^ 24 * highest.toNat
      refine ⟨UInt32.ofNat number, ?_⟩
      apply List.map_injective_iff.mpr fun _ _ => UInt8.toNat_inj.mp
      have lowestBound := lowest.toNat_lt
      have secondBound := second.toNat_lt
      have thirdBound := third.toNat_lt
      have highestBound := highest.toNat_lt
      have whole : (UInt32.ofNat number).toNat = number :=
        UInt32.toNat_ofNat_of_lt' (by simp only [UInt32.size, number]; omega)
      rw [toNat_encode, whole]
      simp only [List.map_cons, List.map_nil, List.cons.injEq, and_true, number]
      omega

theorem register_injective : Function.Injective register := by
  intro left right same
  cases left
  cases right
  exact congrArg Checksum.mk same

theorem value_injective : Function.Injective value := by
  intro left right same
  exact register_injective ((UInt32.xor_left_inj 0xFFFFFFFF).mp same)

theorem absorb_injective (byte : UInt8) : Function.Injective (absorb · byte) := by
  intro left right same
  have shifted : left ^^^ byte.toUInt32 = right ^^^ byte.toUInt32 := shiftBits_injective same
  exact (UInt32.xor_left_inj byte.toUInt32).mp shifted

/-- Checksums that differ still differ after the same bytes. -/
theorem updateAll_injective (data : List UInt8) :
    Function.Injective (updateAll · data) := by
  induction data with
  | nil => exact Function.injective_id
  | cons byte data inductionHypothesis =>
      intro left right same
      have updated : left.update byte = right.update byte := inductionHypothesis same
      exact register_injective (absorb_injective byte (congrArg register updated))

/-- The state of a checksum tells the four bytes that were last. -/
theorem updateAll_encode_injective (checksum : Checksum) :
    Function.Injective fun word => checksum.updateAll (encode word) := by
  intro word other same
  have register := congrArg Checksum.register same
  simp only [encode, updateAll_cons, updateAll_nil, update, absorb_word] at register
  have shifted := shiftBits_injective (shiftBits_injective (shiftBits_injective
    (shiftBits_injective register)))
  exact (UInt32.xor_right_inj checksum.register).mp shifted

theorem encode_injective : Function.Injective encode := by
  intro word other same
  exact updateAll_encode_injective start (congrArg start.updateAll same)

end Checksum

/-! ## Frames that are opened -/

/-- A frame that is long enough ends with a trailer. -/
theorem exists_append_encode_eq {frame : List UInt8}
    (long : Checksum.trailerLength ≤ frame.length) :
    ∃ data word, frame = data ++ Checksum.encode word := by
  have four : (frame.drop (frame.length - Checksum.trailerLength)).length =
      Checksum.trailerLength := by
    rw [List.length_drop, Nat.sub_sub_self long]
  obtain ⟨word, trailer⟩ := Checksum.exists_encode_eq four
  refine ⟨frame.take (frame.length - Checksum.trailerLength), word, ?_⟩
  rw [trailer, List.take_append_drop]

theorem append_encode_eq_sealed_iff {data contents : List UInt8} {word : UInt32} :
    data ++ Checksum.encode word = Checksum.sealed contents ↔
      data = contents ∧ word = Checksum.ofBytes data := by
  constructor
  · intro equality
    obtain ⟨same, trailers⟩ := List.append_inj' equality rfl
    rw [same]
    exact ⟨rfl, Checksum.encode_injective trailers⟩
  · rintro ⟨rfl, rfl⟩
    rfl

theorem trailerLength_le_of_sealed {frame contents : List UInt8}
    (whole : frame = Checksum.sealed contents) :
    Checksum.trailerLength ≤ frame.length := by
  rw [whole, Checksum.sealed, List.length_append, Checksum.length_encode]
  exact Nat.le_add_left _ _

variable {frame contents : List UInt8} {minLength : Nat}

theorem openFrame_of_short (short : frame.length < Checksum.trailerLength) :
    openFrame frame minLength = .error .frameCheck := by
  rw [openFrame, if_pos (.inl short)]

/-- A frame is sealed, or it is refused whatever its least length. -/
theorem sealed_or_refused (frame : List UInt8) (minLength : Nat) :
    (∃ contents, frame = Checksum.sealed contents ∧
        openFrame frame minLength =
          if frame.length < minLength then .error .padding else .ok contents) ∨
      (∀ contents, frame ≠ Checksum.sealed contents) ∧
        openFrame frame minLength = .error .frameCheck := by
  rcases Nat.lt_or_ge frame.length Checksum.trailerLength with short | long
  · refine .inr ⟨fun contents whole => ?_, openFrame_of_short short⟩
    exact Nat.not_le.mpr short (trailerLength_le_of_sealed whole)
  · obtain ⟨data, word, rfl⟩ := exists_append_encode_eq long
    rw [openFrame_append_encode]
    by_cases intact : word = Checksum.ofBytes data
    · refine .inl ⟨data, append_encode_eq_sealed_iff.mpr ⟨rfl, intact⟩, ?_⟩
      rw [if_neg (Decidable.not_not.mpr intact), List.length_append, Checksum.length_encode]
    · refine .inr ⟨fun contents whole => ?_, if_pos intact⟩
      exact intact (append_encode_eq_sealed_iff.mp whole).2

theorem sealed_injective : Function.Injective Checksum.sealed := by
  intro contents other same
  exact (append_encode_eq_sealed_iff.mp same).1

theorem openFrame_eq_ok_iff :
    openFrame frame minLength = .ok contents ↔
      frame = Checksum.sealed contents ∧ minLength ≤ frame.length := by
  rcases sealed_or_refused frame minLength with ⟨data, whole, opened⟩ | ⟨unsealed, refused⟩
  · rw [opened, whole, sealed_injective.eq_iff]
    split
    · rename_i short
      exact ⟨nofun, fun ⟨_, long⟩ => absurd long (Nat.not_le.mpr short)⟩
    · rename_i long
      rw [Except.ok.injEq]
      exact (and_iff_left (Nat.not_lt.mp long)).symm
  · rw [refused]
    exact ⟨nofun, fun ⟨whole, _⟩ => absurd whole (unsealed contents)⟩

theorem openFrame_eq_padding_iff :
    openFrame frame minLength = .error .padding ↔
      (∃ contents, frame = Checksum.sealed contents) ∧ frame.length < minLength := by
  rcases sealed_or_refused frame minLength with ⟨data, whole, opened⟩ | ⟨unsealed, refused⟩
  · rw [opened, and_iff_right ⟨data, whole⟩]
    split
    · rename_i short
      exact iff_of_true rfl short
    · rename_i long
      exact iff_of_false nofun long
  · rw [refused]
    exact ⟨nofun, fun ⟨⟨contents, whole⟩, _⟩ => absurd whole (unsealed contents)⟩

theorem openFrame_eq_frameCheck_iff :
    openFrame frame minLength = .error .frameCheck ↔
      ∀ contents, frame ≠ Checksum.sealed contents := by
  rcases sealed_or_refused frame minLength with ⟨data, whole, opened⟩ | ⟨unsealed, refused⟩
  · rw [opened]
    refine iff_of_false ?_ fun unsealed => unsealed data whole
    split <;> nofun
  · exact iff_of_true refused unsealed

/-- The frame check opens exactly the frames that are contents followed by their own trailer
and have the least length.  Such frames that are shorter are refused for it, and all others
because of the check, those without room for a trailer among them. -/
theorem opens_exactly_sealed (frame : List UInt8) (minLength : Nat) :
    (∀ contents, openFrame frame minLength = .ok contents ↔
      frame = contents ++ Checksum.encode (Checksum.ofBytes contents) ∧
        minLength ≤ frame.length) ∧
    (openFrame frame minLength = .error .padding ↔
      (∃ contents, frame = contents ++ Checksum.encode (Checksum.ofBytes contents)) ∧
        frame.length < minLength) ∧
    (openFrame frame minLength = .error .frameCheck ↔
      frame.length < Checksum.trailerLength ∨
        ∀ contents, frame ≠ contents ++ Checksum.encode (Checksum.ofBytes contents)) := by
  refine ⟨fun _ => openFrame_eq_ok_iff, openFrame_eq_padding_iff, ?_⟩
  constructor
  · intro refused
    exact .inr (openFrame_eq_frameCheck_iff.mp refused)
  · rintro (short | unsealed)
    · exact openFrame_of_short short
    · exact openFrame_eq_frameCheck_iff.mpr unsealed

/-! ## Errors in four consecutive bytes -/

/-- Frames that differ within four consecutive bytes alone have the rest in common. -/
theorem exists_common_rest {frame corrupted : List UInt8} {first : Nat}
    (long : Checksum.trailerLength ≤ frame.length)
    (sameLength : corrupted.length = frame.length)
    (outside : ∀ place, place < first ∨ first + Checksum.trailerLength ≤ place →
      corrupted[place]? = frame[place]?) :
    ∃ before after word other, frame = before ++ (Checksum.encode word ++ after) ∧
      corrupted = before ++ (Checksum.encode other ++ after) := by
  -- Bytes at the end of the frame are among its last four.
  let begun := min first (frame.length - Checksum.trailerLength)
  have beforeSame : corrupted.take begun = frame.take begun := by
    apply List.ext_getElem?
    intro place
    rw [List.getElem?_take, List.getElem?_take]
    split
    · rename_i early
      exact outside place (.inl (Nat.lt_of_lt_of_le early (Nat.min_le_left _ _)))
    · rfl
  have afterSame : corrupted.drop (begun + Checksum.trailerLength) =
      frame.drop (begun + Checksum.trailerLength) := by
    apply List.ext_getElem?
    intro place
    rw [List.getElem?_drop, List.getElem?_drop]
    rcases Nat.lt_or_ge (begun + Checksum.trailerLength + place) frame.length with inside | past
    · exact outside _ (.inr (by omega))
    · rw [List.getElem?_eq_none past, List.getElem?_eq_none (sameLength ▸ past)]
  have four (bytes : List UInt8) (same : bytes.length = frame.length) :
      ((bytes.drop begun).take Checksum.trailerLength).length = Checksum.trailerLength := by
    rw [List.length_take, List.length_drop, same]
    omega
  have parts (bytes : List UInt8) (word : UInt32)
      (encoded : Checksum.encode word = (bytes.drop begun).take Checksum.trailerLength) :
      bytes = bytes.take begun ++
        (Checksum.encode word ++ bytes.drop (begun + Checksum.trailerLength)) := by
    rw [encoded, ← List.drop_drop, List.take_append_drop, List.take_append_drop]
  obtain ⟨word, encoded⟩ := Checksum.exists_encode_eq (four frame rfl)
  obtain ⟨other, encodedOther⟩ := Checksum.exists_encode_eq (four corrupted sameLength)
  refine ⟨_, _, word, other, parts frame word encoded, ?_⟩
  rw [← beforeSame, ← afterSame]
  exact parts corrupted other encodedOther

/-- Frames that differ in four consecutive bytes alone have different checksums. -/
theorem ofBytes_injective_in_word (before after : List UInt8) :
    Function.Injective fun word =>
      Checksum.ofBytes (before ++ (Checksum.encode word ++ after)) := by
  intro word other same
  have checksums := Checksum.value_injective same
  rw [Checksum.updateAll_append, Checksum.updateAll_append, Checksum.updateAll_append,
    Checksum.updateAll_append] at checksums
  have halfway := Checksum.updateAll_injective after checksums
  exact Checksum.updateAll_encode_injective _ halfway

/-- A frame that was opened is refused, whatever the least length, once it is changed within
four consecutive bytes and nowhere else. -/
theorem refuses_burst_error {corrupted : List UInt8} {otherLength first : Nat}
    (opened : openFrame frame minLength = .ok contents)
    (sameLength : corrupted.length = frame.length)
    (changed : corrupted ≠ frame)
    (outside : ∀ place, place < first ∨ first + 4 ≤ place →
      corrupted[place]? = frame[place]?) :
    openFrame corrupted otherLength = .error .frameCheck := by
  obtain ⟨whole, _⟩ := openFrame_eq_ok_iff.mp opened
  have intact : Checksum.ofBytes frame = Checksum.intactResidual := by
    rw [whole, Checksum.residual_sealed]
  obtain ⟨before, after, word, other, rfl, rfl⟩ :=
    exists_common_rest (trailerLength_le_of_sealed whole) sameLength outside
  refine openFrame_of_broken fun intactToo => changed ?_
  have same : other = word :=
    ofBytes_injective_in_word before after (intactToo.trans intact.symm)
  rw [same]

/-- Two bytes of the contents and two of the trailer are changed. -/
theorem refuses_burst_error_across_trailer :
    openFrame [0x12, 0x34, 0x56, 0x3A, 0xA9, 0xC1, 0xD9] 7 = .ok [0x12, 0x34, 0x56] ∧
      (∀ place, place < 1 ∨ 1 + 4 ≤ place →
        [0x12, 0x43, 0x65, 0xA3, 0x9A, 0xC1, 0xD9][place]? =
          ([0x12, 0x34, 0x56, 0x3A, 0xA9, 0xC1, 0xD9] : List UInt8)[place]?) ∧
      openFrame [0x12, 0x43, 0x65, 0xA3, 0x9A, 0xC1, 0xD9] 0 = .error .frameCheck := by
  have opened :
      openFrame [0x12, 0x34, 0x56, 0x3A, 0xA9, 0xC1, 0xD9] 7 = .ok [0x12, 0x34, 0x56] := by
    decide +kernel
  have outside : ∀ place, place < 1 ∨ 1 + 4 ≤ place →
      [0x12, 0x43, 0x65, 0xA3, 0x9A, 0xC1, 0xD9][place]? =
        ([0x12, 0x34, 0x56, 0x3A, 0xA9, 0xC1, 0xD9] : List UInt8)[place]? := by
    intro place unchanged
    match place with
    | 0 | 5 | 6 => rfl
    | 1 | 2 | 3 | 4 => omega
    | place + 7 => rfl
  exact ⟨opened, outside, refuses_burst_error opened rfl (by decide) outside⟩

end HalfDuplex
